import SchemaForge.Artifact.Plan
import SchemaForge.Cli.Program
import SchemaForge.Declaration.Source
import SchemaForge.FileTree
import SchemaForge.Main
import SchemaForge.Name.Derived
import SchemaForge.Proofs.Artifact.Literals
import SchemaForge.Proofs.Declaration.Agreement
import SchemaForge.Proofs.Declaration.Comments
import SchemaForge.Proofs.Declaration.Tables
import SchemaForge.Proofs.Declaration.TypeArguments
import SchemaForge.Proofs.LineEnds
import SchemaForge.Proofs.Run.Failure
import SchemaForge.Proofs.Run.Format
import SchemaForge.Proofs.Run.Success
import SchemaForge.Proofs.Schema.Columns
import SchemaForge.Proofs.Schema.Fault.Place
import SchemaForge.Proofs.Schema.Keys
import SchemaForge.Proofs.Schema.Pieces
import SchemaForge.Proofs.Schema.Rearranged
import SchemaForge.Proofs.Schema.RoundTrip
import SchemaForge.Proofs.Schema.Shape
import SchemaForge.Proofs.Schema.Tables
import SchemaForge.Proofs.Settings.Workspace
import SchemaForge.Run.Schema
import SchemaForge.Run.Generate
import SchemaForge.Schema.Layout
import SchemaForge.Schema.Source
import SchemaForge.Schema.Tables
import SchemaForge.Settings.Load
import SchemaForge.Skeleton.NewProject
import SchemaForge.Toml.Reader
import SchemaForge.Proofs.Declaration.Sites
import SchemaForge.Proofs.Skeleton.ProjectName
import SchemaForge.Proofs.Skeleton.Template
import SchemaForge.Proofs.FileTree.Rooted
import SchemaForge.Proofs.Skeleton.Creating
import SchemaForge.Proofs.Skeleton.NewProject
