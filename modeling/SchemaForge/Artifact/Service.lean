import SchemaForge.Artifact.Code

/-!
# Service modules

A service reads, creates, updates and deletes the rows of one table, and turns every failure of
the database into an error of its own.  The two dialects reach the database in different ways;
the errors and the class at the end are the same.

## Main definitions

* `ServiceNames` — the names a service is written with.
* `errorLines`, `builderServiceLines`, `clientServiceLines`, `classLines` — its parts.
* `serviceModule` — the text of the module.
-/

namespace SchemaForge

/-- The names a service is written with. -/
structure ServiceNames where
  /-- The stem of all generated names. -/
  model : String
  /-- All rows of the model. -/
  collection : String
  /-- The binding of the table. -/
  binding : String
  /-- The name of the table in the database. -/
  tableName : String
  /-- The property of the database client. -/
  delegate : String
  /-- The column that rows are looked up by. -/
  key : String
  /-- The type of that column. -/
  keyType : KeyType
  /-- Whether writing may break a unique constraint. -/
  hasUnique : Bool
  /-- The code of that failure. -/
  violationCode : String
  /-- The module of the row schemas. -/
  schemaModule : String
  deriving DecidableEq, Repr, Inhabited

/-- The code with which a database reports a broken unique constraint. -/
def Dialect.violationCode : Dialect → String
  | drizzle => "23505"
  | prisma => "P2002"

/-- The names of a table's service. -/
def ServiceNames.ofTable (o : ImportOptions) (t : Table) : ServiceNames where
  model := t.modelName
  collection := Name.collection t.modelName
  binding := t.name
  tableName := t.tableName
  delegate := Name.delegate t.name
  key := t.primaryKeyName
  keyType := t.keyType
  hasUnique := t.hasUniqueColumns
  violationCode := t.dialect.violationCode
  schemaModule := o.schemaModule t

/-! ### Errors -/

/-- The message of a broken unique constraint, as a literal. -/
def conflictLiteral (tableName : String) : String :=
  "'Unique constraint violated on " ++ tableName ++ "'"

/-- The error of a row that would break a unique constraint, and its test. -/
def conflictLines (n : ServiceNames) : List String :=
  let code := n.violationCode
  if n.hasUnique then
    [ "export class ConflictError extends Schema.TaggedError<ConflictError>()('ConflictError', \x7b",
      "  message: Schema.String,",
      "  cause: Schema.Unknown,",
      "\x7d) \x7b\x7d",
      "",
      "const isUniqueViolation = (error: unknown): boolean => \x7b",
      "  if (typeof error !== 'object' || error === null) return false",
      s!"  if ('code' in error && error.code === '{code}') return true",
      "  return 'cause' in error && isUniqueViolation(error.cause)",
      "\x7d",
      "" ]
  else []

/-- What a failed write becomes. -/
def writeErrorLines (n : ServiceNames) : List String :=
  let message := conflictLiteral n.tableName
  if n.hasUnique then
    [ "const toWriteError = (error: unknown) =>",
      "  isUniqueViolation(error)",
      s!"    ? new ConflictError(\x7b message: {message}, cause: error \x7d)",
      "    : new DatabaseError(\x7b cause: error \x7d)",
      "" ]
  else
    [ "const toWriteError = toDatabaseError",
      "" ]

/-- The errors of a service, the type of its keys and the reading of its rows. -/
def errorLines (n : ServiceNames) : List String :=
  let model := n.model
  let idSchema := n.keyType.schema
  let idType := n.keyType.typeName
  [ "export class DatabaseError extends Schema.TaggedError<DatabaseError>()('DatabaseError', \x7b",
    "  cause: Schema.Unknown,",
    "\x7d) \x7b\x7d",
    "",
    s!"export class {model}NotFound extends Schema.TaggedError<{model}NotFound>()('{model}NotFound', \x7b",
    s!"  id: {idSchema},",
    "\x7d) \x7b\x7d",
    "" ] ++
  conflictLines n ++
  [ s!"type {model}Id = {idType}",
    "",
    "const toDatabaseError = (error: unknown) => new DatabaseError(\x7b cause: error \x7d)",
    "" ] ++
  writeErrorLines n ++
  [ s!"const decode{model} = (row: unknown) =>",
    s!"  Schema.decodeUnknown(select{model}Schema)(row).pipe(Effect.mapError(toDatabaseError))" ]

/-! ### Services -/

/-- The imports of a service over a table binding. -/
def builderImportLines (o : ImportOptions) (n : ServiceNames) : List String :=
  let model := n.model
  let binding := n.binding
  let schemaModule := n.schemaModule
  let tableImport := o.tableImport
  [ "import * as PgDrizzle from '@effect/sql-drizzle/Pg'",
    "import \x7b eq \x7d from 'drizzle-orm'",
    "import \x7b Context, Effect, Layer, Schema \x7d from 'effect'",
    "",
    s!"import type \x7b Insert{model} \x7d from '{schemaModule}'",
    s!"import \x7b select{model}Schema \x7d from '{schemaModule}'",
    s!"import \x7b {binding} \x7d from '{tableImport}'",
    "" ]

/-- A service over a table binding. -/
def builderServiceLines (n : ServiceNames) : List String :=
  let model := n.model
  let collection := n.collection
  let binding := n.binding
  let pk := n.key
  [ "",
    s!"const make{model}Service = Effect.gen(function* () \x7b",
    "  const db = yield* PgDrizzle.PgDrizzle",
    "",
    s!"  const find{model} = (id: {model}Id) =>",
    "    db",
    "      .select()",
    s!"      .from({binding})",
    s!"      .where(eq({binding}.{pk}, id))",
    "      .limit(1)",
    "      .pipe(",
    "        Effect.mapError(toDatabaseError),",
    "        Effect.flatMap(rows =>",
    s!"          rows[0] ? Effect.succeed(rows[0]) : Effect.fail(new {model}NotFound(\x7b id \x7d))",
    "        )",
    "      )",
    "",
    "  return \x7b",
    s!"    getAll{collection}: db",
    "      .select()",
    s!"      .from({binding})",
    "      .pipe(",
    "        Effect.mapError(toDatabaseError),",
    s!"        Effect.flatMap(rows => Effect.forEach(rows, decode{model}))",
    "      ),",
    "",
    s!"    get{model}ById: (id: {model}Id) => find{model}(id).pipe(Effect.flatMap(decode{model})),",
    "",
    s!"    create{model}: (data: Insert{model}) =>",
    "      db",
    s!"        .insert({binding})",
    "        .values(data)",
    "        .returning()",
    "        .pipe(",
    "          Effect.mapError(toWriteError),",
    "          Effect.flatMap(rows =>",
    "            rows[0]",
    "              ? Effect.succeed(rows[0])",
    "              : Effect.fail(new DatabaseError(\x7b cause: 'No row returned after insert' \x7d))",
    "          ),",
    s!"          Effect.flatMap(decode{model})",
    "        ),",
    "",
    s!"    update{model}: (id: {model}Id, data: Partial<Insert{model}>) =>",
    "      Effect.gen(function* () \x7b",
    s!"        yield* find{model}(id)",
    "        const rows = yield* db",
    s!"          .update({binding})",
    "          .set(data)",
    s!"          .where(eq({binding}.{pk}, id))",
    "          .returning()",
    "          .pipe(Effect.mapError(toWriteError))",
    "        const updated = rows[0]",
    "        if (!updated) \x7b",
    s!"          return yield* Effect.fail(new {model}NotFound(\x7b id \x7d))",
    "        \x7d",
    s!"        return yield* decode{model}(updated)",
    "      \x7d),",
    "",
    s!"    delete{model}: (id: {model}Id) =>",
    "      Effect.gen(function* () \x7b",
    s!"        const existing = yield* find{model}(id)",
    "        yield* db",
    s!"          .delete({binding})",
    s!"          .where(eq({binding}.{pk}, id))",
    "          .pipe(Effect.mapError(toDatabaseError))",
    s!"        return yield* decode{model}(existing)",
    "      \x7d),",
    "  \x7d",
    "\x7d)",
    "" ]

/-- The imports of a service over a database client. -/
def clientImportLines (o : ImportOptions) (n : ServiceNames) : List String :=
  let model := n.model
  let schemaModule := n.schemaModule
  let prismaClientImport := o.prismaClientImport
  [ "import \x7b Context, Effect, Layer, Option, Schema \x7d from 'effect'",
    "",
    s!"import type \x7b Insert{model} \x7d from '{schemaModule}'",
    s!"import \x7b select{model}Schema \x7d from '{schemaModule}'",
    s!"import \x7b PrismaDatabase \x7d from '{prismaClientImport}'",
    "" ]

/-- A service over a database client, whose own queries it passes on. -/
def clientServiceLines (n : ServiceNames) : List String :=
  let model := n.model
  let collection := n.collection
  let pk := n.key
  let delegate := n.delegate
  [ "",
    s!"const make{model}Service = Effect.gen(function* () \x7b",
    "  const prisma = yield* PrismaDatabase",
    s!"  const delegate = prisma.{delegate}",
    "",
    "  const run = <A>(operation: () => Promise<A>) =>",
    "    Effect.tryPromise(\x7b try: operation, catch: toDatabaseError \x7d)",
    "  const write = <A>(operation: () => Promise<A>) =>",
    "    Effect.tryPromise(\x7b try: operation, catch: toWriteError \x7d)",
    s!"  const decodeAll = (rows: ReadonlyArray<unknown>) => Effect.forEach(rows, decode{model})",
    "",
    s!"  const find{model} = (id: {model}Id) =>",
    s!"    run(() => delegate.findUnique(\x7b where: \x7b {pk}: id \x7d \x7d)).pipe(",
    s!"      Effect.flatMap(row => (row ? Effect.succeed(row) : Effect.fail(new {model}NotFound(\x7b id \x7d))))",
    "    )",
    "",
    "  return \x7b",
    s!"    getAll{collection}: run(() => delegate.findMany()).pipe(Effect.flatMap(decodeAll)),",
    "",
    s!"    get{model}ById: (id: {model}Id) => find{model}(id).pipe(Effect.flatMap(decode{model})),",
    "",
    s!"    create{model}: (data: Insert{model}) =>",
    s!"      write(() => delegate.create(\x7b data \x7d)).pipe(Effect.flatMap(decode{model})),",
    "",
    s!"    update{model}: (id: {model}Id, data: Partial<Insert{model}>) =>",
    "      Effect.gen(function* () \x7b",
    s!"        yield* find{model}(id)",
    s!"        const updated = yield* write(() => delegate.update(\x7b where: \x7b {pk}: id \x7d, data \x7d))",
    s!"        return yield* decode{model}(updated)",
    "      \x7d),",
    "",
    s!"    delete{model}: (id: {model}Id) =>",
    "      Effect.gen(function* () \x7b",
    s!"        const existing = yield* find{model}(id)",
    s!"        yield* run(() => delegate.delete(\x7b where: \x7b {pk}: id \x7d \x7d))",
    s!"        return yield* decode{model}(existing)",
    "      \x7d),",
    "",
    "    findMany: (args?: Parameters<typeof delegate.findMany>[0]) =>",
    "      run(() => delegate.findMany(args)).pipe(Effect.flatMap(decodeAll)),",
    "",
    "    findFirst: (args?: Parameters<typeof delegate.findFirst>[0]) =>",
    "      run(() => delegate.findFirst(args)).pipe(",
    "        Effect.flatMap(row =>",
    s!"          row ? Effect.map(decode{model}(row), Option.some) : Effect.succeed(Option.none())",
    "        )",
    "      ),",
    "",
    "    findUniqueOrThrow: (args: Parameters<typeof delegate.findUniqueOrThrow>[0]) =>",
    s!"      run(() => delegate.findUniqueOrThrow(args)).pipe(Effect.flatMap(decode{model})),",
    "",
    "    findFirstOrThrow: (args?: Parameters<typeof delegate.findFirstOrThrow>[0]) =>",
    s!"      run(() => delegate.findFirstOrThrow(args)).pipe(Effect.flatMap(decode{model})),",
    "",
    "    count: (args?: Parameters<typeof delegate.count>[0]) => run(() => delegate.count(args)),",
    "",
    "    createMany: (args: Parameters<typeof delegate.createMany>[0]) =>",
    "      write(() => delegate.createMany(args)).pipe(Effect.map(result => result.count)),",
    "",
    "    createManyAndReturn: (args: Parameters<typeof delegate.createManyAndReturn>[0]) =>",
    "      write(() => delegate.createManyAndReturn(args)).pipe(Effect.flatMap(decodeAll)),",
    "",
    "    updateMany: (args: Parameters<typeof delegate.updateMany>[0]) =>",
    "      write(() => delegate.updateMany(args)).pipe(Effect.map(result => result.count)),",
    "",
    "    updateManyAndReturn: (args: Parameters<typeof delegate.updateManyAndReturn>[0]) =>",
    "      write(() => delegate.updateManyAndReturn(args)).pipe(Effect.flatMap(decodeAll)),",
    "",
    "    upsert: (args: Parameters<typeof delegate.upsert>[0]) =>",
    s!"      write(() => delegate.upsert(args)).pipe(Effect.flatMap(decode{model})),",
    "",
    "    deleteMany: (args?: Parameters<typeof delegate.deleteMany>[0]) =>",
    "      run(() => delegate.deleteMany(args)).pipe(Effect.map(result => result.count)),",
    "",
    "    aggregate: (args: Parameters<typeof delegate.aggregate>[0]) => run(() => delegate.aggregate(args)),",
    "",
    "    groupBy: (args: Parameters<typeof delegate.groupBy>[0]) => run(() => delegate.groupBy(args)),",
    "  \x7d",
    "\x7d)",
    "" ]

/-- The class of a service. -/
def classLines (n : ServiceNames) : List String :=
  let model := n.model
  [ s!"export class {model}Service extends Context.Tag('{model}Service')<",
    s!"  {model}Service,",
    s!"  Effect.Effect.Success<typeof make{model}Service>",
    ">() \x7b",
    s!"  static readonly Live = Layer.effect({model}Service, make{model}Service)",
    "\x7d" ]

/-- The lines of a service module. -/
def serviceLines (o : ImportOptions) (t : Table) : List String :=
  let n := ServiceNames.ofTable o t
  match t.dialect with
  | .drizzle => builderImportLines o n ++ errorLines n ++ builderServiceLines n ++ classLines n
  | .prisma => clientImportLines o n ++ errorLines n ++ clientServiceLines n ++ classLines n

/-- The text of a service module. -/
def serviceModule (o : ImportOptions) (t : Table) : String :=
  ofLines (serviceLines o t)

end SchemaForge
