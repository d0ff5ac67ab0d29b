/-!
# Chunks of program text

Table declarations stand in program text, where brackets and commas mean nothing inside literals
and comments.  A text is cut into chunks once: literals, comments and single characters.

## Main definitions

* `Chunk` — a literal, a comment or a character.
* `chunks` — the chunks of a text.

## Main results

* `chunks_flatMap_text` — the chunks of a text make up the text.
-/

namespace SchemaForge.Declaration

/-- A piece of program text. -/
inductive Chunk where
  /-- A character outside literals and comments. -/
  | char (c : Char)
  /-- A literal with its quotes. -/
  | literal (text : List Char)
  /-- A comment with its marks; one to the end of its line has the line feed too. -/
  | comment (text : List Char)
  /-- A literal that the text ends inside. -/
  | openLiteral (text : List Char)
  /-- A comment that the text ends inside, short of the mark that would close it. -/
  | openComment (text : List Char)
  deriving DecidableEq, Repr, Inhabited

/-- The characters of a chunk. -/
def Chunk.text : Chunk → List Char
  | char c => [c]
  | literal t => t
  | comment t => t
  | openLiteral t => t
  | openComment t => t

/-- Split a text behind the quote `q` that closes a literal; an escaped character closes
nothing. -/
def splitLiteral (q : Char) : List Char → Option (List Char × List Char)
  | [] => none
  | '\\' :: c :: rest =>
    (splitLiteral q rest).map fun (inside, rest) => ('\\' :: c :: inside, rest)
  | c :: rest =>
    if c = q then some ([c], rest)
    else (splitLiteral q rest).map fun (inside, rest) => (c :: inside, rest)

/-- Split a text behind the mark that closes a block comment. -/
def splitBlockComment : List Char → Option (List Char × List Char)
  | [] => none
  | '*' :: '/' :: rest => some (['*', '/'], rest)
  | c :: rest => (splitBlockComment rest).map fun (inside, rest) => (c :: inside, rest)

/-- Split a text behind its first line feed, or at its end. -/
def splitLine : List Char → List Char × List Char
  | [] => ([], [])
  | '\n' :: rest => (['\n'], rest)
  | c :: rest =>
    let (line, rest) := splitLine rest
    (c :: line, rest)

/-- The quotes that a literal may stand in. -/
def isQuote (c : Char) : Bool :=
  c == '"' || c == '\'' || c == '\x60'

/-- The chunk at the head of the text `c :: rest`, and what follows it. -/
def chunk (c : Char) (rest : List Char) : Chunk × List Char :=
  if isQuote c then
    match splitLiteral c rest with
    | some (inside, after) => (.literal (c :: inside), after)
    | none => (.openLiteral (c :: rest), [])
  else
    match c, rest with
    | '/', '/' :: rest =>
      let (line, after) := splitLine rest
      (.comment ('/' :: '/' :: line), after)
    | '/', '*' :: rest =>
      match splitBlockComment rest with
      | some (inside, after) => (.comment ('/' :: '*' :: inside), after)
      | none => (.openComment ('/' :: '*' :: rest), [])
    | c, rest => (.char c, rest)

theorem splitLiteral_append {q : Char} {text inside rest : List Char}
    (h : splitLiteral q text = some (inside, rest)) : inside ++ rest = text := by
  fun_induction splitLiteral q text generalizing inside with
  | case1 => simp at h
  | case2 c text ih =>
    obtain ⟨⟨i, r⟩, hs, he⟩ := Option.map_eq_some_iff.1 h
    simp only [Prod.mk.injEq] at he
    obtain ⟨rfl, rfl⟩ := he
    simp [ih hs]
  | case3 text =>
    simp only [Option.some.injEq, Prod.mk.injEq] at h
    obtain ⟨rfl, rfl⟩ := h
    rfl
  | case4 c text _ _ ih =>
    obtain ⟨⟨i, r⟩, hs, he⟩ := Option.map_eq_some_iff.1 h
    simp only [Prod.mk.injEq] at he
    obtain ⟨rfl, rfl⟩ := he
    simp [ih hs]

theorem splitBlockComment_append {text inside rest : List Char}
    (h : splitBlockComment text = some (inside, rest)) : inside ++ rest = text := by
  fun_induction splitBlockComment text generalizing inside with
  | case1 => simp at h
  | case2 =>
    simp only [Option.some.injEq, Prod.mk.injEq] at h
    obtain ⟨rfl, rfl⟩ := h
    rfl
  | case3 c text _ ih =>
    obtain ⟨⟨i, r⟩, hs, he⟩ := Option.map_eq_some_iff.1 h
    simp only [Prod.mk.injEq] at he
    obtain ⟨rfl, rfl⟩ := he
    simp [ih hs]

theorem splitLine_append (text : List Char) :
    (splitLine text).1 ++ (splitLine text).2 = text := by
  fun_induction splitLine text with
  | case1 => rfl
  | case2 => rfl
  | case3 c text _ line rest h ih => simpa [h] using ih

/-- A chunk and what follows it make up the text it was cut from. -/
theorem chunk_text_append_rest (c : Char) (rest : List Char) :
    (chunk c rest).1.text ++ (chunk c rest).2 = c :: rest := by
  unfold chunk
  split
  · split
    · rename_i h
      simp [Chunk.text, splitLiteral_append h]
    · simp [Chunk.text]
  · split
    · simp [Chunk.text, splitLine_append]
    · split
      · rename_i h
        simp [Chunk.text, splitBlockComment_append h]
      · simp [Chunk.text]
    · simp [Chunk.text]

/-- What follows a chunk is shorter than the text it was cut from. -/
theorem chunk_rest_length_lt (c : Char) (rest : List Char) :
    (chunk c rest).2.length < rest.length + 1 := by
  have hlen := congrArg List.length (chunk_text_append_rest c rest)
  have hpos : 0 < (chunk c rest).1.text.length := by
    unfold chunk
    repeat' split
    all_goals simp [Chunk.text]
  simp only [List.length_append, List.length_cons] at hlen
  omega

/-- The chunks of a text. -/
def chunks : List Char → List Chunk
  | [] => []
  | c :: rest => (chunk c rest).1 :: chunks (chunk c rest).2
termination_by text => text.length
decreasing_by simpa using chunk_rest_length_lt c rest

@[simp] theorem chunks_nil : chunks [] = [] := by
  rw [chunks]

theorem chunks_cons (c : Char) (rest : List Char) :
    chunks (c :: rest) = (chunk c rest).1 :: chunks (chunk c rest).2 := by
  rw [chunks]

/-- The chunks of a text make up the text. -/
theorem chunks_flatMap_text (text : List Char) : (chunks text).flatMap Chunk.text = text := by
  fun_induction chunks text with
  | case1 => rfl
  | case2 c rest ih => rw [List.flatMap_cons, ih, chunk_text_append_rest]

end SchemaForge.Declaration
