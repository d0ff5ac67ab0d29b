import SchemaForge.Schema.Grammar

/-!
# What is still to be read

Between two tokens, all that decides how a schema may go on is the row of parts that were begun
and are still to be read, the innermost first.  A part takes the next token, and leaves other
parts to be read in its place; or it may be missing in front of that token, and the part behind it
is asked; or the token is impossible.

The readers of the grammar are not changed by this.  `run` says where reading stops, without what
it reads, and the readers are compared with it one by one.

## Main definitions

* `Pending` — a part that is still to be read.
* `Pending.move` — what a part does at the next token, or at the end of the input.
* `run` — where reading stops, if it does not come to the end.
* `completion` — tokens that end all that is still to be read.

## Main results

* `run_append` — **where reading stops depends on no token behind that place.**
* `run_completion` — **whatever is still to be read can be read to its end.**
-/

namespace SchemaForge.Schema

/-! ### Parts -/

/-- The brackets around lists. -/
inductive Bracket where
  /-- Around arguments. -/
  | round
  /-- Around values. -/
  | square
  deriving DecidableEq, Repr

/-- The token that closes a list. -/
def Bracket.close : Bracket → TokenKind
  | round => .rparen
  | square => .rbracket

/-- The three kinds of lines in blocks. -/
inductive LineKind where
  /-- Fields and block attributes. -/
  | field
  /-- Values of enumerations and block attributes. -/
  | enumValue
  /-- Settings. -/
  | setting
  deriving DecidableEq, Repr

/-- A part that is still to be read. -/
inductive Pending where
  /-- A name. -/
  | name
  /-- A quoted text. -/
  | quoted
  /-- An equals sign. -/
  | equals
  /-- The brace that opens a block. -/
  | opening
  /-- The bracket that closes what stands in brackets. -/
  | closing (b : Bracket)
  /-- A value. -/
  | value
  /-- An argument. -/
  | argument
  /-- What may follow a name that an argument starts with. -/
  | argumentMark
  /-- Arguments in parentheses, which may be missing. -/
  | arguments
  /-- The elements of a list, through the closing bracket. -/
  | list (b : Bracket)
  /-- What follows an element of a list, through the closing bracket. -/
  | listNext (b : Bracket)
  /-- More parts of a dotted name, which may be missing. -/
  | dots
  /-- Attributes behind their marks, which may be missing. -/
  | attributes
  /-- A comment, which may be missing. -/
  | comment
  /-- The end of a line. -/
  | lineEnd
  /-- The type of a field. -/
  | fieldType
  /-- A type of the database in parentheses, which may be missing. -/
  | nativeType
  /-- What may follow the type of a field. -/
  | modifier
  /-- The lines of a block, through the closing brace. -/
  | items (kind : LineKind)
  deriving DecidableEq, Repr

/-- What a part does at the next token. -/
inductive Move where
  /-- It takes the token, and leaves these parts to be read. -/
  | take (more : List Pending)
  /-- It is missing here. -/
  | skip
  /-- The token is impossible. -/
  | stop
  deriving DecidableEq, Repr

/-- A move, with other parts behind those that it leaves. -/
def Move.followedBy (behind : List Pending) : Move → Move
  | take more => .take (more ++ behind)
  | other => other

namespace Pending

/-- What is still to be read of an attribute behind its mark. -/
def attributeParts : List Pending :=
  [.name, .dots, .arguments]

/-- What is still to be read of a line of a block behind the name that it starts with. -/
def entry : LineKind → List Pending
  | .field => [.fieldType, .modifier, .attributes, .comment, .lineEnd]
  | .enumValue => [.attributes, .comment, .lineEnd]
  | .setting => [.equals, .value, .comment, .lineEnd]

/-- What a value does at the next token. -/
def moveValue : Option TokenKind → Move
  | some (.str _) => .take []
  | some (.number _) => .take []
  | some .lbracket => .take [.list .square]
  | some (.ident _) => .take [.arguments]
  | _ => .stop

/-- What an argument does at the next token. -/
def moveArgument : Option TokenKind → Move
  | some (.ident _) => .take [.argumentMark]
  | other => moveValue other

/-- What an element of a list does at the next token. -/
def moveElement : Bracket → Option TokenKind → Move
  | .round => moveArgument
  | .square => moveValue

/-- What the lines of a block do at the next token. -/
def moveItems (kind : LineKind) : Option TokenKind → Move
  | some .rbrace => .take []
  | some .newline => .take [.items kind]
  | some (.comment _) => .take [.items kind]
  | some (.ident _) => .take (entry kind ++ [.items kind])
  | some .atAt =>
    if kind = .setting then .stop
    else .take (attributeParts ++ [.comment, .lineEnd, .items kind])
  | _ => .stop

/-- A part that is one token. -/
def moveToken (kind : TokenKind) (next : Option TokenKind) : Move :=
  if next = some kind then .take [] else .stop

/-- A part that starts with a token, and may be missing. -/
def moveOptional (kind : TokenKind) (more : List Pending) (next : Option TokenKind) : Move :=
  if next = some kind then .take more else .skip

/-- What a part does at the next token, or at the end of the input. -/
def move : Pending → Option TokenKind → Move
  | name, some (.ident _) => .take []
  | name, _ => .stop
  | quoted, some (.str _) => .take []
  | quoted, _ => .stop
  | equals, next => moveToken .equals next
  | opening, next => moveToken .lbrace next
  | closing b, next => moveToken b.close next
  | value, next => moveValue next
  | argument, next => moveArgument next
  | argumentMark, some .colon => .take [.value]
  | argumentMark, next => moveOptional .lparen [.list .round] next
  | arguments, next => moveOptional .lparen [.list .round] next
  | list b, next =>
    if next = some .newline then .take [.list b]
    else if next = some b.close then .take []
    else (moveElement b next).followedBy [.listNext b]
  | listNext b, next =>
    if next = some .newline then .take [.listNext b]
    else if next = some .comma then .take [.list b]
    else moveToken b.close next
  | dots, next => moveOptional .dot [.name, .dots] next
  | attributes, next => moveOptional .at (attributeParts ++ [.attributes]) next
  | comment, some (.comment _) => .take []
  | comment, _ => .skip
  | lineEnd, some .newline => .take []
  | lineEnd, some .rbrace => .skip
  | lineEnd, none => .skip
  | lineEnd, _ => .stop
  | fieldType, some (.ident s) => .take (if s = unsupportedName then [.nativeType] else [])
  | fieldType, _ => .stop
  | nativeType, next => moveOptional .lparen [.quoted, .closing .round] next
  | modifier, some .question => .take []
  | modifier, next => moveOptional .lbracket [.closing .square] next
  | items kind, next => moveItems kind next

theorem head?_ne_of_ne_cons {kind : TokenKind} {ts : List TokenKind}
    (h : ∀ us, ts ≠ kind :: us) : ts.head? ≠ some kind := by
  intro heq
  obtain ⟨us, hus⟩ := List.head?_eq_some_iff.1 heq
  exact h us hus

/-- A part that is one token stops at any other. -/
theorem moveToken_of_ne {kind : TokenKind} {ts : List TokenKind} (h : ∀ us, ts ≠ kind :: us) :
    moveToken kind ts.head? = .stop :=
  if_neg (head?_ne_of_ne_cons h)

/-- A part that starts with a token is missing in front of any other. -/
theorem moveOptional_of_ne {kind : TokenKind} {more : List Pending} {ts : List TokenKind}
    (h : ∀ us, ts ≠ kind :: us) : moveOptional kind more ts.head? = .skip :=
  if_neg (head?_ne_of_ne_cons h)

end Pending

/-! ### Reading on -/

/-- The lines of the block that a keyword opens, if it opens one. -/
def lineKind? : String → Option LineKind
  | "model" => some .field
  | "type" => some .field
  | "view" => some .field
  | "enum" => some .enumValue
  | "datasource" => some .setting
  | "generator" => some .setting
  | _ => none

/-- What is to be read behind a token between two declarations, if it may stand there. -/
def takeOuter : TokenKind → Option (List Pending)
  | .newline => some []
  | .comment _ => some []
  | .ident keyword => (lineKind? keyword).map fun kind => [.name, .opening, .items kind]
  | _ => none

/-- What is to be read behind a token when `ps` is still to be read in front of it; none if the
token is impossible there. -/
def take? : List Pending → TokenKind → Option (List Pending)
  | [], t => takeOuter t
  | p :: ps, t =>
    match p.move (some t) with
    | .take more => some (more ++ ps)
    | .skip => take? ps t
    | .stop => none

/-- Where reading stops: the number of tokens from the first impossible one to the end, which is
none if only the end is impossible.  There is no such place if all can be read. -/
def run (ps : List Pending) : List TokenKind → Option Nat
  | [] => if ps.all (·.move none = .skip) then none else some 0
  | t :: ts =>
    match take? ps t with
    | some ps' => run ps' ts
    | none => some (ts.length + 1)

section

variable {p : Pending} {t : TokenKind} {m ps : List Pending} {ts : List TokenKind}

theorem run_of_take (h : p.move (some t) = .take m) :
    run (p :: ps) (t :: ts) = run (m ++ ps) ts := by
  rw [run, take?, h]

theorem run_of_skip (h : p.move ts.head? = .skip) : run (p :: ps) ts = run ps ts := by
  cases ts with
  | nil =>
    rw [List.head?_nil] at h
    simp [run, h]
  | cons t ts =>
    rw [List.head?_cons] at h
    rw [run, take?, h, run]

theorem run_of_stop (h : p.move ts.head? = .stop) : run (p :: ps) ts = some ts.length := by
  cases ts with
  | nil =>
    rw [List.head?_nil] at h
    simp [run, h]
  | cons t ts =>
    rw [List.head?_cons] at h
    rw [run, take?, h]
    rfl

/-- **Where reading stops depends on no token behind that place.**  The tokens in front of it
leave parts to be read that stop at once, at the same token or at the end, whatever follows. -/
theorem run_append {n : Nat} (h : run ps ts = some n) :
    ∃ front behind left, ts = front ++ behind ∧ behind.length = n ∧
      (∀ us, run ps (front ++ us) = run left us) ∧
      ∀ us, us.head? = behind.head? → run left us = some us.length := by
  induction ts generalizing ps with
  | nil =>
    rw [run] at h
    split at h
    · cases h
    · next hstop =>
      cases h
      refine ⟨[], [], ps, rfl, rfl, fun _ => rfl, fun us hus => ?_⟩
      obtain rfl : us = [] := List.head?_eq_none_iff.1 hus
      rw [run, if_neg hstop]
      rfl
  | cons t ts ih =>
    rw [run] at h
    split at h
    · next ps' htake =>
      obtain ⟨front, behind, left, rfl, hlength, hfront, hbehind⟩ := ih h
      refine ⟨t :: front, behind, left, rfl, hlength, fun us => ?_, hbehind⟩
      rw [List.cons_append, run, htake]
      exact hfront us
    · next hstop =>
      cases h
      refine ⟨[], t :: ts, ps, rfl, rfl, fun _ => rfl, fun us hus => ?_⟩
      obtain ⟨us', rfl⟩ := List.head?_eq_some_iff.1 hus
      rw [run, hstop]
      rfl

end

/-! ### Reading to the end -/

namespace Pending

/-- Tokens that a part can be read from; none where it may be missing. -/
def completion : Pending → List TokenKind
  | name => [.ident "x"]
  | quoted => [.str ""]
  | equals => [.equals]
  | opening => [.lbrace]
  | closing b => [b.close]
  | value => [.number "0"]
  | argument => [.number "0"]
  | argumentMark => []
  | arguments => []
  | list b => [b.close]
  | listNext b => [b.close]
  | dots => []
  | attributes => []
  | comment => []
  | lineEnd => [.newline]
  | fieldType => [.ident "x"]
  | nativeType => []
  | modifier => []
  | items _ => [.rbrace]

end Pending

/-- Tokens that end all that is still to be read. -/
def completion (ps : List Pending) : List TokenKind :=
  ps.flatMap Pending.completion

/-- A token that no part starts with that may be missing. -/
def TokenKind.isQuiet : TokenKind → Bool
  | .ident _ => true
  | .str _ => true
  | .number _ => true
  | .equals => true
  | .lbrace => true
  | .rbrace => true
  | .rparen => true
  | .rbracket => true
  | .newline => true
  | _ => false

/-- A part takes its completion, or is missing in front of a quiet token and at the end. -/
theorem Pending.completion_cases (p : Pending) :
    (∃ t, p.completion = [t] ∧ t.isQuiet = true ∧ p.move (some t) = .take []) ∨
      (p.completion = [] ∧ p.move none = .skip ∧
        ∀ t : TokenKind, t.isQuiet = true → p.move (some t) = .skip) := by
  have hskip : ∀ {kind : TokenKind} {more : List Pending}, kind.isQuiet = false →
      moveOptional kind more none = .skip ∧
        ∀ t : TokenKind, t.isQuiet = true → moveOptional kind more (some t) = .skip := by
    intro kind more hkind
    refine ⟨rfl, fun t ht => if_neg ?_⟩
    rintro ⟨⟩
    rw [hkind] at ht
    cases ht
  cases p with
  | closing b => cases b <;> exact .inl ⟨_, rfl, rfl, rfl⟩
  | list b => cases b <;> exact .inl ⟨_, rfl, rfl, rfl⟩
  | listNext b => cases b <;> exact .inl ⟨_, rfl, rfl, rfl⟩
  | fieldType => exact .inl ⟨_, rfl, rfl, by decide⟩
  | arguments => exact .inr ⟨rfl, hskip rfl⟩
  | dots => exact .inr ⟨rfl, hskip rfl⟩
  | attributes => exact .inr ⟨rfl, hskip rfl⟩
  | nativeType => exact .inr ⟨rfl, hskip rfl⟩
  | argumentMark =>
    refine .inr ⟨rfl, rfl, fun t ht => ?_⟩
    cases t <;> first | rfl | cases ht
  | comment =>
    refine .inr ⟨rfl, rfl, fun t ht => ?_⟩
    cases t <;> first | rfl | cases ht
  | modifier =>
    refine .inr ⟨rfl, rfl, fun t ht => ?_⟩
    cases t <;> first | rfl | cases ht
  | _ => exact .inl ⟨_, rfl, rfl, rfl⟩

/-- **Whatever is still to be read can be read to its end.** -/
theorem run_completion (ps : List Pending) : run ps (completion ps) = none := by
  -- no part that may be missing takes what completes the parts behind it
  suffices h : run ps (completion ps) = none ∧ ∀ t ∈ (completion ps).head?, t.isQuiet = true from
    h.1
  induction ps with
  | nil => exact ⟨rfl, fun t ht => by cases ht⟩
  | cons p ps ih =>
    obtain ⟨hrun, hquiet⟩ := ih
    rw [completion, List.flatMap_cons]
    rcases p.completion_cases with ⟨t, hp, ht, htake⟩ | ⟨hp, hend, hskip⟩
    · rw [hp, List.singleton_append]
      refine ⟨?_, fun t' ht' => by cases ht'; exact ht⟩
      rw [run_of_take htake]
      exact hrun
    · rw [hp, List.nil_append]
      refine ⟨?_, hquiet⟩
      have hmove : p.move (completion ps).head? = .skip := by
        cases hhead : (completion ps).head? with
        | none => exact hend
        | some t => exact hskip t (hquiet t hhead)
      exact (run_of_skip hmove).trans hrun

end SchemaForge.Schema
