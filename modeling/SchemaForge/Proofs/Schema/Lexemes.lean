import SchemaForge.Proofs.Schema.Writing

/-!
# The forms of lexemes

What the lexemes of the schema language look like, said of their characters alone: each kind of
token has a form, and a lexeme of a name, a number or a comment goes as far as its form allows.
The reader of lexemes takes exactly these, and where it takes none there is a reason in the text.

## Main definitions

* `Resolves` — the inside of a quoted text, and the text that it stands for.
* `IsLexeme` — the characters of a lexeme, in front of what follows them.
* `LexicalFault.IsAt` — what stands in the text where no lexeme starts.

## Main results

* `isLexeme_of_lexeme`, `IsLexeme.lexeme_eq` — **the lexemes that are read are those of the
  forms.**
* `isAt_of_lexeme_eq_error` — where none is read, no lexeme can start.
-/

namespace SchemaForge.Schema

open Text

/-! ### Quoted texts -/

/-- `Resolves inside value` says the inside of a quoted text stands for the value: a backslash and
a character for what they resolve to, and any other character but a quote or a line feed for
itself. -/
inductive Resolves : List Char → List Char → Prop where
  /-- Nothing stands for nothing. -/
  | nil : Resolves [] []
  /-- A character stands for itself. -/
  | plain {c : Char} {inside value : List Char} (hquote : c ≠ '"') (hescape : c ≠ '\\')
      (hline : c ≠ '\n') (rest : Resolves inside value) : Resolves (c :: inside) (c :: value)
  /-- An escaped character stands for what it resolves to; it may be a quote or a line feed. -/
  | escape (c : Char) {inside value : List Char} (rest : Resolves inside value) :
      Resolves ('\\' :: c :: inside) (resolveEscape c :: value)

/-- What may stand where a quoted text breaks off: the end of the text, maybe behind a backslash,
or the end of the line. -/
def BreaksOff (rest : List Char) : Prop :=
  rest = [] ∨ rest = ['\\'] ∨ ∃ more, rest = '\n' :: more

section

variable {text inside value rest : List Char}

theorem Resolves.unescape_eq (h : Resolves inside value) : unescape inside = value := by
  induction h with
  | nil => rfl
  | plain _ hescape _ _ ih =>
    rw [unescape, ih]
    rintro d more rfl
    exact absurd rfl hescape
  | escape c _ ih => rw [unescape, ih]

theorem Resolves.splitQuoted_eq (h : Resolves inside value) (rest : List Char) :
    splitQuoted (inside ++ '"' :: rest) = some (inside, rest) := by
  induction h with
  | nil => simp [splitQuoted]
  | plain hquote hescape hline _ ih =>
    rw [List.cons_append, splitQuoted, if_neg hquote, if_neg hline, ih]
    · rfl
    · rintro d more rfl
      exact absurd rfl hescape
  | escape c _ ih =>
    rw [List.cons_append, List.cons_append, splitQuoted, ih]
    rfl

/-- The inside that is split off stands for what its escapes resolve to. -/
theorem resolves_of_splitQuoted (h : splitQuoted text = some (inside, rest)) :
    Resolves inside (unescape inside) := by
  fun_induction splitQuoted text generalizing inside with
  | case1 => cases h
  | case2 c text ih =>
    obtain ⟨⟨i, r⟩, hsplit, heq⟩ := Option.map_eq_some_iff.1 h
    cases heq
    exact .escape c (ih hsplit)
  | case3 text =>
    cases h
    exact .nil
  | case4 => cases h
  | case5 c text hescape hquote hline ih =>
    obtain ⟨⟨i, r⟩, hsplit, heq⟩ := Option.map_eq_some_iff.1 h
    cases heq
    have hne : c ≠ '\\' := by
      rintro rfl
      -- a backslash at the end of the text closes nothing
      cases text with
      | nil => cases hsplit
      | cons d text => exact hescape d text rfl rfl
    have hrest := ih hsplit
    rw [unescape]
    · exact .plain hquote hne hline hrest
    · rintro d more rfl
      exact absurd rfl hne

/-- A quoted text that is not closed breaks off behind what its inside stands for so far. -/
theorem exists_breaksOff_of_splitQuoted (h : splitQuoted text = none) :
    ∃ inside value rest, text = inside ++ rest ∧ Resolves inside value ∧ BreaksOff rest := by
  fun_induction splitQuoted text with
  | case1 => exact ⟨[], [], [], rfl, .nil, .inl rfl⟩
  | case2 c text ih =>
    obtain ⟨inside, value, rest, rfl, hinside, hrest⟩ := ih (Option.map_eq_none_iff.1 h)
    exact ⟨_, _, rest, rfl, .escape c hinside, hrest⟩
  | case3 => cases h
  | case4 text => exact ⟨[], [], _, rfl, .nil, .inr (.inr ⟨text, rfl⟩)⟩
  | case5 c text hescape hquote hline ih =>
    by_cases hc : c = '\\'
    · subst hc
      cases text with
      | nil => exact ⟨[], [], _, rfl, .nil, .inr (.inl rfl)⟩
      | cons d text => exact absurd rfl (hescape d text rfl)
    · obtain ⟨inside, value, rest, rfl, hinside, hrest⟩ := ih (Option.map_eq_none_iff.1 h)
      exact ⟨_, _, rest, rfl, .plain hquote hc hline hinside, hrest⟩

end

/-! ### Forms -/

/-- `IsLexeme kind text rest` says the text is a lexeme of the kind in front of `rest`.  Names,
numbers and comments go as far as they can. -/
inductive IsLexeme : TokenKind → List Char → List Char → Prop where
  /-- A line feed. -/
  | newline (rest : List Char) : IsLexeme .newline ['\n'] rest
  /-- Two slashes and the rest of the line; the token is without the blanks at its end. -/
  | comment {text blanks rest : List Char} (hslashes : ['/', '/'] <+: text) (hink : EndsInk text)
      (hblanks : ∀ c ∈ blanks, isBlank c = true) (hline : '\n' ∉ text ++ blanks)
      (hrest : ∀ c ∈ rest.head?, c = '\n') :
      IsLexeme (.comment (String.ofList text)) (text ++ blanks) rest
  /-- A quoted text. -/
  | quoted {inside value : List Char} (hinside : Resolves inside value) (rest : List Char) :
      IsLexeme (.str (String.ofList value)) ('"' :: (inside ++ ['"'])) rest
  /-- A name. -/
  | name {c : Char} {cs rest : List Char} (hstart : startsName c = true)
      (hall : ∀ d ∈ cs, isNameChar d = true) (hrest : ∀ d ∈ rest.head?, isNameChar d = false) :
      IsLexeme (.ident (String.ofList (c :: cs))) (c :: cs) rest
  /-- A number: a digit, or a minus that is not alone, and then digits and dots. -/
  | number {c : Char} {cs rest : List Char} (hstart : c.isDigit = true ∨ c = '-' ∧ cs ≠ [])
      (hall : ∀ d ∈ cs, isNumberChar d = true) (hrest : ∀ d ∈ rest.head?, isNumberChar d = false) :
      IsLexeme (.number (String.ofList (c :: cs))) (c :: cs) rest
  /-- The mark of an attribute, which another one would make the mark of a block attribute. -/
  | mark {rest : List Char} (hrest : rest.head? ≠ some '@') : IsLexeme .at ['@'] rest
  /-- The mark of a block attribute. -/
  | blockMark (rest : List Char) : IsLexeme .atAt ['@', '@'] rest
  /-- A punctuation character. -/
  | punctuation {c : Char} {kind : TokenKind} (hkind : punctuation? c = some kind)
      (rest : List Char) : IsLexeme kind [c] rest

section

variable {c : Char} {text own cs rest more : List Char} {kind : TokenKind} {l : Lexeme}
  {fault : LexicalFault}

/-- A run of characters goes as far as they belong to it. -/
theorem runLexeme_stops (belongs : Char → Bool) (rest : List Char) :
    ∀ d ∈ (rest.dropWhile belongs).head?, belongs d = false := by
  intro d hd
  obtain ⟨behind, hbehind⟩ := List.head?_eq_some_iff.1 hd
  have hne : rest.dropWhile belongs ≠ [] := by simp [hbehind]
  have hhead := List.head_dropWhile_not belongs hne
  simpa only [hbehind, List.head_cons] using hhead

theorem endsInk_of_trimEnd_ne_nil (h : trimEnd text ≠ []) : EndsInk (trimEnd text) := by
  rcases trimEnd_eq_nil_or_concat text with hnil | hink
  · exact absurd hnil h
  · exact hink

/-- A comment is trimmed to its form. -/
theorem isLexeme_comment (line : List Char) :
    IsLexeme (commentLexeme '/' ('/' :: line)).kind (commentLexeme '/' ('/' :: line)).text
      (commentLexeme '/' ('/' :: line)).rest := by
  have hslash : isBlank '/' = false := by decide
  obtain ⟨blanks, htext, hblanks⟩ :=
    exists_trimEnd_append ('/' :: '/' :: line.takeWhile (· ≠ '\n'))
  have htrim : trimEnd ('/' :: '/' :: line.takeWhile (· ≠ '\n')) =
      '/' :: '/' :: trimEnd (line.takeWhile (· ≠ '\n')) := by
    rw [trimEnd_cons_of_not_isBlank hslash, trimEnd_cons_of_not_isBlank hslash]
  have hrun : commentLexeme '/' ('/' :: line) =
      ⟨.comment (String.ofList (trimEnd ('/' :: '/' :: line.takeWhile (· ≠ '\n')))),
        '/' :: '/' :: line.takeWhile (· ≠ '\n'), line.dropWhile (· ≠ '\n')⟩ := by
    simp [commentLexeme, runLexeme]
  have hline : '\n' ∉ '/' :: '/' :: line.takeWhile (· ≠ '\n') := by
    simp only [List.mem_cons, Char.reduceEq, false_or]
    intro hmem
    simpa using List.mem_takeWhile_imp hmem
  have hform : IsLexeme
      (.comment (String.ofList (trimEnd ('/' :: '/' :: line.takeWhile (· ≠ '\n')))))
      (trimEnd ('/' :: '/' :: line.takeWhile (· ≠ '\n')) ++ blanks)
      (line.dropWhile (· ≠ '\n')) := by
    refine .comment ?_ (endsInk_of_trimEnd_ne_nil ?_) hblanks ?_ fun d hd => ?_
    · rw [htrim]
      exact ⟨_, rfl⟩
    · rw [htrim]
      exact List.cons_ne_nil _ _
    · rwa [htext]
    · simpa using runLexeme_stops _ line d hd
  rw [hrun]
  rwa [htext] at hform

/-- **A lexeme that is read has one of the forms.** -/
theorem isLexeme_of_lexeme (h : lexeme c text = .ok l) : IsLexeme l.kind l.text l.rest := by
  unfold lexeme at h
  split at h
  · next hc =>
    cases h
    rw [hc]
    exact .newline text
  split at h
  · next hc =>
    split at h
    · cases h
      rw [hc]
      exact isLexeme_comment _
    · cases h
  split at h
  · next hc =>
    split at h
    · next hsplit =>
      cases h
      rw [hc]
      exact .quoted (resolves_of_splitQuoted hsplit) _
    · cases h
  split at h
  · next hc =>
    split at h
    · cases h
      exact .blockMark _
    · next hrest =>
      cases h
      rw [hc]
      refine .mark fun hhead => ?_
      obtain ⟨behind, rfl⟩ := List.head?_eq_some_iff.1 hhead
      exact hrest behind rfl
  split at h
  · next hc =>
    cases h
    exact .number (.inl hc) (fun d hd => List.mem_takeWhile_imp hd) (runLexeme_stops _ text)
  split at h
  · next hc =>
    split at h
    · next hnext =>
      cases h
      refine .number (.inr ⟨hc, ?_⟩) (fun d hd => List.mem_takeWhile_imp hd)
        (runLexeme_stops _ text)
      cases text with
      | nil => cases hnext
      | cons d text => simp_all
    · cases h
  split at h
  · next hc =>
    cases h
    exact .name hc (fun d hd => List.mem_takeWhile_imp hd) (runLexeme_stops _ text)
  split at h
  · next hkind =>
    cases h
    exact .punctuation hkind text
  · cases h

/-- Whether a character stands between lexemes: it is blank, and no line feed. -/
def isSpacing (c : Char) : Bool :=
  isBlank c && c != '\n'

/-- **A text of one of the forms is read as a lexeme**, and it does not start with spacing. -/
theorem IsLexeme.lexeme_eq (h : IsLexeme kind own rest) :
    ∃ c cs, own = c :: cs ∧ isSpacing c = false ∧
      lexeme c (cs ++ rest) = .ok ⟨kind, own, rest⟩ := by
  cases h with
  | newline => exact ⟨'\n', [], rfl, by decide, rfl⟩
  | @comment text blanks rest hslashes hink hblanks hline hrest =>
    obtain ⟨line, rfl⟩ := hslashes
    refine ⟨'/', '/' :: (line ++ blanks), rfl, by decide, congrArg Except.ok ?_⟩
    have hall : ∀ d ∈ '/' :: (line ++ blanks), decide (d ≠ '\n') = true := by
      intro d hd
      refine decide_eq_true ?_
      rintro rfl
      exact hline (List.mem_cons_of_mem '/' hd)
    have hstop : ∀ d ∈ rest.head?, decide (d ≠ '\n') = false := by
      intro d hd
      simp [hrest d hd]
    have hrun := runLexeme_append
      (fun text => .comment (String.ofList (trimEnd text.toList))) (· ≠ '\n') '/' hall hstop
    have htrim : trimEnd ('/' :: '/' :: (line ++ blanks)) = ['/', '/'] ++ line :=
      (trimEnd_append_of_isBlank (['/', '/'] ++ line) hblanks).trans hink.trimEnd_eq
    refine hrun.trans ?_
    rw [String.toList_ofList, htrim]
    rfl
  | @quoted inside value hinside rest =>
    have hsplit := hinside.splitQuoted_eq rest
    refine ⟨'"', inside ++ ['"'], rfl, by decide, ?_⟩
    simp [lexeme, hsplit, hinside.unescape_eq]
  | @name c cs rest hstart hall hrest =>
    have hblank := isBlank_eq_false_of_isNameChar (isNameChar_of_startsName hstart)
    refine ⟨c, cs, rfl, by simp [isSpacing, hblank], ?_⟩
    rw [lexeme_of_startsName hstart, runLexeme_append _ _ c hall hrest]
  | @number c cs rest hstart hall hrest =>
    rcases hstart with hc | ⟨rfl, hne⟩
    · have hblank := isBlank_eq_false_of_isNameChar (isNameChar_of_isDigit hc)
      refine ⟨c, cs, rfl, by simp [isSpacing, hblank], ?_⟩
      rw [lexeme_of_isDigit hc, runLexeme_append _ _ c hall hrest]
    · have hhead : (cs ++ rest).head?.any isNumberChar = true := by
        obtain ⟨d, cs, rfl⟩ := List.exists_cons_of_ne_nil hne
        exact hall d (List.mem_cons_self ..)
      refine ⟨'-', cs, rfl, by decide, ?_⟩
      rw [lexeme_minus hhead, runLexeme_append _ _ '-' hall hrest]
  | mark hrest =>
    refine ⟨'@', [], rfl, by decide, ?_⟩
    rw [List.nil_append]
    unfold lexeme
    rw [if_neg (by decide), if_neg (by decide), if_neg (by decide), if_pos rfl]
    split
    · exact absurd rfl hrest
    · rfl
  | blockMark => exact ⟨'@', ['@'], rfl, by decide, rfl⟩
  | @punctuation c _ hkind rest =>
    refine ⟨c, [], rfl, ?_, lexeme_of_punctuation hkind rest⟩
    unfold punctuation? at hkind
    split at hkind <;> first | decide | cases hkind

/-- What follows a lexeme may break off at any place. -/
theorem IsLexeme.of_append (h : IsLexeme kind own (rest ++ more)) : IsLexeme kind own rest := by
  have hhead : ∀ d ∈ rest.head?, d ∈ (rest ++ more).head? := by
    cases rest with
    | nil => simp
    | cons d rest => exact fun _ h => h
  cases h with
  | newline => exact .newline rest
  | comment hslashes hink hblanks hline hrest =>
    exact .comment hslashes hink hblanks hline fun d hd => hrest d (hhead d hd)
  | quoted hinside => exact .quoted hinside rest
  | name hstart hall hrest => exact .name hstart hall fun d hd => hrest d (hhead d hd)
  | number hstart hall hrest => exact .number hstart hall fun d hd => hrest d (hhead d hd)
  | mark hrest => exact .mark fun h => hrest (hhead '@' h)
  | blockMark => exact .blockMark rest
  | punctuation hkind => exact .punctuation hkind rest

/-! ### Where no lexeme starts -/

/-- `fault.IsAt c rest` says what is wrong with the text `c :: rest`. -/
inductive LexicalFault.IsAt : LexicalFault → Char → List Char → Prop where
  /-- The character starts no lexeme, whatever follows it. -/
  | stray {c : Char} (hspacing : isSpacing c = false)
      (hnone : ∀ kind cs behind, ¬ IsLexeme kind (c :: cs) behind) (rest : List Char) :
      IsAt (.unexpected c) c rest
  /-- No slash follows a slash. -/
  | slash {rest : List Char} (hrest : rest.head? ≠ some '/') : IsAt (.unexpected '/') '/' rest
  /-- Neither a digit nor a dot follows a minus. -/
  | minus {rest : List Char} (hrest : ∀ d ∈ rest.head?, d.isDigit = false ∧ d ≠ '.') :
      IsAt (.unexpected '-') '-' rest
  /-- A quoted text opens and breaks off. -/
  | openQuote {inside value rest : List Char} (hinside : Resolves inside value)
      (hrest : BreaksOff rest) : IsAt .unterminatedString '"' (inside ++ rest)

/-- A character that starts a lexeme in front of some text is none of those that start none. -/
theorem IsLexeme.head_cases (h : IsLexeme kind (c :: cs) rest) :
    c = '\n' ∨ c = '/' ∨ c = '"' ∨ c = '@' ∨ c.isDigit = true ∨ c = '-' ∨
      startsName c = true ∨ (punctuation? c).isSome = true := by
  generalize hown : c :: cs = own at h
  cases h with
  | newline =>
    cases hown
    simp
  | comment hslashes =>
    obtain ⟨line, rfl⟩ := hslashes
    cases hown
    simp
  | quoted =>
    cases hown
    simp
  | name hstart =>
    cases hown
    simp [hstart]
  | number hstart =>
    cases hown
    rcases hstart with hstart | ⟨hstart, -⟩ <;> simp [hstart]
  | mark =>
    cases hown
    simp
  | blockMark =>
    cases hown
    simp
  | punctuation hkind =>
    cases hown
    simp [hkind]

/-- **Where no lexeme is read, the text says why.** -/
theorem isAt_of_lexeme_eq_error (hspacing : isSpacing c = false)
    (h : lexeme c rest = .error fault) : fault.IsAt c rest := by
  unfold lexeme at h
  split at h
  · cases h
  next hnewline =>
  split at h
  · next hslash =>
    split at h
    · cases h
    · next hrest =>
      cases h
      rw [hslash]
      refine .slash fun hhead => ?_
      obtain ⟨behind, rfl⟩ := List.head?_eq_some_iff.1 hhead
      exact hrest behind rfl
  next hslash =>
  split at h
  · next hquote =>
    split at h
    · cases h
    · next hsplit =>
      cases h
      obtain ⟨inside, value, behind, rfl, hinside, hbehind⟩ :=
        exists_breaksOff_of_splitQuoted hsplit
      rw [hquote]
      exact .openQuote hinside hbehind
  next hquote =>
  split at h
  · split at h <;> cases h
  next hat =>
  split at h
  · cases h
  next hdigit =>
  split at h
  · next hminus =>
    split at h
    · cases h
    · next hnext =>
      cases h
      rw [hminus]
      refine .minus fun d hd => ?_
      rw [Option.mem_def.1 hd] at hnext
      simpa [isNumberChar] using hnext
  next hminus =>
  split at h
  · cases h
  next hname =>
  split at h
  · cases h
  · next hkind =>
    cases h
    refine .stray hspacing (fun kind cs behind hlexeme => ?_) rest
    have hname' : ¬ startsName c = true := hname
    rcases hlexeme.head_cases with h | h | h | h | h | h | h | h <;> simp_all

end

end SchemaForge.Schema
