import SchemaForge.Proofs.Schema.Fault.Pending
import SchemaForge.Proofs.Schema.Reading.Document

/-!
# Readers stop where nothing can go on

Every reader of the grammar is compared with the part it reads: what stops the one stops the
other, at the same token.  A reader gives what follows, and the parts behind are read from there;
so every lemma has the parts `ps` that are read after the reader.

## Main definitions

* `stopAfter` — where reading stops, when a reader comes first and other parts behind it.

## Main results

* `run_value`, `run_list_eq` — values and the lists in brackets.
* `run_items` — the lines of blocks.
* `run_blocks` — **a whole row of tokens is at fault at the token where reading stops.**
-/

namespace SchemaForge.Schema

/-- Where reading stops when `r` was read and `next` says where reading on stops. -/
def stopAfter {α : Type} {n : Nat} (r : Except Fault (Parsed α n))
    (next : List TokenKind → Option Nat) : Option Nat :=
  match r with
  | .ok p => next p.rest
  | .error f => some f.remaining

section

variable {α β : Type} {n m : Nat} {p q : Pending} {ps : List Pending} {ts : List TokenKind}
  {next next' : List TokenKind → Option Nat} {r : Except Fault (Parsed α n)}

/-- A reader that goes on behind another stops where the other stops, or behind it. -/
theorem stopAfter_bind {f : Parsed α n → Except Fault (Parsed β m)}
    (h : ∀ a us hus, next' us = stopAfter (f ⟨a, us, hus⟩) next) :
    stopAfter r next' = stopAfter (r >>= f) next := by
  cases r with
  | error e => rfl
  | ok p => exact h p.value p.rest p.shorter

/-- What is made of a value that was read does not matter. -/
theorem stopAfter_bind_pure {b : Parsed α n → β} {hb : ∀ p : Parsed α n, p.rest.length < m} :
    stopAfter (r >>= fun p => pure ⟨b p, p.rest, hb p⟩) next = stopAfter r next :=
  (stopAfter_bind fun _ _ _ => rfl).symm

/-- Parts that do the same at the next token are read alike. -/
theorem run_congr (h : p.move ts.head? = q.move ts.head?) :
    run (p :: ps) ts = run (q :: ps) ts := by
  cases ts with
  | nil =>
    rw [List.head?_nil] at h
    rw [run, run, List.all_cons, List.all_cons, h]
  | cons t ts =>
    rw [List.head?_cons] at h
    simp only [run, take?, h]

end

/-! ### Lists in brackets -/

/-- The part that one element of a list is. -/
def Bracket.element : Bracket → Pending
  | round => .argument
  | square => .value

/-- Where reading stops in a list between brackets `b`, by one round: at the closing token it
ends; else `one` reads an element, and behind a comma the list goes on as `many` reads it. -/
def listRound {α : Type} (b : Bracket) (one : (ts : List TokenKind) → Result α ts)
    (many : (ts : List TokenKind) → Result (List α) ts) (next : List TokenKind → Option Nat)
    (ts : List TokenKind) : Option Nat :=
  if (skipNewlines ts).head? = some b.close then next (skipNewlines ts).tail
  else stopAfter (one (skipNewlines ts)) fun after =>
    if (skipNewlines after).head? = some .comma then
      stopAfter (many (skipNewlines after).tail) next
    else if (skipNewlines after).head? = some b.close then next (skipNewlines after).tail
    else some (skipNewlines after).length

section

variable {b : Bracket} {ps : List Pending} {ts : List TokenKind}

theorem run_list_skipNewlines :
    run (.list b :: ps) (skipNewlines ts) = run (.list b :: ps) ts := by
  fun_induction skipNewlines ts with
  | case1 ts ih => rw [ih, run_of_take (m := [.list b]) rfl, List.singleton_append]
  | case2 => rfl

theorem run_listNext_skipNewlines :
    run (.listNext b :: ps) (skipNewlines ts) = run (.listNext b :: ps) ts := by
  fun_induction skipNewlines ts with
  | case1 ts ih => rw [ih, run_of_take (m := [.listNext b]) rfl, List.singleton_append]
  | case2 => rfl

theorem skipNewlines_head?_ne (ts : List TokenKind) :
    (skipNewlines ts).head? ≠ some .newline := by
  fun_induction skipNewlines ts with
  | case1 ts ih => exact ih
  | case2 ts hne => exact Pending.head?_ne_of_ne_cons hne

theorem move_element_ne_skip (next : Option TokenKind) : b.element.move next ≠ .skip := by
  cases b <;> rcases next with _ | _ | _ <;> intro h <;> cases h

theorem run_list (hnewline : ts.head? ≠ some .newline) :
    run (.list b :: ps) ts =
      if ts.head? = some b.close then run ps ts.tail
      else run (b.element :: .listNext b :: ps) ts := by
  split
  · next hclose =>
    obtain ⟨us, rfl⟩ := List.head?_eq_some_iff.1 hclose
    exact run_of_take (m := []) (by cases b <;> rfl)
  · next hclose =>
    have hmove : (Pending.list b).move ts.head? =
        (b.element.move ts.head?).followedBy [.listNext b] := by
      rw [Pending.move, if_neg hnewline, if_neg hclose]
      cases b <;> rfl
    cases helement : b.element.move ts.head? with
    | skip => exact absurd helement (move_element_ne_skip _)
    | stop =>
      rw [helement] at hmove
      rw [run_of_stop hmove, run_of_stop helement]
    | take more =>
      rw [helement] at hmove
      cases ts with
      | nil => cases b <;> cases helement
      | cons t ts =>
        rw [run_of_take hmove, run_of_take helement, List.append_assoc, List.singleton_append]

theorem run_listNext (hnewline : ts.head? ≠ some .newline) :
    run (.listNext b :: ps) ts =
      if ts.head? = some .comma then run (.list b :: ps) ts.tail
      else if ts.head? = some b.close then run ps ts.tail
      else some ts.length := by
  split
  · next hcomma =>
    obtain ⟨us, rfl⟩ := List.head?_eq_some_iff.1 hcomma
    exact run_of_take (m := [.list b]) rfl
  · next hcomma =>
    have hmove : (Pending.listNext b).move ts.head? = Pending.moveToken b.close ts.head? := by
      rw [Pending.move, if_neg hnewline, if_neg hcomma]
    split
    · next hclose =>
      obtain ⟨us, rfl⟩ := List.head?_eq_some_iff.1 hclose
      exact run_of_take (hmove.trans (if_pos rfl))
    · next hclose => exact run_of_stop (hmove.trans (if_neg hclose))

/-- A list is read as it is by rounds, if its elements are read as their part. -/
theorem run_list_eq {α : Type} {one : (ts : List TokenKind) → Result α ts}
    {many : (ts : List TokenKind) → Result (List α) ts}
    (hround : ∀ next ts, stopAfter (many ts) next = listRound b one many next ts)
    (hone : ∀ us, us.length ≤ ts.length →
      ∀ ps, run (b.element :: ps) us = stopAfter (one us) (run ps)) :
    run (.list b :: ps) ts = stopAfter (many ts) (run ps) := by
  obtain ⟨n, hn⟩ : ∃ n, ts.length < n := ⟨_, Nat.lt_succ_self _⟩
  -- by induction on what is left, as a round consumes its element
  induction n generalizing ts with
  | zero => omega
  | succ n ih =>
    have hle := skipNewlines_length_le ts
    rw [hround, listRound, ← run_list_skipNewlines, run_list (skipNewlines_head?_ne ts)]
    split
    · rfl
    · rw [hone _ hle]
      cases one (skipNewlines ts) with
      | error f => rfl
      | ok p =>
        have hlt := p.shorter
        have hafter := skipNewlines_length_le p.rest
        rw [stopAfter, ← run_listNext_skipNewlines, run_listNext (skipNewlines_head?_ne _)]
        dsimp only [stopAfter]
        split
        · next hcomma =>
          obtain ⟨us, hus⟩ := List.head?_eq_some_iff.1 hcomma
          rw [hus, List.length_cons] at hafter
          rw [hus, List.tail_cons]
          exact ih (fun xs hxs => hone xs (by omega)) (by omega)
        · rfl

end

/-! ### Values and arguments -/

theorem stopAfter_readValues (next : List TokenKind → Option Nat) (ts : List TokenKind) :
    stopAfter (readValues ts) next = listRound .square readValue readValues next ts := by
  rw [readValues, listRound, Bracket.close]
  split
  · next us hn => simp only [hn]; rfl
  · next hclose =>
    rw [if_neg (Pending.head?_ne_of_ne_cons hclose)]
    refine (stopAfter_bind fun v after _ => Eq.symm ?_).symm
    -- behind an element stands a comma, the token that closes, or neither
    dsimp only
    split
    · next us hm =>
      simp only [hm, List.head?_cons, List.tail_cons, if_true]
      refine stopAfter_bind_pure.trans ?_
      rw [hm, List.tail_cons]
    · next us hm =>
      simp only [hm]
      rfl
    · next hcomma hclose =>
      rw [if_neg (Pending.head?_ne_of_ne_cons hcomma), if_neg (Pending.head?_ne_of_ne_cons hclose)]
      rfl

theorem stopAfter_readArguments (next : List TokenKind → Option Nat) (ts : List TokenKind) :
    stopAfter (readArguments ts) next = listRound .round readArgument readArguments next ts := by
  rw [readArguments, listRound, Bracket.close]
  split
  · next us hn => simp only [hn]; rfl
  · next hclose =>
    rw [if_neg (Pending.head?_ne_of_ne_cons hclose)]
    refine (stopAfter_bind fun a after _ => Eq.symm ?_).symm
    -- behind an argument stands a comma, the token that closes, or neither
    dsimp only
    split
    · next us hm =>
      simp only [hm, List.head?_cons, List.tail_cons, if_true]
      refine stopAfter_bind_pure.trans ?_
      rw [hm, List.tail_cons]
    · next us hm =>
      simp only [hm]
      rfl
    · next hcomma hclose =>
      rw [if_neg (Pending.head?_ne_of_ne_cons hcomma), if_neg (Pending.head?_ne_of_ne_cons hclose)]
      rfl

/-- An argument without a name is read as a value. -/
theorem run_argument_positional {ts : List TokenKind} (ps : List Pending)
    (h : ∀ name us, ts ≠ .ident name :: .colon :: us) :
    run (.argument :: ps) ts = run (.value :: ps) ts := by
  rcases ts with _ | ⟨t, us⟩
  · exact run_congr rfl
  · cases t with
    | ident name =>
      rw [run_of_take (p := .argument) (m := [.argumentMark]) rfl]
      rw [run_of_take (p := .value) (m := [.arguments]) rfl]
      rcases us with _ | ⟨t, us⟩
      · exact run_congr rfl
      · cases t with
        | colon => exact absurd rfl (h name us)
        | _ => exact run_congr rfl
    | _ => exact run_congr rfl

/-- An argument is read as its part, if the value in it is. -/
theorem run_argument {ts : List TokenKind} (ps : List Pending)
    (hvalue : ∀ us, us.length ≤ ts.length →
      run (.value :: ps) us = stopAfter (readValue us) (run ps)) :
    run (.argument :: ps) ts = stopAfter (readArgument ts) (run ps) := by
  by_cases hnamed : ∃ name us, ts = .ident name :: .colon :: us
  · obtain ⟨name, us, rfl⟩ := hnamed
    rw [readArgument, stopAfter_bind_pure, run_of_take (m := [.argumentMark]) rfl]
    rw [List.singleton_append, run_of_take (m := [.value]) rfl]
    exact hvalue us (by simp only [List.length_cons]; omega)
  · simp only [not_exists] at hnamed
    rw [readArgument, stopAfter_bind_pure, ← hvalue ts (Nat.le_refl _)]
    · exact run_argument_positional ps hnamed
    · exact hnamed

/-- A value is read as its part. -/
theorem run_value (ps : List Pending) (ts : List TokenKind) :
    run (.value :: ps) ts = stopAfter (readValue ts) (run ps) := by
  obtain ⟨n, hn⟩ : ∃ n, ts.length < n := ⟨_, Nat.lt_succ_self _⟩
  induction n generalizing ps ts with
  | zero => omega
  | succ n ih =>
    rw [readValue.eq_def]
    split
    · exact run_of_take (m := []) rfl
    · exact run_of_take (m := []) rfl
    · next us =>
      rw [List.length_cons] at hn
      rw [stopAfter_bind_pure, run_of_take (m := [.list .square]) rfl, List.singleton_append]
      exact run_list_eq stopAfter_readValues fun us hus ps => ih ps us (by omega)
    · next name us =>
      simp only [List.length_cons] at hn
      rw [stopAfter_bind_pure, run_of_take (m := [.arguments]) rfl, List.singleton_append]
      rw [run_of_take (m := [.list .round]) rfl, List.singleton_append]
      refine run_list_eq stopAfter_readArguments fun us hus ps => ?_
      exact run_argument ps fun xs hxs => ih ps xs (by omega)
    · next name us hparen =>
      rw [run_of_take (m := [.arguments]) rfl, List.singleton_append, run_of_skip]
      · rfl
      · exact Pending.moveOptional_of_ne hparen
    · next hstr hnumber hbracket hcall hname =>
      refine run_of_stop ?_
      rcases ts with _ | ⟨t, us⟩
      · rfl
      · cases t with
        | str s => exact absurd rfl (hstr s us)
        | number s => exact absurd rfl (hnumber s us)
        | lbracket => exact absurd rfl (hbracket us)
        | ident name => exact absurd rfl (hname name us)
        | _ => rfl

/-- Arguments in parentheses are read as their part. -/
theorem run_arguments (ps : List Pending) (ts : List TokenKind) :
    run (.list .round :: ps) ts = stopAfter (readArguments ts) (run ps) :=
  run_list_eq stopAfter_readArguments fun _ _ ps => run_argument ps fun us _ => run_value ps us

/-! ### Attributes and the ends of lines -/

theorem run_name (ps : List Pending) (ts : List TokenKind) :
    run (.name :: ps) ts = stopAfter (readName ts) (run ps) := by
  rw [readName.eq_def]
  split
  · exact run_of_take (m := []) rfl
  · next hname =>
    refine run_of_stop ?_
    rcases ts with _ | ⟨t, us⟩
    · rfl
    · cases t with
      | ident name => exact absurd rfl (hname name us)
      | _ => rfl

theorem run_dots (ps : List Pending) (front : String) (ts : List TokenKind) :
    run (.dots :: ps) ts = stopAfter (readDottedName front ts) (run ps) := by
  fun_induction readDottedName front ts with
  | case1 front us ih =>
    rw [run_of_take (m := [.name, .dots]) rfl, List.cons_append, List.singleton_append, run_name]
    refine stopAfter_bind fun part after hafter => ?_
    rw [stopAfter_bind_pure]
    exact ih part after hafter
  | case2 front ts hdot => exact run_of_skip (Pending.moveOptional_of_ne hdot)

theorem run_attribute (ps : List Pending) (ts : List TokenKind) :
    run (Pending.attributeParts ++ ps) ts = stopAfter (readAttribute ts) (run ps) := by
  rw [Pending.attributeParts, List.cons_append, List.cons_append, List.singleton_append, run_name,
    readAttribute]
  refine stopAfter_bind fun first after _ => ?_
  rw [run_dots _ first]
  refine stopAfter_bind fun name after _ => ?_
  dsimp only
  split
  · rw [stopAfter_bind_pure, ← run_arguments]
    exact run_of_take (m := [.list .round]) rfl
  · next hparen => exact run_of_skip (p := .arguments) (Pending.moveOptional_of_ne hparen)

theorem run_attributes (ps : List Pending) (ts : List TokenKind) :
    run (.attributes :: ps) ts = stopAfter (readAttributes ts) (run ps) := by
  fun_induction readAttributes ts with
  | case1 us ih =>
    rw [run_of_take (m := Pending.attributeParts ++ [.attributes]) rfl, List.append_assoc,
      run_attribute]
    refine stopAfter_bind fun a after hafter => ?_
    rw [stopAfter_bind_pure]
    exact ih after hafter
  | case2 ts hat => exact run_of_skip (Pending.moveOptional_of_ne hat)

theorem run_lineEnd (ps : List Pending) (ts : List TokenKind) :
    run (.lineEnd :: ps) ts = stopAfter (readLineEnd ts) (run ps) := by
  rw [readLineEnd.eq_def]
  split
  · exact run_of_take (m := []) rfl
  · exact run_of_skip rfl
  · exact run_of_skip rfl
  · next hnewline hbrace hend =>
    refine run_of_stop ?_
    rcases ts with _ | ⟨t, us⟩
    · exact absurd rfl hend
    · cases t with
      | newline => exact absurd rfl (hnewline us)
      | rbrace => exact absurd rfl (hbrace us)
      | _ => rfl

theorem run_commentedEnd (ps : List Pending) (ts : List TokenKind) :
    run (.comment :: .lineEnd :: ps) ts = stopAfter (readCommentedEnd ts) (run ps) := by
  rw [readCommentedEnd.eq_def]
  split
  · rw [stopAfter_bind_pure, ← run_lineEnd]
    exact run_of_take (m := []) rfl
  · next hcomment =>
    rw [stopAfter_bind_pure, ← run_lineEnd]
    refine run_of_skip ?_
    rcases ts with _ | ⟨t, us⟩
    · rfl
    · cases t with
      | comment text => exact absurd rfl (hcomment text us)
      | _ => rfl

/-! ### Lines of blocks -/

/-- The type of the database is read as its parts behind the name in front of it. -/
theorem run_nativeType (ps : List Pending) (us : List TokenKind) :
    run (.nativeType :: ps) us =
      stopAfter (readFieldType (.ident unsupportedName :: us)) (run ps) := by
  rcases us with _ | ⟨t, us⟩
  · exact run_of_skip rfl
  cases t with
  | lparen =>
    rw [run_of_take (m := [.quoted, .closing .round]) rfl]
    rcases us with _ | ⟨t, us⟩
    · exact run_of_stop rfl
    cases t with
    | str native =>
      rw [List.cons_append, run_of_take (m := []) rfl]
      rcases us with _ | ⟨t, us⟩
      · exact run_of_stop rfl
      cases t with
      | rparen => exact run_of_take (m := []) rfl
      | _ => exact run_of_stop rfl
    | _ => exact run_of_stop rfl
  | _ => exact run_of_skip rfl

theorem run_fieldType (ps : List Pending) (ts : List TokenKind) :
    run (.fieldType :: ps) ts = stopAfter (readFieldType ts) (run ps) := by
  rcases ts with _ | ⟨t, us⟩
  · rfl
  cases t with
  | ident name =>
    rw [run_of_take (m := if name = unsupportedName then [.nativeType] else []) rfl]
    by_cases hname : name = unsupportedName
    · rw [if_pos hname, hname]
      exact run_nativeType ps us
    · rw [if_neg hname, readFieldType]
      dsimp only [readName, bind, Except.bind]
      split
      · rw [if_neg hname]
        rfl
      · rfl
  | _ => rfl

theorem run_modifier (ps : List Pending) (ts : List TokenKind) :
    run (.modifier :: ps) ts = stopAfter (readModifier ts) (run ps) := by
  rw [readModifier.eq_def]
  split
  · exact run_of_take (m := []) rfl
  · rw [run_of_take (m := [.closing .square]) rfl]
    exact run_of_take (m := []) rfl
  · next us hclose =>
    rw [run_of_take (m := [.closing .square]) rfl]
    exact run_of_stop (Pending.moveToken_of_ne hclose)
  · next hquestion hlist hbracket =>
    refine run_of_skip ?_
    rcases ts with _ | ⟨t, us⟩
    · rfl
    · cases t with
      | question => exact absurd rfl (hquestion us)
      | lbracket => exact absurd rfl (hbracket us)
      | _ => rfl

/-- The entries of a block of a kind are read, from the name on, as `entry` reads them. -/
def ReadsParts {ε : Type} (kind : LineKind) (entry : (ts : List TokenKind) → Result ε ts) : Prop :=
  ∀ ps ts, run (.name :: (Pending.entry kind ++ ps)) ts = stopAfter (entry ts) (run ps)

theorem readsParts_readField : ReadsParts .field readField := by
  intro ps ts
  rw [run_name, readField]
  refine stopAfter_bind fun _ ts₁ _ => ?_
  refine (run_fieldType _ ts₁).trans (stopAfter_bind fun _ ts₂ _ => ?_)
  refine (run_modifier _ ts₂).trans (stopAfter_bind fun _ ts₃ _ => ?_)
  refine (run_attributes _ ts₃).trans (stopAfter_bind fun _ ts₄ _ => ?_)
  exact (run_commentedEnd ps ts₄).trans stopAfter_bind_pure.symm

theorem readsParts_readEnumValue : ReadsParts .enumValue readEnumValue := by
  intro ps ts
  rw [run_name, readEnumValue]
  refine stopAfter_bind fun _ ts₁ _ => ?_
  refine (run_attributes _ ts₁).trans (stopAfter_bind fun _ ts₂ _ => ?_)
  exact (run_commentedEnd ps ts₂).trans stopAfter_bind_pure.symm

theorem readsParts_readSetting : ReadsParts .setting readSetting := by
  intro ps ts
  rw [run_name, readSetting]
  refine stopAfter_bind fun _ ts₁ _ => ?_
  dsimp only
  split
  · next ts₂ _ =>
    refine (run_of_take (m := []) rfl).trans ?_
    refine (run_value _ ts₂).trans (stopAfter_bind fun _ ts₃ _ => ?_)
    exact (run_commentedEnd ps ts₃).trans stopAfter_bind_pure.symm
  · next hequals => exact run_of_stop (p := .equals) (Pending.moveToken_of_ne hequals)

/-! ### Blocks -/

/-- The rules of a block against the kind of its lines. -/
structure ItemRules.Follow {ε α : Type} (rules : ItemRules ε α) (kind : LineKind) : Prop where
  /-- Entries are read as their parts. -/
  entry : ReadsParts kind rules.entry
  /-- The block has attributes unless its lines are settings. -/
  blockAttribute : rules.blockAttribute = none ↔ kind = .setting

theorem modelRules_follow : modelRules.Follow .field :=
  ⟨readsParts_readField, by simp [modelRules]⟩

theorem enumRules_follow : enumRules.Follow .enumValue :=
  ⟨readsParts_readEnumValue, by simp [enumRules]⟩

theorem settingsRules_follow : settingsRules.Follow .setting :=
  ⟨readsParts_readSetting, by simp [settingsRules]⟩

section

variable {ε α : Type} {rules : ItemRules ε α} {kind : LineKind}

/-- The lines of a block are read as their part. -/
theorem run_items (hrules : rules.Follow kind) (ps : List Pending) (ts : List TokenKind) :
    run (.items kind :: ps) ts = stopAfter (readItems rules ts) (run ps) := by
  obtain ⟨n, hn⟩ : ∃ n, ts.length < n := ⟨_, Nat.lt_succ_self _⟩
  -- by induction on what is left; every line consumes a token
  induction n generalizing ts with
  | zero => omega
  | succ n ih =>
    rw [readItems.eq_def]
    split
    · exact run_of_take (m := []) rfl
    · next us =>
      rw [List.length_cons] at hn
      rw [stopAfter_bind_pure, ← ih us (by omega)]
      exact run_of_take (m := [.items kind]) rfl
    · next text us =>
      rw [List.length_cons] at hn
      rw [stopAfter_bind_pure, ← ih us (by omega)]
      exact run_of_take (m := [.items kind]) rfl
    · next name us =>
      rw [run_of_take (m := Pending.entry kind ++ [.items kind]) rfl, List.append_assoc]
      have hentry := hrules.entry (.items kind :: ps) (.ident name :: us)
      rw [run_of_take (m := []) rfl] at hentry
      refine hentry.trans (stopAfter_bind fun _ after hafter => ?_)
      exact (ih after (by omega)).trans stopAfter_bind_pure.symm
    · next us =>
      rw [List.length_cons] at hn
      split
      · next hnone =>
        refine run_of_stop ?_
        exact if_pos (hrules.blockAttribute.1 hnone)
      · next wrap hwrap =>
        have hkind : kind ≠ .setting := by
          intro hkind
          rw [hrules.blockAttribute.2 hkind] at hwrap
          cases hwrap
        have hmove : (Pending.items kind).move (some .atAt) =
            .take (Pending.attributeParts ++ [.comment, .lineEnd, .items kind]) := if_neg hkind
        rw [run_of_take hmove, List.append_assoc, run_attribute]
        refine stopAfter_bind fun _ ts₁ _ => ?_
        refine (run_commentedEnd _ ts₁).trans (stopAfter_bind fun _ ts₂ _ => ?_)
        exact (ih ts₂ (by omega)).trans stopAfter_bind_pure.symm
    · next hbrace hnewline hcomment hname hat =>
      refine run_of_stop ?_
      rcases ts with _ | ⟨t, us⟩
      · rfl
      · cases t with
        | rbrace => exact absurd rfl (hbrace us)
        | newline => exact absurd rfl (hnewline us)
        | comment text => exact absurd rfl (hcomment text us)
        | ident name => exact absurd rfl (hname name us)
        | atAt => exact absurd rfl (hat us)
        | _ => rfl

/-- A named block is read as its parts. -/
theorem run_named (hrules : rules.Follow kind) (ps : List Pending) (ts : List TokenKind) :
    run (.name :: .opening :: .items kind :: ps) ts = stopAfter (readNamed rules ts) (run ps) := by
  rw [run_name, readNamed]
  refine stopAfter_bind fun _ after _ => ?_
  dsimp only
  split
  · rw [stopAfter_bind_pure, ← run_items hrules]
    exact run_of_take (m := []) rfl
  · next hbrace => exact run_of_stop (p := .opening) (Pending.moveToken_of_ne hbrace)

/-- A named block is read as its parts under a constructor of blocks. -/
theorem run_wrapped (hrules : rules.Follow kind) (wrap : Named ε α → Block) (ps : List Pending)
    (ts : List TokenKind) :
    run (.name :: .opening :: .items kind :: ps) ts =
      stopAfter
        (do let ⟨b, rest, h⟩ ← readNamed rules ts; return ⟨wrap b, rest, h⟩ : Result Block ts)
        (run ps) :=
  (run_named hrules ps ts).trans stopAfter_bind_pure.symm

end

/-- A keyword opens a block of lines of some kind, or none. -/
theorem readBlockAfter_cases (keyword : String) (ts : List TokenKind) :
    (readBlockAfter keyword ts = none ∧ lineKind? keyword = none) ∨
      ∃ r kind, readBlockAfter keyword ts = some r ∧ lineKind? keyword = some kind ∧
        ∀ ps, run (.name :: .opening :: .items kind :: ps) ts = stopAfter r (run ps) := by
  rw [readBlockAfter.eq_def]
  split
  · exact .inr ⟨_, _, rfl, rfl, fun ps => run_wrapped modelRules_follow (.model .model) ps ts⟩
  · exact .inr ⟨_, _, rfl, rfl, fun ps => run_wrapped modelRules_follow (.model .composite) ps ts⟩
  · exact .inr ⟨_, _, rfl, rfl, fun ps => run_wrapped modelRules_follow (.model .view) ps ts⟩
  · exact .inr ⟨_, _, rfl, rfl, fun ps => run_wrapped enumRules_follow .enumeration ps ts⟩
  · exact .inr ⟨_, _, rfl, rfl,
      fun ps => run_wrapped settingsRules_follow (.settings .datasource) ps ts⟩
  · exact .inr ⟨_, _, rfl, rfl,
      fun ps => run_wrapped settingsRules_follow (.settings .generator) ps ts⟩
  · -- the six keywords are those of the two tables alike
    have hkind : lineKind? keyword = none := by simp [lineKind?]
    exact .inl ⟨rfl, hkind⟩

/-- Where a reader of whole schemas found its fault. -/
def faultPlace {α : Type} : Except Fault α → Option Nat
  | .ok _ => none
  | .error f => some f.remaining

@[simp] theorem faultPlace_bind_pure {α β : Type} (r : Except Fault α) (f : α → β) :
    faultPlace (r >>= fun a => pure (f a)) = faultPlace r := by
  cases r <;> rfl

/-- **A whole row of tokens is at fault at the token where reading stops.** -/
theorem run_blocks (ts : List TokenKind) : run [] ts = faultPlace (readBlocks ts) := by
  obtain ⟨n, hn⟩ : ∃ n, ts.length < n := ⟨_, Nat.lt_succ_self _⟩
  induction n generalizing ts with
  | zero => omega
  | succ n ih =>
    rw [readBlocks.eq_def]
    split
    · rfl
    · next us =>
      rw [List.length_cons] at hn
      exact ih us (by omega)
    · next text us =>
      rw [List.length_cons] at hn
      rw [faultPlace_bind_pure]
      exact ih us (by omega)
    · next keyword us =>
      rw [List.length_cons] at hn
      rcases readBlockAfter_cases keyword us with ⟨hnone, hkind⟩ | ⟨r, kind, hr, hkind, hrun⟩
      · rw [hnone, run, take?, takeOuter, hkind]
        rfl
      · rw [hr, run, take?, takeOuter, hkind]
        refine (hrun []).trans ?_
        cases r with
        | error f => rfl
        | ok p =>
          have hlt := p.shorter
          exact (ih p.rest (by omega)).trans (faultPlace_bind_pure _ _).symm
    · next hend hnewline hcomment hname =>
      rcases ts with _ | ⟨t, us⟩
      · exact absurd rfl hend
      · cases t with
        | newline => exact absurd rfl (hnewline us)
        | comment text => exact absurd rfl (hcomment text us)
        | ident keyword => exact absurd rfl (hname keyword us)
        | _ => rfl

end SchemaForge.Schema
