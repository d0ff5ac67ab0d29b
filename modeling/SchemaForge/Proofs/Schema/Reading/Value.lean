import SchemaForge.Proofs.Schema.Derivation

/-!
# Reading values

The readers of values and arguments read exactly what the grammar derives, with the tree of the
derivation.  `Yields` forgets that what is left is shorter, so that a reader can be compared with
a relation on tokens.

A reader is greedy where the grammar is free, so reading a derivation asks that what follows it
does not extend it (`Unextended`).

## Main definitions

* `Yields` — what a reader gives, and what follows it.
* `ListRound` — one round of a reader of comma lists.
* `Unextended` — the next token belongs to no value, argument or attribute in front of it.

## Main results

* `exists_commaList_of_yields`, `yields_of_commaList` — comma lists, whatever their elements.
* `exists_isValue_of_yields`, `IsValue.yields` — values.
-/

namespace SchemaForge.Schema


/-! ### What a reader gives -/

/-- `Yields r a rest` says the outcome `r` is `a`, with the tokens `rest` behind it. -/
def Yields {α : Type} {n : Nat} (r : Except Fault (Parsed α n)) (a : α)
    (rest : List TokenKind) : Prop :=
  ∃ h, r = .ok ⟨a, rest, h⟩

section

variable {α β : Type} {n m : Nat} {a b : α} {us rest : List TokenKind}

theorem Yields.length_lt {r : Except Fault (Parsed α n)} (h : Yields r a rest) :
    rest.length < n := h.1

@[simp] theorem yields_ok {h : us.length < n} :
    Yields (.ok ⟨b, us, h⟩ : Except Fault (Parsed α n)) a rest ↔ b = a ∧ us = rest := by
  constructor
  · rintro ⟨_, h⟩
    cases h
    exact ⟨rfl, rfl⟩
  · rintro ⟨rfl, rfl⟩
    exact ⟨h, rfl⟩

@[simp] theorem yields_pure {h : us.length < n} :
    Yields (pure ⟨b, us, h⟩ : Except Fault (Parsed α n)) a rest ↔ b = a ∧ us = rest :=
  yields_ok

@[simp] theorem not_yields_error {f : Fault} :
    ¬ Yields (.error f : Except Fault (Parsed α n)) a rest := by
  rintro ⟨_, h⟩
  cases h

@[simp] theorem not_yields_throw {f : Fault} :
    ¬ Yields (throw f : Except Fault (Parsed α n)) a rest :=
  not_yields_error

/-- Two steps give something when the second does with what the first gives. -/
theorem yields_bind {r : Except Fault (Parsed α n)}
    {f : Parsed α n → Except Fault (Parsed β m)} {b : β} :
    Yields (r >>= f) b rest ↔
      ∃ a us, ∃ h : us.length < n, Yields r a us ∧ Yields (f ⟨a, us, h⟩) b rest := by
  cases r with
  | error e =>
    constructor
    · intro h
      exact absurd h not_yields_error
    · rintro ⟨_, _, _, h, _⟩
      exact absurd h not_yields_error
  | ok p =>
    obtain ⟨a, us, h⟩ := p
    constructor
    · intro hf
      exact ⟨a, us, h, yields_ok.2 ⟨rfl, rfl⟩, hf⟩
    · rintro ⟨a', us', h', hp, hf⟩
      obtain ⟨rfl, rfl⟩ := yields_ok.1 hp
      exact hf

/-- A reader goes on behind what another has read. -/
theorem Yields.bind {r : Except Fault (Parsed α n)} {f : Parsed α n → Except Fault (Parsed β m)}
    {a : α} {b : β} {us : List TokenKind} (h : Yields r a us)
    (hf : Yields (f ⟨a, us, h.length_lt⟩) b rest) : Yields (r >>= f) b rest :=
  yields_bind.2 ⟨a, us, h.length_lt, h, hf⟩

end

/-! ### Line ends inside brackets -/

@[simp] theorem skipNewlines_newlines_append (n : Nat) (ts : List TokenKind) :
    skipNewlines (newlines n ++ ts) = skipNewlines ts := by
  induction n with
  | zero => rfl
  | succ n ih => simpa [List.replicate_succ, skipNewlines] using ih

theorem skipNewlines_of_head_ne {t : TokenKind} (h : t ≠ .newline) (ts : List TokenKind) :
    skipNewlines (t :: ts) = t :: ts := by
  rw [skipNewlines]
  rintro us ⟨⟩
  exact h rfl

/-- What is skipped is a row of line ends. -/
theorem exists_newlines_append_skipNewlines (ts : List TokenKind) :
    ∃ n, ts = newlines n ++ skipNewlines ts := by
  fun_induction skipNewlines ts with
  | case1 ts ih =>
    obtain ⟨n, hn⟩ := ih
    exact ⟨n + 1, by rw [newlines, List.replicate_succ, List.cons_append, ← hn]⟩
  | case2 ts _ => exact ⟨0, rfl⟩

/-! ### Lists with commas -/

section

variable {α : Type}

/-- One round of a reader of comma lists: at the closing token `close` it ends; else it reads an
element with `one`, and behind a comma the list goes on as `many` reads it. -/
def ListRound (close : TokenKind) (one : (ts : List TokenKind) → Result α ts)
    (many : (ts : List TokenKind) → Result (List α) ts) (ts : List TokenKind) (as : List α)
    (rest : List TokenKind) : Prop :=
  (as = [] ∧ skipNewlines ts = close :: rest) ∨
    ∃ a after, (∀ us, skipNewlines ts ≠ close :: us) ∧ Yields (one (skipNewlines ts)) a after ∧
      ((as = [a] ∧ skipNewlines after = close :: rest) ∨
        ∃ behind as', as = a :: as' ∧ skipNewlines after = .comma :: behind ∧
          Yields (many behind) as' rest)

variable {P : List TokenKind → α → Prop} {close : TokenKind}
  {one : (ts : List TokenKind) → Result α ts} {many : (ts : List TokenKind) → Result (List α) ts}

/-- A reader that goes by rounds reads only comma lists, if it reads only elements. -/
theorem exists_commaList_of_yields
    (hround : ∀ {ts as rest}, Yields (many ts) as rest → ListRound close one many ts as rest)
    {ts rest : List TokenKind} {as : List α}
    (hone : ∀ us a rest, us.length ≤ ts.length → Yields (one us) a rest →
      ∃ xs, us = xs ++ rest ∧ P xs a)
    (h : Yields (many ts) as rest) :
    ∃ us, ts = us ++ close :: rest ∧ CommaList P us as := by
  induction hn : ts.length using Nat.strongRecOn generalizing ts as with
  | ind n ih =>
    -- by induction on what is left, as a round consumes its element
    obtain ⟨m, hm⟩ := exists_newlines_append_skipNewlines ts
    rcases hround h with ⟨rfl, hs⟩ | ⟨a, after, -, ha, hrest⟩
    · exact ⟨newlines m, by rw [← hs]; exact hm, .empty m⟩
    · have hle := skipNewlines_length_le ts
      obtain ⟨xs, hxs, hp⟩ := hone _ _ _ hle ha
      obtain ⟨k, hk⟩ := exists_newlines_append_skipNewlines after
      rcases hrest with ⟨rfl, hs⟩ | ⟨behind, as', rfl, hs, hmany⟩
      · refine ⟨newlines m ++ xs ++ newlines k, ?_, .single m k hp⟩
        rw [hm, hxs, hk, hs]
        simp only [List.append_assoc]
      · have hlt := ha.length_lt
        have hbehind := skipNewlines_length_le after
        rw [hs, List.length_cons] at hbehind
        obtain ⟨us, hus, hlist⟩ := ih behind.length (by omega)
          (fun us a rest hlen => hone us a rest (by omega)) hmany rfl
        refine ⟨newlines m ++ xs ++ (newlines k ++ .comma :: us), ?_, hlist.cons m k hp⟩
        rw [hm, hxs, hk, hs, hus]
        simp only [List.append_assoc, List.cons_append]

/-- What may not follow a value, an argument or an attribute without belonging to it. -/
def TokenKind.extends : TokenKind → Bool
  | .lparen => true
  | .colon => true
  | .dot => true
  | _ => false

/-- The next token, if there is one, does not extend what was read in front of it. -/
def Unextended (rest : List TokenKind) : Prop :=
  ∀ t ∈ rest.head?, t.extends = false

@[simp] theorem unextended_nil : Unextended [] := by
  intro t h
  cases h

@[simp] theorem unextended_cons {t : TokenKind} {ts : List TokenKind} :
    Unextended (t :: ts) ↔ t.extends = false := by
  simp [Unextended]

theorem unextended_newlines_append (n : Nat) {ts : List TokenKind} (h : Unextended ts) :
    Unextended (newlines n ++ ts) := by
  cases n with
  | zero => exact h
  | succ n => simp [List.replicate_succ, TokenKind.extends]

theorem Unextended.ne_cons {rest ts : List TokenKind} (h : Unextended rest) {t : TokenKind}
    (ht : t.extends = true) : rest ≠ t :: ts := by
  rintro rfl
  rw [unextended_cons, ht] at h
  cases h

/-- A reader that goes by rounds reads every comma list, if it reads every element that is not
extended. -/
theorem yields_of_commaList
    (hround : ∀ {ts as rest}, ListRound close one many ts as rest → Yields (many ts) as rest)
    (hclose : close.startsValue = false ∧ close.extends = false ∧ close ≠ .newline)
    (hhead : ∀ us a, P us a → ∃ t us', us = t :: us' ∧ t.startsValue = true)
    {ts : List TokenKind} {as : List α} (h : CommaList P ts as)
    (hone : ∀ us a, P us a → ∀ rest, Unextended rest → Yields (one (us ++ rest)) a rest)
    (rest : List TokenKind) : Yields (many (ts ++ close :: rest)) as rest := by
  obtain ⟨hstart, hext, hnewline⟩ := hclose
  -- a reader skips to the element, and no further
  have hskip : ∀ us a, P us a → ∀ m xs, skipNewlines (newlines m ++ us ++ xs) = us ++ xs ∧
      ∀ ys, us ++ xs ≠ close :: ys := by
    intro us a hp m xs
    obtain ⟨t, us', rfl, ht⟩ := hhead us a hp
    have hne : t ≠ .newline ∧ t ≠ close := by
      constructor <;> rintro rfl
      · cases ht
      · rw [hstart] at ht; cases ht
    rw [List.append_assoc, skipNewlines_newlines_append]
    refine ⟨skipNewlines_of_head_ne hne.1 _, ?_⟩
    rintro ys ⟨⟩
    exact hne.2 rfl
  induction h using CommaList.readInduction generalizing rest with
  | empty n =>
    refine hround (.inl ⟨rfl, ?_⟩)
    rw [skipNewlines_newlines_append, skipNewlines_of_head_ne hnewline]
  | single m n us a hp =>
    obtain ⟨hs, hne⟩ := hskip us a hp m (newlines n ++ close :: rest)
    have hs : skipNewlines (newlines m ++ us ++ newlines n ++ close :: rest) =
        us ++ (newlines n ++ close :: rest) := by rw [← hs, List.append_assoc]
    refine hround (.inr ⟨a, newlines n ++ close :: rest, ?_, ?_, .inl ⟨rfl, ?_⟩⟩)
    · rwa [hs]
    · rw [hs]
      exact hone us a hp _ (unextended_newlines_append n (unextended_cons.2 hext))
    · rw [skipNewlines_newlines_append, skipNewlines_of_head_ne hnewline]
  | cons m n us a ts as hp _ ih =>
    obtain ⟨hs, hne⟩ := hskip us a hp m (newlines n ++ .comma :: (ts ++ close :: rest))
    have hs : skipNewlines (newlines m ++ us ++ (newlines n ++ .comma :: ts) ++ close :: rest) =
        us ++ (newlines n ++ .comma :: (ts ++ close :: rest)) := by
      rw [← hs]
      simp only [List.append_assoc, List.cons_append]
    -- a comma follows the element, and the rest of the list the comma
    refine hround (.inr ⟨a, newlines n ++ .comma :: (ts ++ close :: rest), ?_, ?_,
      .inr ⟨ts ++ close :: rest, as, rfl, ?_, ih rest⟩⟩)
    · rwa [hs]
    · rw [hs]
      exact hone us a hp _ (unextended_newlines_append n (unextended_cons.2 rfl))
    · rw [skipNewlines_newlines_append, skipNewlines_of_head_ne (by decide)]

end

/-! ### Values and arguments -/

theorem yields_readValues {ts rest : List TokenKind} {vs : List Value} :
    Yields (readValues ts) vs rest ↔ ListRound .rbracket readValue readValues ts vs rest := by
  rw [readValues, ListRound]
  split
  · next us hn => simp [hn, eq_comm]
  · next hne =>
    simp only [yields_bind]
    constructor
    -- behind an element stands a comma, the token that closes, or neither
    · rintro ⟨v, after, _, hv, hr⟩
      split at hr
      · next behind hm =>
        obtain ⟨vs', _, _, hvs, hr⟩ := yields_bind.1 hr
        obtain ⟨rfl, rfl⟩ := yields_pure.1 hr
        exact .inr ⟨v, after, hne, hv, .inr ⟨behind, vs', rfl, hm, hvs⟩⟩
      · next behind hm =>
        obtain ⟨rfl, rfl⟩ := yields_pure.1 hr
        exact .inr ⟨v, after, hne, hv, .inl ⟨rfl, hm⟩⟩
      · exact absurd hr not_yields_throw
    · rintro (⟨rfl, hs⟩ | ⟨v, after, _, hv, hr⟩)
      · exact absurd hs (hne rest)
      · refine ⟨v, after, hv.length_lt, hv, ?_⟩
        rcases hr with ⟨rfl, hs⟩ | ⟨behind, vs', rfl, hs, hvs⟩ <;> split
        · next hm => rw [hs] at hm; cases hm
        · next hm => rw [hs] at hm; cases hm; exact yields_pure.2 ⟨rfl, rfl⟩
        · next hne => exact absurd hs (hne rest)
        · next hm =>
          rw [hs] at hm
          cases hm
          exact hvs.bind (yields_pure.2 ⟨rfl, rfl⟩)
        · next hm => rw [hs] at hm; cases hm
        · next hne _ => exact absurd hs (hne behind)

theorem yields_readArguments {ts rest : List TokenKind} {args : List (Argument Value)} :
    Yields (readArguments ts) args rest ↔
      ListRound .rparen readArgument readArguments ts args rest := by
  rw [readArguments, ListRound]
  split
  · next us hn => simp [hn, eq_comm]
  · next hne =>
    simp only [yields_bind]
    constructor
    -- behind an argument stands a comma, the token that closes, or neither
    · rintro ⟨a, after, _, ha, hr⟩
      split at hr
      · next behind hm =>
        obtain ⟨as, _, _, has, hr⟩ := yields_bind.1 hr
        obtain ⟨rfl, rfl⟩ := yields_pure.1 hr
        exact .inr ⟨a, after, hne, ha, .inr ⟨behind, as, rfl, hm, has⟩⟩
      · next behind hm =>
        obtain ⟨rfl, rfl⟩ := yields_pure.1 hr
        exact .inr ⟨a, after, hne, ha, .inl ⟨rfl, hm⟩⟩
      · exact absurd hr not_yields_throw
    · rintro (⟨rfl, hs⟩ | ⟨a, after, _, ha, hr⟩)
      · exact absurd hs (hne rest)
      · refine ⟨a, after, ha.length_lt, ha, ?_⟩
        rcases hr with ⟨rfl, hs⟩ | ⟨behind, as, rfl, hs, has⟩ <;> split
        · next hm => rw [hs] at hm; cases hm
        · next hm => rw [hs] at hm; cases hm; exact yields_pure.2 ⟨rfl, rfl⟩
        · next hne => exact absurd hs (hne rest)
        · next hm =>
          rw [hs] at hm
          cases hm
          exact has.bind (yields_pure.2 ⟨rfl, rfl⟩)
        · next hm => rw [hs] at hm; cases hm
        · next hne _ => exact absurd hs (hne behind)

theorem yields_readArgument_named {name : String} {ts rest : List TokenKind}
    {a : Argument Value} :
    Yields (readArgument (.ident name :: .colon :: ts)) a rest ↔
      ∃ v, Yields (readValue ts) v rest ∧ a = ⟨some name, v⟩ := by
  rw [readArgument, yields_bind]
  constructor
  · rintro ⟨v, _, _, hv, hr⟩
    obtain ⟨rfl, rfl⟩ := yields_pure.1 hr
    exact ⟨v, hv, rfl⟩
  · rintro ⟨v, hv, rfl⟩
    exact ⟨v, rest, hv.length_lt, hv, yields_pure.2 ⟨rfl, rfl⟩⟩

theorem yields_readArgument_positional {ts rest : List TokenKind} {a : Argument Value}
    (hne : ∀ name us, ts ≠ .ident name :: .colon :: us) :
    Yields (readArgument ts) a rest ↔ ∃ v, Yields (readValue ts) v rest ∧ a = ⟨none, v⟩ := by
  rw [readArgument, yields_bind]
  · constructor
    · rintro ⟨v, _, _, hv, hr⟩
      obtain ⟨rfl, rfl⟩ := yields_pure.1 hr
      exact ⟨v, hv, rfl⟩
    · rintro ⟨v, hv, rfl⟩
      exact ⟨v, rest, hv.length_lt, hv, yields_pure.2 ⟨rfl, rfl⟩⟩
  · intro name us h
    exact hne name us h

/-- What a value can be, by its first tokens. -/
theorem yields_readValue_cases {ts rest : List TokenKind} {v : Value}
    (h : Yields (readValue ts) v rest) :
    (∃ s, ts = .str s :: rest ∧ v = .string s) ∨ (∃ n, ts = .number n :: rest ∧ v = .number n) ∨
      (∃ n, ts = .ident n :: rest ∧ v = .ofName n) ∨
      (∃ us vs, ts = .lbracket :: us ∧ Yields (readValues us) vs rest ∧ v = .array vs) ∨
      ∃ f us args, ts = .ident f :: .lparen :: us ∧ Yields (readArguments us) args rest ∧
        v = .call f args := by
  rw [readValue.eq_def] at h
  split at h
  · next s us =>
    obtain ⟨rfl, rfl⟩ := yields_ok.1 h
    exact .inl ⟨s, rfl, rfl⟩
  · next n us =>
    obtain ⟨rfl, rfl⟩ := yields_ok.1 h
    exact .inr (.inl ⟨n, rfl, rfl⟩)
  · next us =>
    obtain ⟨vs, _, _, hvs, hr⟩ := yields_bind.1 h
    obtain ⟨rfl, rfl⟩ := yields_pure.1 hr
    exact .inr (.inr (.inr (.inl ⟨us, vs, rfl, hvs, rfl⟩)))
  · next f us =>
    obtain ⟨args, _, _, hargs, hr⟩ := yields_bind.1 h
    obtain ⟨rfl, rfl⟩ := yields_pure.1 hr
    exact .inr (.inr (.inr (.inr ⟨f, us, args, rfl, hargs, rfl⟩)))
  · next n us _ =>
    obtain ⟨rfl, rfl⟩ := yields_ok.1 h
    exact .inr (.inr (.inl ⟨n, rfl, rfl⟩))
  · exact absurd h not_yields_error

/-- What is read as an argument spells one, if what is read as a value spells that. -/
theorem exists_isArgument_of_yields {P : List TokenKind → Value → Prop} {ts rest : List TokenKind}
    {a : Argument Value}
    (hvalue : ∀ us v rest, us.length ≤ ts.length → Yields (readValue us) v rest →
      ∃ xs, us = xs ++ rest ∧ P xs v)
    (h : Yields (readArgument ts) a rest) : ∃ us, ts = us ++ rest ∧ IsArgument P us a := by
  by_cases hnamed : ∃ name us, ts = .ident name :: .colon :: us
  · obtain ⟨name, us, rfl⟩ := hnamed
    obtain ⟨v, hv, rfl⟩ := yields_readArgument_named.1 h
    obtain ⟨xs, rfl, hxs⟩ := hvalue us v rest (by simp only [List.length_cons]; omega) hv
    exact ⟨_, rfl, .named name hxs⟩
  · simp only [not_exists] at hnamed
    obtain ⟨v, hv, rfl⟩ := (yields_readArgument_positional hnamed).1 h
    obtain ⟨xs, rfl, hxs⟩ := hvalue ts v rest (Nat.le_refl _) hv
    exact ⟨xs, rfl, .positional hxs⟩

/-- What is read as a value spells it. -/
theorem exists_isValue_of_yields {ts rest : List TokenKind} {v : Value}
    (h : Yields (readValue ts) v rest) : ∃ us, ts = us ++ rest ∧ IsValue us v := by
  induction hn : ts.length using Nat.strongRecOn generalizing ts rest v with
  | ind n ih =>
    have hvalue : ∀ us w xs, us.length < n → Yields (readValue us) w xs →
        ∃ ys, us = ys ++ xs ∧ IsValue ys w := fun us w xs hlen hw => ih _ hlen hw rfl
    rcases yields_readValue_cases h with ⟨s, rfl, rfl⟩ | ⟨k, rfl, rfl⟩ | ⟨k, rfl, rfl⟩ |
      ⟨us, vs, rfl, hvs, rfl⟩ | ⟨f, us, args, rfl, hargs, rfl⟩
    · exact ⟨[.str s], rfl, .string s⟩
    · exact ⟨[.number k], rfl, .number k⟩
    · exact ⟨[.ident k], rfl, .name k⟩
    · simp only [List.length_cons] at hn
      obtain ⟨xs, rfl, hxs⟩ := exists_commaList_of_yields yields_readValues.1
        (fun us w xs hlen => hvalue us w xs (by omega)) hvs
      exact ⟨.lbracket :: (xs ++ [.rbracket]), by simp, .array hxs⟩
    · simp only [List.length_cons] at hn
      obtain ⟨xs, rfl, hxs⟩ := exists_commaList_of_yields yields_readArguments.1
        (fun us a xs hlen => exists_isArgument_of_yields fun us w xs hle =>
          hvalue us w xs (by omega)) hargs
      exact ⟨.ident f :: .lparen :: (xs ++ [.rparen]), by simp, .call f hxs⟩

/-- What is read as arguments spells a list of them. -/
theorem exists_arguments_of_yields {ts rest : List TokenKind} {args : List (Argument Value)}
    (h : Yields (readArguments ts) args rest) :
    ∃ us, ts = us ++ .rparen :: rest ∧ CommaList (IsArgument IsValue) us args :=
  exists_commaList_of_yields yields_readArguments.1
    (fun _ _ _ _ => exists_isArgument_of_yields fun _ _ _ _ => exists_isValue_of_yields) h

/-- The next token tells a value alone from a value with a name. -/
theorem IsValue.append_ne_named {ts rest : List TokenKind} {v : Value} (h : IsValue ts v)
    (hrest : Unextended rest) (name : String) (us : List TokenKind) :
    ts ++ rest ≠ .ident name :: .colon :: us := by
  cases h with
  | string s => simp
  | number n => simp
  | name n =>
    have : rest ≠ .colon :: us := hrest.ne_cons rfl
    simp [this]
  | call f hl => simp
  | array hl => simp

/-- An argument is read where it is spelled, if its value is. -/
theorem IsArgument.yields {P : List TokenKind → Value → Prop}
    (hvalue : ∀ us v, P us v → IsValue us v ∧
      ∀ {rest}, Unextended rest → Yields (readValue (us ++ rest)) v rest)
    {ts : List TokenKind} {a : Argument Value} (h : IsArgument P ts a) {rest : List TokenKind}
    (hrest : Unextended rest) : Yields (readArgument (ts ++ rest)) a rest := by
  cases h with
  | positional hp =>
    obtain ⟨hv, hread⟩ := hvalue _ _ hp
    exact (yields_readArgument_positional (hv.append_ne_named hrest)).2 ⟨_, hread hrest, rfl⟩
  | named name hp =>
    exact yields_readArgument_named.2 ⟨_, (hvalue _ _ hp).2 hrest, rfl⟩

/-- A value is read where it is spelled. -/
theorem IsValue.yields {ts : List TokenKind} {v : Value} (h : IsValue ts v)
    {rest : List TokenKind} (hrest : Unextended rest) : Yields (readValue (ts ++ rest)) v rest := by
  induction h using IsValue.induction generalizing rest with
  | string s => simp [readValue]
  | number n => simp [readValue]
  | name n =>
    rw [List.singleton_append, readValue]
    · exact yields_ok.2 ⟨rfl, rfl⟩
    · exact fun us => hrest.ne_cons rfl
  | call f ts args _ ih =>
    have hargs : Yields (readArguments (ts ++ .rparen :: rest)) args rest :=
      yields_of_commaList yields_readArguments.2 ⟨rfl, rfl, by decide⟩
        (fun _ _ ha => ha.exists_head fun _ _ hv => hv.1.exists_head) ih
        (fun _ _ ha _ => ha.yields fun _ _ hv => ⟨hv.1, hv.2⟩) rest
    rw [List.cons_append, List.cons_append, List.append_assoc, List.singleton_append, readValue]
    exact hargs.bind (yields_pure.2 ⟨rfl, rfl⟩)
  | array ts vs _ ih =>
    have hvalues : Yields (readValues (ts ++ .rbracket :: rest)) vs rest :=
      yields_of_commaList yields_readValues.2 ⟨rfl, rfl, by decide⟩
        (fun _ _ hv => hv.1.exists_head) ih (fun _ _ hv _ => hv.2) rest
    rw [List.cons_append, List.append_assoc, List.singleton_append, readValue]
    exact hvalues.bind (yields_pure.2 ⟨rfl, rfl⟩)

/-- Arguments are read where they are spelled. -/
theorem yields_readArguments_of_commaList {ts : List TokenKind} {args : List (Argument Value)}
    (h : CommaList (IsArgument IsValue) ts args) (rest : List TokenKind) :
    Yields (readArguments (ts ++ .rparen :: rest)) args rest :=
  yields_of_commaList yields_readArguments.2 ⟨rfl, rfl, by decide⟩
    (fun _ _ ha => ha.exists_head fun _ _ => IsValue.exists_head) h
    (fun _ _ ha _ => ha.yields fun _ _ hv => ⟨hv, hv.yields⟩) rest

end SchemaForge.Schema
