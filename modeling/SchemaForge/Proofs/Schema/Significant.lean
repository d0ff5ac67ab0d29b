import SchemaForge.Proofs.Schema.Canonical
import SchemaForge.Proofs.Schema.Reading.Line

/-!
# Significant tokens

Some tokens leave no trace in the document they spell: the ends of lines, the comma behind the
last element of a list, and parentheses without arguments behind the name of an attribute.  All
others are significant, and a document determines them: two spellings of one document have the
same significant tokens in the same order.

## Main definitions

* `Place`, `Place.drops` — where a token stands, and whether it leaves no trace there.
* `significant` — the tokens of a row that leave a trace.

## Main results

* `IsSchema.significant_eq` — **the significant tokens of a spelling are the tokens of its
  document.**
* `significant_filterMap_comment` — every comment is significant.
-/

namespace SchemaForge.Schema

/-! ### What is dropped -/

/-- What has been read in front of a token. -/
inductive Place where
  /-- Nothing that matters. -/
  | outside
  /-- The mark of an attribute, or a dot in its name. -/
  | mark
  /-- The name of an attribute. -/
  | name
  /-- The name of an attribute and a parenthesis that is closed at once. -/
  | emptied
  deriving DecidableEq, Repr

/-- Whether a list ends in front of some tokens; line ends do not count. -/
def closesList (ts : List TokenKind) : Bool :=
  match skipNewlines ts with
  | .rparen :: _ => true
  | .rbracket :: _ => true
  | _ => false

/-- Whether a parenthesis closes in front of some tokens; line ends do not count. -/
def closesArguments (ts : List TokenKind) : Bool :=
  match skipNewlines ts with
  | .rparen :: _ => true
  | _ => false

/-- Whether a token in front of `ts` leaves no trace: a line end, a comma behind a last element,
or one of two parentheses without arguments behind the name of an attribute. -/
def Place.drops : Place → TokenKind → (ts : List TokenKind) → Bool
  | _, .newline, _ => true
  | _, .comma, ts => closesList ts
  | .name, .lparen, ts => closesArguments ts
  | .emptied, .rparen, _ => true
  | _, _, _ => false

/-- The place behind a token. -/
def Place.next : Place → TokenKind → (ts : List TokenKind) → Place
  | _, .at, _ => .mark
  | _, .atAt, _ => .mark
  | .mark, .ident _, _ => .name
  | .name, .dot, _ => .mark
  | .name, .lparen, ts => if closesArguments ts then .emptied else .outside
  | .emptied, .newline, _ => .emptied
  | _, _, _ => .outside

/-- The significant tokens of a row that starts at some place. -/
def significantFrom : Place → List TokenKind → List TokenKind
  | _, [] => []
  | place, t :: ts =>
    (if place.drops t ts then [] else [t]) ++ significantFrom (place.next t ts) ts

/-- The tokens that leave a trace in the document they spell. -/
def significant (ts : List TokenKind) : List TokenKind :=
  significantFrom .outside ts

/-- The text of a comment. -/
def TokenKind.comment? : TokenKind → Option String
  | .comment text => some text
  | _ => none

theorem significantFrom_filterMap_comment (place : Place) (ts : List TokenKind) :
    (significantFrom place ts).filterMap TokenKind.comment? = ts.filterMap TokenKind.comment? := by
  induction ts generalizing place with
  | nil => rfl
  | cons t ts ih =>
    rw [significantFrom, List.filterMap_append, ih, ← List.filterMap_append]
    split
    · next hdrop =>
      -- what is dropped is no comment
      have hnone : t.comment? = none := by
        cases t with
        | comment text => cases place <;> cases hdrop
        | _ => rfl
      rw [List.nil_append, List.filterMap_cons, hnone]
    · rfl

/-- Every comment is significant. -/
theorem significant_filterMap_comment (ts : List TokenKind) :
    (significant ts).filterMap TokenKind.comment? = ts.filterMap TokenKind.comment? :=
  significantFrom_filterMap_comment .outside ts

@[simp] theorem significantFrom_newlines_append (n : Nat) (ts : List TokenKind) :
    significantFrom .outside (newlines n ++ ts) = significantFrom .outside ts := by
  induction n with
  | zero => rfl
  | succ n ih => exact ih

theorem significantFrom_emptied (n : Nat) (ts : List TokenKind) :
    significantFrom .emptied (newlines n ++ .rparen :: ts) = significantFrom .outside ts := by
  induction n with
  | zero => rfl
  | succ n ih => exact ih

/-- Behind the name of an attribute, only what extends it is special. -/
theorem significantFrom_name {ts : List TokenKind} (h : Unextended ts) :
    significantFrom .name ts = significantFrom .outside ts := by
  cases ts with
  | nil => rfl
  | cons t ts =>
    have ht := unextended_cons.1 h
    cases t <;> first | rfl | cases ht

/-! ### Lists with commas -/

section

variable {α : Type} {P : List TokenKind → α → Prop} {tokens : α → List TokenKind}

theorem commaTokens_cons (a : α) (as : List α) :
    commaTokens tokens (a :: as) =
      tokens a ++ ((if as.isEmpty then [] else [.comma]) ++ commaTokens tokens as) := by
  cases as <;> simp [commaTokens]

variable (hhead : ∀ us a, P us a → ∃ t us', us = t :: us' ∧ t.startsValue = true)

include hhead in
/-- What follows the line ends at the head of a list is an element, or the end of the list. -/
theorem CommaList.skipNewlines_append {ts : List TokenKind} {as : List α}
    (h : CommaList P ts as) (close : TokenKind) (hclose : close ≠ .newline)
    (rest : List TokenKind) :
    (as = [] ∧ skipNewlines (ts ++ close :: rest) = close :: rest) ∨
      as ≠ [] ∧ ∃ t us, skipNewlines (ts ++ close :: rest) = t :: us ∧ t.startsValue = true := by
  cases h with
  | empty n =>
    rw [skipNewlines_newlines_append, skipNewlines_of_head_ne hclose]
    exact .inl ⟨rfl, rfl⟩
  | @elements n us ts a as hp ht =>
    obtain ⟨t, us, rfl, hstart⟩ := hhead _ _ hp
    have hne : t ≠ .newline := by
      rintro rfl
      cases hstart
    refine .inr ⟨by simp, t, us ++ (ts ++ close :: rest), ?_, hstart⟩
    simp only [List.append_assoc, skipNewlines_newlines_append, List.cons_append]
    rw [skipNewlines_of_head_ne hne]

include hhead in
/-- A bracket closes behind a list at once when the list is empty. -/
theorem CommaList.closesArguments_append {ts : List TokenKind} {as : List α}
    (h : CommaList P ts as) (rest : List TokenKind) :
    closesArguments (ts ++ .rparen :: rest) = as.isEmpty := by
  rw [closesArguments]
  rcases h.skipNewlines_append hhead .rparen (by simp) rest with
    ⟨rfl, hskip⟩ | ⟨hne, t, us, hskip, hstart⟩
  · rw [hskip]; rfl
  · rw [hskip, List.isEmpty_eq_false_iff.2 hne]
    cases t <;> first | rfl | cases hstart

include hhead in
theorem CommaList.closesList_append {ts : List TokenKind} {as : List α} (h : CommaList P ts as)
    {close : TokenKind} (hclose : close = .rparen ∨ close = .rbracket) (rest : List TokenKind) :
    closesList (ts ++ close :: rest) = as.isEmpty := by
  rw [closesList]
  rcases h.skipNewlines_append hhead close (by rintro rfl; simp at hclose) rest with
    ⟨rfl, hskip⟩ | ⟨hne, t, us, hskip, hstart⟩
  · rw [hskip]
    rcases hclose with rfl | rfl <;> rfl
  · rw [hskip, List.isEmpty_eq_false_iff.2 hne]
    cases t <;> first | rfl | cases hstart

include hhead in
/-- The significant tokens of a list are those of its elements, with single commas between. -/
theorem CommaList.significant_append (tokens : α → List TokenKind)
    (hone : ∀ us a, P us a → ∀ rest,
      significantFrom .outside (us ++ rest) = tokens a ++ significantFrom .outside rest)
    {ts : List TokenKind} {as : List α} (h : CommaList P ts as)
    (close : TokenKind) (hclose : close = .rparen ∨ close = .rbracket) (rest : List TokenKind) :
    significantFrom .outside (ts ++ close :: rest) =
      commaTokens tokens as ++ significantFrom .outside (close :: rest) := by
  induction h using CommaList.readInduction with
  | empty n => rw [significantFrom_newlines_append]; rfl
  | single m n us a hp =>
    simp only [List.append_assoc, significantFrom_newlines_append, hone us a hp]
    rfl
  | cons m n us a ts as hp hl ih =>
    -- the comma is dropped when no element follows
    have hdrop : Place.outside.drops .comma (ts ++ close :: rest) = as.isEmpty :=
      hl.closesList_append hhead hclose rest
    simp only [List.append_assoc, significantFrom_newlines_append, hone us a hp]
    rw [List.cons_append, significantFrom, hdrop, commaTokens_cons, List.append_assoc,
      List.append_assoc]
    exact congrArg _ (congrArg _ ih)

end

/-! ### Values and attributes -/

theorem IsValue.significant_append {ts : List TokenKind} {v : Value} (h : IsValue ts v)
    (rest : List TokenKind) :
    significantFrom .outside (ts ++ rest) = v.tokens ++ significantFrom .outside rest := by
  induction h using IsValue.induction generalizing rest with
  | string s => rfl
  | number n => rfl
  | name n => rw [tokens_ofName]; rfl
  | call name ts args _ ih =>
    have hlist := ih.significant_append
      (fun us a ha => ha.exists_head fun us v hv => hv.1.exists_head)
      Argument.tokens (fun us a ha rest => ?_) .rparen (.inl rfl) rest
    · rw [Value.tokens, argumentsTokens_eq]
      simp only [List.cons_append, List.append_assoc, List.nil_append]
      exact congrArg (.ident name :: .lparen :: ·) hlist
    · cases ha with
      | positional hv => exact hv.2 rest
      | named name hv => exact congrArg (.ident name :: .colon :: ·) (hv.2 rest)
  | array ts vs _ ih =>
    have hlist := ih.significant_append (fun us v hv => hv.1.exists_head) Value.tokens
      (fun us v hv rest => hv.2 rest) .rbracket (.inr rfl) rest
    rw [Value.tokens, valuesTokens_eq]
    simp only [List.cons_append, List.append_assoc, List.nil_append]
    exact congrArg (.lbracket :: ·) hlist

theorem IsArgument.significant_append {ts : List TokenKind} {a : Argument Value}
    (h : IsArgument IsValue ts a) (rest : List TokenKind) :
    significantFrom .outside (ts ++ rest) = a.tokens ++ significantFrom .outside rest := by
  cases h with
  | positional hv => exact hv.significant_append rest
  | named name hv => exact congrArg (.ident name :: .colon :: ·) (hv.significant_append rest)

theorem IsDottedName.significant_append {ts : List TokenKind} {name : String}
    (h : IsDottedName ts name) (rest : List TokenKind) :
    significantFrom .mark (ts ++ rest) = ts ++ significantFrom .name rest := by
  induction h generalizing rest with
  | single name => rfl
  | snoc part _ ih =>
    rw [List.append_assoc, List.append_assoc, ih]
    rfl

theorem IsAttribute.significant_append {ts rest : List TokenKind} {a : Attribute}
    (h : IsAttribute ts a) (hts : ∀ t ∈ ts, t.Undotted) (hrest : Unextended rest) :
    significantFrom .mark (ts ++ rest) = a.tokens ++ significantFrom .outside rest := by
  cases h with
  | bare hname =>
    rw [hname.significant_append, significantFrom_name hrest, Attribute.tokens,
      ← hname.eq_dottedTokens hts]
    simp
  | @applied ts us name args hname hargs =>
    have hhead : ∀ us a, IsArgument IsValue us a →
        ∃ t us', us = t :: us' ∧ t.startsValue = true :=
      fun us a ha => ha.exists_head fun us v hv => hv.exists_head
    -- the parenthesis is dropped when nothing but line ends stands in front of the one that closes
    have hempty := hargs.closesArguments_append hhead rest
    rw [Attribute.tokens, ← hname.eq_dottedTokens fun t ht => hts t (List.mem_append_left _ ht)]
    simp only [List.append_assoc, List.cons_append, List.nil_append]
    rw [hname.significant_append, significantFrom]
    simp only [Place.drops, Place.next, hempty]
    cases hargs with
    | empty n =>
      -- both parentheses are dropped, with the line ends between them
      simpa using significantFrom_emptied n rest
    | elements n hp ht =>
      have hlist := (CommaList.elements n hp ht).significant_append hhead Argument.tokens
        (fun us a ha => ha.significant_append) .rparen (.inl rfl) rest
      simp only [List.isEmpty_cons, Bool.false_eq_true, if_false, hlist, argumentsTokens_eq]
      simp [significantFrom, Place.drops, Place.next]

theorem AreAttributes.unextended_append {ts rest : List TokenKind} {as : List Attribute}
    (h : AreAttributes ts as) (hrest : Unextended rest) : Unextended (ts ++ rest) := by
  cases h with
  | nil => exact hrest
  | cons => exact unextended_cons.2 rfl

theorem AreAttributes.significant_append {ts rest : List TokenKind} {as : List Attribute}
    (h : AreAttributes ts as) (hts : ∀ t ∈ ts, t.Undotted) (hrest : Unextended rest) :
    significantFrom .outside (ts ++ rest) =
      attributesTokens as ++ significantFrom .outside rest := by
  induction h with
  | nil => rfl
  | @cons us ts a as ha has ih =>
    have hattr := ha.significant_append (fun t ht => hts t (by simp [ht]))
      (has.unextended_append hrest)
    rw [List.cons_append, List.append_assoc, significantFrom]
    simp only [Place.drops, Place.next, hattr, ih fun t ht => hts t (by simp [ht])]
    simp [attributesTokens]

/-! ### Entries -/

/-- An entry has its canonical tokens as the significant ones, when nothing extends it. -/
def KeepsTokens {ε : Type} (Entry : List TokenKind → ε → Prop) (place : Place)
    (entry : ε → List TokenKind) : Prop :=
  ∀ us e rest, Entry us e → (∀ t ∈ us, t.Undotted) → Unextended rest →
    significantFrom place (us ++ rest) = entry e ++ significantFrom .outside rest

theorem unextended_commentTokens_append (comment : Option String) {rest : List TokenKind}
    (h : Unextended rest) : Unextended (commentTokens comment ++ rest) := by
  cases comment with
  | none => exact h
  | some text => exact unextended_cons.2 rfl

theorem significant_commentTokens_append (comment : Option String) (rest : List TokenKind) :
    significantFrom .outside (commentTokens comment ++ rest) =
      commentTokens comment ++ significantFrom .outside rest := by
  cases comment <;> rfl

theorem keepsTokens_isField : KeepsTokens IsField .outside Field.tokens := by
  intro ts f rest h hts hrest
  cases h with
  | @intro name us xs type modifier attributes comment htype hattributes =>
    have hxs := hattributes.significant_append (fun t ht => hts t (by simp [ht]))
      (unextended_commentTokens_append comment hrest)
    -- neither a type nor its modifier has a token that could be dropped
    have htype' : ∀ ys,
        significantFrom .outside (us ++ ys) = us ++ significantFrom .outside ys := by
      cases htype <;> exact fun ys => rfl
    have hmodifier : ∀ ys, significantFrom .outside (modifierTokens modifier ++ ys) =
        modifierTokens modifier ++ significantFrom .outside ys := by
      rcases modifier with _ | _ | _ <;> exact fun ys => rfl
    rw [List.cons_append, significantFrom]
    simp only [Place.drops, Place.next, List.append_assoc, htype', hmodifier, hxs,
      significant_commentTokens_append, Field.tokens, ← htype.eq_tokens]
    simp

theorem keepsTokens_isEnumValue : KeepsTokens IsEnumValue .outside EnumValue.tokens := by
  intro ts v rest h hts hrest
  cases h with
  | @intro name xs attributes comment hattributes =>
    have hxs := hattributes.significant_append (fun t ht => hts t (by simp [ht]))
      (unextended_commentTokens_append comment hrest)
    rw [List.cons_append, significantFrom]
    simp only [Place.drops, Place.next, List.append_assoc, hxs, significant_commentTokens_append,
      EnumValue.tokens]
    simp

theorem keepsTokens_isSetting : KeepsTokens IsSetting .outside Setting.tokens := by
  intro ts s rest h _ _
  cases h with
  | @intro key xs value comment hvalue =>
    have hxs := hvalue.significant_append (commentTokens comment ++ rest)
    rw [significant_commentTokens_append] at hxs
    simp only [Setting.tokens, List.cons_append, List.append_assoc]
    exact congrArg (.ident key :: .equals :: ·) hxs

/-- Settings have no attribute of the whole block. -/
theorem keepsTokens_false : KeepsTokens (fun _ _ => False) .mark Empty.elim :=
  fun _ _ _ h => h.elim

theorem keepsTokens_isAttribute : KeepsTokens IsAttribute .mark Attribute.tokens :=
  fun _ _ _ h hts hrest => h.significant_append hts hrest

/-! ### Blocks -/

theorem EndsLine.significant_append {ts rest : List TokenKind} (h : EndsLine ts rest)
    (xs : List TokenKind) :
    significantFrom .outside (ts ++ xs) = significantFrom .outside (rest ++ xs) := by
  cases h <;> rfl

theorem EndsLine.unextended_append {ts rest : List TokenKind} (h : EndsLine ts rest)
    (xs : List TokenKind) : Unextended (ts ++ xs) := by
  cases h <;> exact unextended_cons.2 rfl

section

variable {ε α : Type} {Entry : List TokenKind → ε → Prop} {Attr : List TokenKind → α → Prop}
  {entry : ε → List TokenKind} {attr : α → List TokenKind}

/-- The significant tokens of a block's lines are those of its items, one after the other. -/
theorem IsBody.significant_append (hentry : KeepsTokens Entry .outside entry)
    (hattr : KeepsTokens Attr .mark attr) {ts : List TokenKind} {items : List (Item ε α)}
    (h : IsBody Entry Attr ts items) (hts : ∀ t ∈ ts, t.Undotted) (rest : List TokenKind) :
    significantFrom .outside (ts ++ rest) =
      (items.map (Item.tokens entry attr)).flatten ++ .rbrace :: significantFrom .outside rest := by
  induction h with
  | close => rfl
  | newline _ ih => exact ih fun t ht => hts t (by simp [ht])
  | comment text _ ih => exact congrArg (.comment text :: ·) (ih fun t ht => hts t (by simp [ht]))
  | @entry us ts xs e items he hend _ ih =>
    have hline := hentry us e _ he (fun t ht => hts t (by simp [ht])) (hend.unextended_append rest)
    rw [List.append_assoc, hline, hend.significant_append,
      ih fun t ht => hts t (by simp [hend.subset ht])]
    simp [Item.tokens]
  | @blockAttribute us ts xs a comment items ha hend _ ih =>
    have hline := hattr us a _ ha (fun t ht => hts t (by simp [ht]))
      (unextended_commentTokens_append comment (hend.unextended_append rest))
    rw [List.cons_append, significantFrom]
    simp only [Place.drops, Place.next, List.append_assoc, hline,
      significant_commentTokens_append, hend.significant_append,
      ih fun t ht => hts t (by simp [hend.subset ht])]
    cases comment <;> simp [attributeItems, Item.tokens, commentTokens]

end

theorem IsBlock.significant_append {ts : List TokenKind} {b : Block} (h : IsBlock ts b)
    (hts : ∀ t ∈ ts, t.Undotted) (rest : List TokenKind) :
    significantFrom .outside (ts ++ rest) = b.tokens ++ significantFrom .outside rest := by
  -- the head of a block is kept whatever its keyword
  have hhead : ∀ keyword name xs ys,
      significantFrom .outside xs = ys ++ .rbrace :: significantFrom .outside rest →
      significantFrom .outside (.ident keyword :: .ident name :: .lbrace :: xs) =
        .ident keyword :: .ident name :: .lbrace :: (ys ++ [.rbrace]) ++
          significantFrom .outside rest := by
    intro keyword name xs ys hxs
    simp [significantFrom, Place.drops, Place.next, hxs]
  cases h with
  | model kind name hbody =>
    have hlines := hbody.significant_append keepsTokens_isField keepsTokens_isAttribute
      (fun t ht => hts t (by simp [ht])) rest
    exact hhead _ _ _ _ hlines
  | enumeration name hbody =>
    have hlines := hbody.significant_append keepsTokens_isEnumValue keepsTokens_isAttribute
      (fun t ht => hts t (by simp [ht])) rest
    exact hhead _ _ _ _ hlines
  | settings kind name hbody =>
    have hlines := hbody.significant_append keepsTokens_isSetting keepsTokens_false
      (fun t ht => hts t (by simp [ht])) rest
    exact hhead _ _ _ _ hlines

/-- **The significant tokens of a spelling are the tokens of its document.** -/
theorem IsSchema.significant_eq {ts : List TokenKind} {d : Document} (h : IsSchema ts d.blocks)
    (hts : ∀ t ∈ ts, t.Undotted) : significant ts = d.tokens := by
  obtain ⟨blocks⟩ := d
  rw [significant, Document.tokens]
  dsimp only at h ⊢
  induction h with
  | nil => rfl
  | newline _ ih => exact ih fun t ht => hts t (by simp [ht])
  | comment text _ ih => exact congrArg (.comment text :: ·) (ih fun t ht => hts t (by simp [ht]))
  | block hblock _ ih =>
    rw [hblock.significant_append fun t ht => hts t (by simp [ht]), List.flatMap_cons,
      ih fun t ht => hts t (by simp [ht])]

end SchemaForge.Schema
