import Mathlib
import SchemaForge.Text.Utf8

/-!
# Bytes and characters

A byte offset between two characters of a text is the size of the text in front of it.  Every
character of ASCII is one byte, and no other character has a byte of ASCII in it; so what a
scanner looks for stands between characters wherever it is found.

## Main results

* `cutAt?_eq_some_iff`, `slice?_eq_some_iff` — a cut is the size of what stands in front of it.
* `getElem?_utf8_append` — the bytes behind a text.
* `utf8_of_lt`, `le_of_mem_utf8` — the bytes of a character.
* `exists_of_getElem?_utf8` — **a byte of ASCII is a character.**
* `pass_char` — what passes over every byte of no ASCII passes over a character.
-/

namespace SchemaForge.Text

section

variable {text front back inside : List Char} {start stop n i : Nat} {c : Char} {b : UInt8}

theorem byteSize_append (s t : List Char) : byteSize (s ++ t) = byteSize s + byteSize t := by
  induction s with
  | nil => exact (Nat.zero_add _).symm
  | cons c s ih => rw [List.cons_append, byteSize_cons, byteSize_cons, ih, Nat.add_assoc]

theorem byteSize_le_of_isPrefix {s t : List Char} (h : s <+: t) : byteSize s ≤ byteSize t := by
  obtain ⟨rest, rfl⟩ := h
  rw [byteSize_append]
  exact Nat.le_add_right ..

theorem byteSize_pos_of_ne_nil (h : text ≠ []) : 0 < byteSize text := by
  obtain ⟨c, text, rfl⟩ := List.exists_cons_of_ne_nil h
  have := c.utf8Size_pos
  rw [byteSize_cons]
  omega

/-- Places in a text are ordered as their offsets are. -/
theorem byteSize_take_lt_iff {m : Nat} (hn : n ≤ text.length) :
    byteSize (text.take m) < byteSize (text.take n) ↔ m < n := by
  have hle : ∀ {j k : Nat}, j ≤ k → byteSize (text.take j) ≤ byteSize (text.take k) := by
    intro j k hjk
    obtain ⟨d, rfl⟩ := Nat.exists_eq_add_of_le hjk
    rw [List.take_add, byteSize_append]
    exact Nat.le_add_right _ _
  constructor
  · intro hlt
    by_contra hmn
    exact absurd (hle (Nat.le_of_not_lt hmn)) (Nat.not_le_of_lt hlt)
  · intro hlt
    obtain ⟨d, rfl⟩ := Nat.exists_eq_add_of_lt hlt
    have hne : (text.drop m).take (d + 1) ≠ [] := by
      rw [← List.length_pos_iff, List.length_take, List.length_drop]
      omega
    rw [Nat.add_assoc, List.take_add, byteSize_append]
    exact Nat.lt_add_of_pos_right (byteSize_pos_of_ne_nil hne)

/-! ### Cuts -/

theorem cutAt?_byteSize (front back : List Char) :
    cutAt? (byteSize front) (front ++ back) = some (front, back) := by
  induction front with
  | nil => simp [cutAt?]
  | cons c front ih =>
    have hpos := c.utf8Size_pos
    obtain ⟨n, hn⟩ := Nat.exists_eq_succ_of_ne_zero
      (by rw [byteSize_cons]; omega : byteSize (c :: front) ≠ 0)
    have hle : c.utf8Size ≤ n + 1 := by
      rw [byteSize_cons] at hn
      omega
    have hsub : n + 1 - c.utf8Size = byteSize front := by
      rw [byteSize_cons] at hn
      omega
    rw [hn, List.cons_append, cutAt?, if_pos hle, hsub, ih]
    rfl

/-- **A cut is the size of what stands in front of it.** -/
theorem cutAt?_eq_some_iff :
    cutAt? n text = some (front, back) ↔ text = front ++ back ∧ n = byteSize front := by
  constructor
  · intro h
    fun_induction cutAt? n text generalizing front with
    | case1 text =>
      cases h
      exact ⟨rfl, rfl⟩
    | case2 => cases h
    | case3 n c rest hle ih =>
      obtain ⟨⟨f, b⟩, hcut, heq⟩ := Option.map_eq_some_iff.1 h
      cases heq
      obtain ⟨rfl, hn⟩ := ih hcut
      refine ⟨rfl, ?_⟩
      rw [byteSize_cons]
      omega
    | case4 => cases h
  · rintro ⟨rfl, rfl⟩
    exact cutAt?_byteSize front back

theorem slice?_eq_some_iff :
    slice? text start stop = some inside ↔
      ∃ front back, text = front ++ (inside ++ back) ∧ start = byteSize front ∧
        stop = byteSize front + byteSize inside := by
  simp only [slice?, Option.bind_eq_bind, Option.bind_eq_some_iff, Option.pure_def,
    Option.some.injEq]
  constructor
  · rintro ⟨_, hle, ⟨front, behind⟩, hfront, ⟨own, back⟩, hinside, rfl⟩
    obtain ⟨rfl, rfl⟩ := cutAt?_eq_some_iff.1 hfront
    obtain ⟨rfl, hsize⟩ := cutAt?_eq_some_iff.1 hinside
    have hle : byteSize front ≤ stop := by simpa [guard] using hle
    exact ⟨front, back, rfl, rfl, (Nat.add_sub_of_le hle).symm.trans (congrArg _ hsize)⟩
  · rintro ⟨front, back, rfl, rfl, rfl⟩
    have hinside := cutAt?_byteSize inside back
    rw [← Nat.add_sub_cancel_left (byteSize front) (byteSize inside)] at hinside
    exact ⟨(), by simp [guard], _, cutAt?_byteSize front (inside ++ back), _, hinside, rfl⟩

theorem slice?_append (front inside back : List Char) :
    slice? (front ++ (inside ++ back)) (byteSize front) (byteSize front + byteSize inside) =
      some inside :=
  slice?_eq_some_iff.2 ⟨front, back, rfl, rfl, rfl⟩

/-! ### Bytes -/

@[simp] theorem utf8_nil : utf8 [] = [] := rfl

theorem utf8_cons (c : Char) (text : List Char) :
    utf8 (c :: text) = String.utf8EncodeChar c ++ utf8 text := rfl

theorem utf8_append (s t : List Char) : utf8 (s ++ t) = utf8 s ++ utf8 t :=
  List.flatMap_append

theorem length_utf8 (text : List Char) : (utf8 text).length = byteSize text := by
  induction text with
  | nil => rfl
  | cons c text ih =>
    rw [utf8_cons, List.length_append, String.length_utf8EncodeChar, ih, byteSize_cons]

/-- The bytes behind a text. -/
theorem getElem?_utf8_append (front back : List Char) (k : Nat) :
    (utf8 (front ++ back))[byteSize front + k]? = (utf8 back)[k]? := by
  rw [utf8_append, ← length_utf8, List.getElem?_append_right (Nat.le_add_right _ k),
    Nat.add_sub_cancel_left]

theorem drop_utf8_append (front back : List Char) :
    (utf8 (front ++ back)).drop (byteSize front) = utf8 back := by
  rw [utf8_append, ← length_utf8, List.drop_left]

theorem toNat_byteChar (b : UInt8) : (byteChar b).toNat = b.toNat := by
  have hb : b.toNat < 256 := b.toNat_lt
  have hvalid : b.toNat.isValidChar := .inl (by omega)
  rw [byteChar, Char.ofNat, dif_pos hvalid]
  rfl

/-- A character of ASCII is one byte. -/
theorem utf8_of_lt (h : c.toNat < 128) : String.utf8EncodeChar c = [UInt8.ofNat c.toNat] := by
  have hle : c.val.toNat ≤ 127 := Nat.le_of_lt_succ h
  rw [String.utf8EncodeChar, if_pos hle]
  rfl

theorem utf8Size_of_lt (h : c.toNat < 128) : c.utf8Size = 1 := by
  rw [← String.length_utf8EncodeChar, utf8_of_lt h]
  rfl

theorem byteChar_of_lt (h : c.toNat < 128) : byteChar (UInt8.ofNat c.toNat) = c := by
  have hmod : c.toNat % 256 = c.toNat := Nat.mod_eq_of_lt (by omega)
  rw [byteChar, UInt8.toNat_ofNat', hmod, Char.ofNat_toNat]

/-- Any other character has no byte of ASCII. -/
theorem le_of_mem_utf8 (h : 128 ≤ c.toNat) (hb : b ∈ String.utf8EncodeChar c) : 128 ≤ b.toNat := by
  have hgt : ¬ c.val.toNat ≤ 127 := Nat.not_le_of_lt h
  have hbyte : ∀ n, 128 ≤ n % 256 → 128 ≤ (UInt8.ofNat n).toNat := fun n hn => by
    rwa [UInt8.toNat_ofNat']
  rw [String.utf8EncodeChar, if_neg hgt] at hb
  split at hb
  · simp only [List.mem_cons, List.not_mem_nil, or_false] at hb
    rcases hb with rfl | rfl <;> exact hbyte _ (by omega)
  split at hb
  · simp only [List.mem_cons, List.not_mem_nil, or_false] at hb
    rcases hb with rfl | rfl | rfl <;> exact hbyte _ (by omega)
  · simp only [List.mem_cons, List.not_mem_nil, or_false] at hb
    rcases hb with rfl | rfl | rfl | rfl <;> exact hbyte _ (by omega)

/-- **A byte of ASCII is a character.** -/
theorem exists_of_getElem?_utf8 (h : (utf8 text)[i]? = some b) (hb : b.toNat < 128) :
    ∃ front back, text = front ++ byteChar b :: back ∧ byteSize front = i := by
  induction text generalizing i with
  | nil => cases h
  | cons c text ih =>
    rw [utf8_cons] at h
    by_cases hi : i < c.utf8Size
    · rw [List.getElem?_append_left (by rwa [String.length_utf8EncodeChar])] at h
      have hc : c.toNat < 128 := by
        by_contra hc
        have := le_of_mem_utf8 (Nat.le_of_not_lt hc) (List.mem_of_getElem? h)
        omega
      rw [utf8Size_of_lt hc] at hi
      obtain rfl : i = 0 := by omega
      rw [utf8_of_lt hc, List.getElem?_cons_zero, Option.some.injEq] at h
      refine ⟨[], text, ?_, rfl⟩
      rw [← h, byteChar_of_lt hc]
      rfl
    · rw [List.getElem?_append_right (by rw [String.length_utf8EncodeChar]; omega),
        String.length_utf8EncodeChar] at h
      obtain ⟨front, back, rfl, hsize⟩ := ih h
      refine ⟨c :: front, back, rfl, ?_⟩
      rw [byteSize_cons]
      omega

/-- The bytes of a character are those of ASCII only if it is one of them. -/
theorem eq_of_byteChar_eq {d : Char} (hb : b ∈ String.utf8EncodeChar c) (hd : d.toNat < 128)
    (h : byteChar b = d) : c = d := by
  have hbyte : b.toNat < 128 := by rwa [← toNat_byteChar, h]
  have hc : c.toNat < 128 := by
    by_contra hc
    have := le_of_mem_utf8 (Nat.le_of_not_lt hc) hb
    omega
  rw [utf8_of_lt hc, List.mem_singleton] at hb
  rw [← h, hb, byteChar_of_lt hc]

/-- The first byte of a text is a character of ASCII only where the text starts with it. -/
theorem map_byteChar_head?_eq_some_iff {d : Char} (hd : d.toNat < 128) :
    (utf8 text)[0]?.map byteChar = some d ↔ ∃ rest, text = d :: rest := by
  constructor
  · intro h
    obtain ⟨b, hb, hbyte⟩ := Option.map_eq_some_iff.1 h
    cases text with
    | nil => cases hb
    | cons c rest =>
      have hpos : 0 < (String.utf8EncodeChar c).length := by
        rw [String.length_utf8EncodeChar]
        exact c.utf8Size_pos
      rw [utf8_cons, List.getElem?_append_left hpos] at hb
      exact ⟨rest, by rw [eq_of_byteChar_eq (List.mem_of_getElem? hb) hd hbyte]⟩
  · rintro ⟨rest, rfl⟩
    rw [utf8_cons, utf8_of_lt hd, List.singleton_append, List.getElem?_cons_zero, Option.map_some,
      byteChar_of_lt hd]

/-- The bytes of a character that is none of ASCII. -/
theorem le_of_getElem?_utf8 (hc : 128 ≤ c.toNat) {k : Nat} (hk : k < c.utf8Size)
    (h : (utf8 (front ++ c :: back))[byteSize front + k]? = some b) : 128 ≤ b.toNat := by
  rw [getElem?_utf8_append, utf8_cons,
    List.getElem?_append_left (by rwa [String.length_utf8EncodeChar])] at h
  exact le_of_mem_utf8 hc (List.mem_of_getElem? h)

/-- **What passes over every byte that is none of ASCII passes over a character.** -/
theorem pass_char {α : Type} {f : Nat → α} (front back : List Char) (hc : 128 ≤ c.toNat)
    (hstep : ∀ j b, j < byteSize (front ++ [c]) → byteSize front ≤ j →
      (utf8 (front ++ c :: back))[j]? = some b → 128 ≤ b.toNat → f j = f (j + 1))
    {m : Nat} (hm : m ≤ c.utf8Size) : f (byteSize front + m) = f (byteSize (front ++ [c])) := by
  have hsize : byteSize (front ++ [c]) = byteSize front + c.utf8Size := byteSize_append front [c]
  obtain ⟨n, hn⟩ := Nat.exists_eq_add_of_le hm
  induction n generalizing m with
  | zero => rw [hsize, hn, Nat.add_zero]
  | succ n ih =>
    have hk : m < c.utf8Size := by omega
    have hlt : byteSize front + m < (utf8 (front ++ c :: back)).length := by
      rw [length_utf8, byteSize_append, byteSize_cons]
      omega
    have hget := List.getElem?_eq_getElem hlt
    rw [hstep _ _ (by omega) (Nat.le_add_right _ m) hget (le_of_getElem?_utf8 hc hk hget),
      Nat.add_assoc]
    exact ih hk (by omega)

end

end SchemaForge.Text
