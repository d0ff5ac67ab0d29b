import SchemaForge.Declaration.Scanner
import SchemaForge.Proofs.Declaration.Blanks
import SchemaForge.Proofs.Declaration.Inside
import SchemaForge.Proofs.Text.Utf8

/-!
# Scanning by bytes and by characters

At an offset between two characters stands what the next chunk is, and no byte inside a character
is more than itself.  So a scanner that jumps over bytes comes to what a search over the chunks
comes to, and it looks at no byte and cuts no text where it must not.

## Main definitions

* `Chunk.item` — a chunk, as it stands at an offset.

## Main results

* `itemAt_eq` — **the item at an offset between two characters is the next chunk.**
* `exists_itemAt` — there is an item at every offset in range.
* `exists_findClosing` — the search for a closing bracket comes to an end from every offset.
* `findClosing_eq` — **it finds the bracket that closes the chunks inside.**
-/

namespace SchemaForge.Declaration

open Text

variable {front back text rest : List Char} {c q : Char} {i : Nat} {b : UInt8}

/-! ### Characters at an offset -/

/-- The byte at a character of ASCII. -/
theorem getElem?_utf8_of_lt (hc : c.toNat < 128) (front rest : List Char) :
    (utf8 (front ++ c :: rest))[byteSize front]? = some (UInt8.ofNat c.toNat) := by
  have hget := getElem?_utf8_append front (c :: rest) 0
  rwa [Nat.add_zero, utf8_cons, utf8_of_lt hc, List.singleton_append, List.getElem?_cons_zero]
    at hget

/-- The byte behind a character of ASCII. -/
theorem getElem?_utf8_succ (hc : c.toNat < 128) (front rest : List Char) :
    (utf8 (front ++ c :: rest))[byteSize front + 1]? = (utf8 rest)[0]? := by
  rw [getElem?_utf8_append, utf8_cons, utf8_of_lt hc, List.singleton_append,
    List.getElem?_cons_succ]

theorem byteSize_concat_of_lt (hc : c.toNat < 128) (front : List Char) :
    byteSize (front ++ [c]) = byteSize front + 1 := by
  rw [byteSize_append, byteSize_cons, utf8Size_of_lt hc, byteSize_nil]

/-- Characters of ASCII are as different as their bytes. -/
theorem byte_inj (hc : c.toNat < 128) (hq : q.toNat < 128) :
    UInt8.ofNat c.toNat = UInt8.ofNat q.toNat ↔ c = q := by
  constructor
  · intro h
    rw [← byteChar_of_lt hc, h, byteChar_of_lt hq]
  · rintro rfl
    rfl

theorem ne_of_le (hc : 128 ≤ c.toNat) (hq : q.toNat < 128) : c ≠ q := by
  rintro rfl
  omega

theorem beq_of_le (hc : 128 ≤ c.toNat) (q : Char) (hq : q.toNat < 128) : (c == q) = false :=
  beq_eq_false_iff_ne.2 (ne_of_le hc hq)

theorem isQuote_of_le (hc : 128 ≤ c.toNat) : isQuote c = false := by
  simp [isQuote, beq_of_le hc '"' (by decide), beq_of_le hc '\'' (by decide),
    beq_of_le hc '\x60' (by decide)]

theorem isOpening_of_le (hc : 128 ≤ c.toNat) : isOpening c = false := by
  simp [isOpening, beq_of_le hc '(' (by decide), beq_of_le hc '\x7b' (by decide),
    beq_of_le hc '[' (by decide)]

theorem isClosing_of_le (hc : 128 ≤ c.toNat) : isClosing c = false := by
  simp [isClosing, beq_of_le hc ')' (by decide), beq_of_le hc '\x7d' (by decide),
    beq_of_le hc ']' (by decide)]

theorem isFiller_of_le (hc : 128 ≤ c.toNat) : (Chunk.char c).isFiller = false := by
  simp [Chunk.isFiller, isAsciiBlank, beq_of_le hc ' ' (by decide), beq_of_le hc '\t' (by decide),
    beq_of_le hc '\n' (by decide), beq_of_le hc '\x0c' (by decide),
    beq_of_le hc '\r' (by decide), beq_of_le hc ',' (by decide)]

theorem lt_of_isOpening (hc : isOpening c = true) : c.toNat < 128 := by
  by_contra hle
  rw [isOpening_of_le (Nat.le_of_not_lt hle)] at hc
  cases hc

theorem lt_of_isClosing (hc : isClosing c = true) : c.toNat < 128 := by
  by_contra hle
  rw [isClosing_of_le (Nat.le_of_not_lt hle)] at hc
  cases hc

/-! ### Literals -/

/-- One byte of a literal: an escape, the quote that closes it, or any other. -/
theorem closingQuote?_of_getElem? {bytes : List UInt8} (h : bytes[i]? = some b) (quote : UInt8) :
    closingQuote? bytes quote i =
      if byteChar b = '\\' then closingQuote? bytes quote (i + 2)
      else if b = quote then some i
      else closingQuote? bytes quote (i + 1) := by
  obtain ⟨hi, rfl⟩ := List.getElem?_eq_some_iff.1 h
  rw [closingQuote?, dif_pos hi]

theorem closingQuote?_of_le {bytes : List UInt8} (h : bytes.length ≤ i) (quote : UInt8) :
    closingQuote? bytes quote i = none := by
  rw [closingQuote?, dif_neg (Nat.not_lt.2 h)]

/-- A character that is none of ASCII is passed over, from its first byte or from inside. -/
theorem closingQuote?_pass (hc : 128 ≤ c.toNat) (hq : q.toNat < 128) (front rest : List Char)
    {m : Nat} (hm : m ≤ c.utf8Size) :
    closingQuote? (utf8 (front ++ c :: rest)) (UInt8.ofNat q.toNat) (byteSize front + m) =
      closingQuote? (utf8 (front ++ c :: rest)) (UInt8.ofNat q.toNat)
        (byteSize (front ++ [c])) := by
  refine pass_char front rest hc (fun j b _ _ hb hle => ?_) hm
  have hbackslash : byteChar b ≠ '\\' := by
    intro h
    have := toNat_byteChar b
    rw [h] at this
    exact absurd (this ▸ hle : 128 ≤ '\\'.toNat) (by decide)
  have hquote : b ≠ UInt8.ofNat q.toNat := by
    intro h
    have := toNat_byteChar b
    rw [h, byteChar_of_lt hq, ← h] at this
    omega
  rw [closingQuote?_of_getElem? hb, if_neg hbackslash, if_neg hquote]

/-- Where what is split off ends, when more stands in front of it. -/
theorem map_offset_append (found : Option (List Char × List Char)) (front own : List Char) :
    (found.map fun (inside, rest) => (own ++ inside, rest)).map
        (fun s => byteSize front + byteSize s.1 - 1) =
      found.map fun s => byteSize (front ++ own) + byteSize s.1 - 1 := by
  rw [Option.map_map]
  simp only [Function.comp_def, byteSize_append, Nat.add_assoc]

/-- **The quote that closes a literal**, by bytes and by characters. -/
theorem closingQuote?_eq (hq : q.toNat < 128) (hne : q ≠ '\\') (front text : List Char) :
    closingQuote? (utf8 (front ++ text)) (UInt8.ofNat q.toNat) (byteSize front) =
      (splitLiteral q text).map fun s => byteSize front + byteSize s.1 - 1 := by
  fun_induction splitLiteral q text generalizing front with
  | case1 => exact closingQuote?_of_le (by simp [length_utf8]) _
  | case2 c rest ih =>
    have hslash := getElem?_utf8_of_lt (by decide : '\\'.toNat < 128) front (c :: rest)
    have hsize := byteSize_concat_of_lt (by decide : '\\'.toNat < 128) front
    have hfront : front ++ '\\' :: c :: rest = (front ++ ['\\']) ++ c :: rest := by simp
    have hown : front ++ ['\\', c] = (front ++ ['\\']) ++ [c] := by simp
    have hstep : closingQuote? (utf8 (front ++ '\\' :: c :: rest)) (UInt8.ofNat q.toNat)
        (byteSize front) = closingQuote? (utf8 (front ++ '\\' :: c :: rest))
          (UInt8.ofNat q.toNat) (byteSize (front ++ ['\\', c])) := by
      rw [closingQuote?_of_getElem? hslash, if_pos (by decide), hown]
      -- an escape is two bytes, and may end inside the character that it escapes
      rcases Nat.lt_or_ge c.toNat 128 with hc | hc
      · rw [byteSize_concat_of_lt hc, hsize]
      · rw [hfront, ← closingQuote?_pass hc hq _ rest c.utf8Size_pos, hsize]
    have hall : front ++ '\\' :: c :: rest = (front ++ ['\\', c]) ++ rest := by simp
    rw [hstep, hall, ih]
    exact (map_offset_append _ front ['\\', c]).symm
  | case3 rest =>
    have hget := getElem?_utf8_of_lt hq front rest
    rw [closingQuote?_of_getElem? hget, byteChar_of_lt hq, if_neg hne, if_pos rfl]
    simp [utf8Size_of_lt hq]
  | case4 c rest hescape hc ih =>
    have hstep : closingQuote? (utf8 (front ++ c :: rest)) (UInt8.ofNat q.toNat)
        (byteSize front) = closingQuote? (utf8 (front ++ c :: rest)) (UInt8.ofNat q.toNat)
          (byteSize (front ++ [c])) := by
      rcases Nat.lt_or_ge c.toNat 128 with hlt | hle
      · have hget := getElem?_utf8_of_lt hlt front rest
        rw [closingQuote?_of_getElem? hget, byteChar_of_lt hlt, byteSize_concat_of_lt hlt]
        by_cases hbackslash : c = '\\'
        · -- a backslash at the end of the text escapes nothing
          obtain rfl : rest = [] := by
            cases rest with
            | nil => rfl
            | cons d rest => exact absurd rfl (hescape d rest hbackslash)
          have hlength : (utf8 (front ++ [c])).length = byteSize front + 1 := by
            rw [length_utf8, byteSize_concat_of_lt hlt]
          rw [if_pos hbackslash, closingQuote?_of_le (by omega), closingQuote?_of_le (by omega)]
        · rw [if_neg hbackslash, if_neg (by rwa [byte_inj hlt hq])]
      · exact closingQuote?_pass hle hq front rest (Nat.zero_le _)
    have hall : front ++ c :: rest = (front ++ [c]) ++ rest := by simp
    rw [hstep, hall, ih]
    exact (map_offset_append _ front [c]).symm

/-! ### Comments -/

/-- The bytes up to the first line feed are those of the first line. -/
theorem findIdx?_lineFeed (text : List Char) :
    (((utf8 text).findIdx? fun b => byteChar b = '\n').elim (byteSize text) (· + 1)) =
      byteSize (splitLine text).1 := by
  fun_induction splitLine text with
  | case1 => rfl
  | case2 rest =>
    rw [utf8_cons, utf8_of_lt (by decide)]
    rfl
  | case3 c rest hne line after hs ih =>
    have hown : (String.utf8EncodeChar c).findIdx? (fun b => byteChar b = '\n') = none := by
      rw [List.findIdx?_eq_none_iff]
      intro b hb
      exact decide_eq_false fun h => hne (eq_of_byteChar_eq hb (by decide) h)
    rw [hs] at ih
    rw [utf8_cons, List.findIdx?_append, hown, Option.none_or, String.length_utf8EncodeChar,
      byteSize_cons, byteSize_cons, ← ih]
    cases (utf8 rest).findIdx? fun b => byteChar b = '\n' with
    | none => rfl
    | some n =>
      simp only [Option.map_some, Option.elim_some]
      omega

theorem bytesFrom_of_le {bytes : List UInt8} (h : i ≤ bytes.length) :
    bytesFrom bytes i = .ok (bytes.drop i) := if_pos h

/-- **The end of a comment to the end of its line**, by bytes and by characters. -/
theorem lineEnd_eq (front : List Char) (htext : text ≠ []) :
    lineEnd (utf8 (front ++ text)) (byteSize front) =
      .ok (byteSize front + byteSize (splitLine text).1 - 1) := by
  have hpos := byteSize_pos_of_ne_nil htext
  have hle : byteSize front ≤ (utf8 (front ++ text)).length := by
    rw [length_utf8, byteSize_append]
    omega
  have hline := findIdx?_lineFeed text
  rw [lineEnd, bytesFrom_of_le hle, drop_utf8_append, ← hline, length_utf8, byteSize_append,
    Except.map]
  cases (utf8 text).findIdx? fun b => byteChar b = '\n' with
  | none => rfl
  | some n => rfl

theorem closingMark?_cons {a : UInt8} {bytes : List UInt8}
    (h : ¬ (byteChar a = '*' ∧ bytes[0]?.map byteChar = some '/')) :
    closingMark? (a :: bytes) = (closingMark? bytes).map (· + 1) := by
  cases bytes with
  | nil => rfl
  | cons d bytes => rw [closingMark?, if_neg (by simpa using h)]

theorem closingMark?_append {own : List UInt8} (h : ∀ b ∈ own, byteChar b ≠ '*')
    (bytes : List UInt8) :
    closingMark? (own ++ bytes) = (closingMark? bytes).map (own.length + ·) := by
  induction own with
  | nil => simp
  | cons a own ih =>
    obtain ⟨ha, hown⟩ := List.forall_mem_cons.1 h
    rw [List.cons_append, closingMark?_cons fun hmark => ha hmark.1, ih hown, Option.map_map]
    simp only [Function.comp_def, List.length_cons]
    congr 1
    funext n
    omega

/-- The bytes up to the mark that closes a block comment are those in front of it. -/
theorem closingMark?_eq (text : List Char) :
    (closingMark? (utf8 text)).map (· + 2) =
      (splitBlockComment text).map fun s => byteSize s.1 := by
  fun_induction splitBlockComment text with
  | case1 => rfl
  | case2 rest =>
    rw [utf8_cons, utf8_cons, utf8_of_lt (by decide), utf8_of_lt (by decide)]
    rfl
  | case3 c rest hne ih =>
    have hcons : closingMark? (utf8 (c :: rest)) =
        (closingMark? (utf8 rest)).map (c.utf8Size + ·) := by
      rw [utf8_cons]
      by_cases hstar : c = '*'
      · subst hstar
        rw [utf8_of_lt (by decide), List.singleton_append, closingMark?_cons]
        · simp only [utf8Size_of_lt (by decide : '*'.toNat < 128), Nat.add_comm 1]
        rintro ⟨-, hslash⟩
        obtain ⟨after, rfl⟩ := (map_byteChar_head?_eq_some_iff (by decide)).1 hslash
        exact hne after rfl rfl
      · rw [closingMark?_append, String.length_utf8EncodeChar]
        exact fun b hb h => hstar (eq_of_byteChar_eq hb (by decide) h)
    have hsize := congrArg (Option.map (c.utf8Size + ·)) ih
    rw [hcons]
    simpa only [Option.map_map, Function.comp_def, byteSize_cons, Nat.add_assoc] using hsize

/-- **The end of a block comment**, by bytes and by characters. -/
theorem blockEnd?_eq (front block : List Char) :
    blockEnd? (utf8 (front ++ '/' :: '*' :: block)) (byteSize front) =
      .ok ((splitBlockComment block).map fun s =>
        byteSize front + byteSize ('/' :: '*' :: s.1) - 1) := by
  have hall : front ++ '/' :: '*' :: block = (front ++ ['/', '*']) ++ block := by simp
  have hsize : byteSize (front ++ ['/', '*']) = byteSize front + 2 := byteSize_append _ _
  have hle : byteSize (front ++ ['/', '*']) ≤ (utf8 ((front ++ ['/', '*']) ++ block)).length := by
    rw [length_utf8, byteSize_append _ block]
    exact Nat.le_add_right _ _
  have hlast : ∀ own : List Char,
      byteSize front + byteSize ('/' :: '*' :: own) - 1 = byteSize front + 1 + byteSize own := by
    intro own
    rw [byteSize_cons, byteSize_cons, utf8Size_of_lt (by decide), utf8Size_of_lt (by decide)]
    omega
  have hmark := congrArg (Option.map (byteSize front + 1 + ·)) (closingMark?_eq block)
  rw [Option.map_map, Option.map_map] at hmark
  rw [blockEnd?, ← hsize, hall, bytesFrom_of_le hle, drop_utf8_append, hsize, Except.map]
  simp only [hlast]
  rw [← Function.comp_def (byteSize front + 1 + ·), ← hmark]
  congr 2
  funext n
  simp only [Function.comp_apply]
  omega

/-! ### Items -/

/-- A chunk, as it stands at an offset: the last byte of a literal or a comment is that in front
of what follows. -/
def Chunk.item (start : Nat) : Chunk → Item
  | char c => .byte c
  | literal t => .literal (some (start + byteSize t - 1))
  | comment t => .comment (some (start + byteSize t - 1))
  | openLiteral _ => .literal none
  | openComment _ => .comment none

theorem itemAt_of_getElem? {bytes : List UInt8} (h : bytes[i]? = some b) :
    itemAt bytes i =
      if isQuote (byteChar b) then .ok (.literal (closingQuote? bytes b (i + 1)))
      else if byteChar b = '/' ∧ bytes[i + 1]?.map byteChar = some '/' then
        (lineEnd bytes i).map fun last => .comment (some last)
      else if byteChar b = '/' ∧ bytes[i + 1]?.map byteChar = some '*' then
        (blockEnd? bytes i).map .comment
      else .ok (.byte (byteChar b)) := by
  rw [itemAt, h]

/-- A byte that is none of ASCII is by itself. -/
theorem itemAt_of_le {bytes : List UInt8} (h : bytes[i]? = some b) (hb : 128 ≤ b.toNat) :
    itemAt bytes i = .ok (.byte (byteChar b)) := by
  have hle : 128 ≤ (byteChar b).toNat := by rwa [toNat_byteChar]
  have hslash : byteChar b ≠ '/' := ne_of_le hle (by decide)
  rw [itemAt_of_getElem? h, isQuote_of_le hle, if_neg Bool.false_ne_true,
    if_neg fun hmark => hslash hmark.1, if_neg fun hmark => hslash hmark.1]

/-- **The item at an offset between two characters is the next chunk.** -/
theorem itemAt_eq (hc : c.toNat < 128) (front rest : List Char) :
    itemAt (utf8 (front ++ c :: rest)) (byteSize front) =
      .ok ((chunk c rest).1.item (byteSize front)) := by
  -- the byte behind a slash makes it the mark of a comment where the next character does
  have hnext : ∀ d : Char, d.toNat < 128 →
      ((utf8 (front ++ c :: rest))[byteSize front + 1]?.map byteChar = some d ↔
        ∃ more, rest = d :: more) := by
    intro d hd
    rw [getElem?_utf8_succ hc, map_byteChar_head?_eq_some_iff hd]
  rw [itemAt_of_getElem? (getElem?_utf8_of_lt hc front rest), byteChar_of_lt hc]
  rcases chunk_forms c rest with hquote | ⟨line, rfl, rfl⟩ | ⟨block, rfl, rfl⟩ | ⟨hquote, hslash⟩
  · have hall : front ++ c :: rest = (front ++ [c]) ++ rest := by simp
    rw [if_pos hquote, ← byteSize_concat_of_lt hc, hall,
      closingQuote?_eq hc (ne_backslash_of_isQuote hquote)]
    cases hs : splitLiteral c rest with
    | none =>
      rw [chunk_open_quote hquote hs]
      rfl
    | some split =>
      rw [chunk_quote hquote hs, Chunk.item, Option.map_some, byteSize_cons, byteSize_append,
        Nat.add_assoc]
      rfl
  · rw [if_neg (by decide), if_pos ⟨rfl, (hnext '/' (by decide)).2 ⟨line, rfl⟩⟩,
      lineEnd_eq front (List.cons_ne_nil _ _), chunk_line]
    rfl
  · have hline : ¬ ∃ line, '*' :: block = '/' :: line := by simp
    rw [if_neg (by decide), if_neg fun h => hline ((hnext '/' (by decide)).1 h.2),
      if_pos ⟨rfl, (hnext '*' (by decide)).2 ⟨block, rfl⟩⟩, blockEnd?_eq front block]
    cases hs : splitBlockComment block with
    | none =>
      rw [chunk_open_block hs]
      rfl
    | some split =>
      rw [chunk_block hs]
      rfl
  · have hmark : ∀ d : Char, d.toNat < 128 → (d = '/' ∨ d = '*') →
        ¬ (c = '/' ∧ (utf8 (front ++ c :: rest))[byteSize front + 1]?.map byteChar = some d) := by
      rintro d hd hmark ⟨hc, hbyte⟩
      obtain ⟨more, rfl⟩ := (hnext d hd).1 hbyte
      have hbreaks := breaksSlash_cons.1 (hslash.resolve_left fun hne => hne hc)
      exact hmark.elim hbreaks.1 hbreaks.2
    rw [if_neg (by simp [hquote]), if_neg (hmark '/' (by decide) (.inl rfl)),
      if_neg (hmark '*' (by decide) (.inr rfl)), chunk_eq_char hquote hslash]
    rfl

/-- There is an item at every offset in range. -/
theorem exists_itemAt (h : i < (utf8 text).length) : ∃ item, itemAt (utf8 text) i = .ok item := by
  have hget := List.getElem?_eq_getElem h
  rcases Nat.lt_or_ge (utf8 text)[i].toNat 128 with hlt | hle
  · obtain ⟨front, back, htext, rfl⟩ := exists_of_getElem?_utf8 hget hlt
    have hitem := itemAt_eq (by rwa [toNat_byteChar]) front back
    rw [← htext] at hitem
    exact ⟨_, hitem⟩
  · exact ⟨_, itemAt_of_le hget hle⟩

theorem chunk_of_le (hc : 128 ≤ c.toNat) (rest : List Char) : chunk c rest = (.char c, rest) :=
  chunk_eq_char (isQuote_of_le hc) (.inl (ne_of_le hc (by decide)))

/-! ### The bracket that closes -/

theorem lt_of_itemAt {bytes : List UInt8} {item : Item} (h : itemAt bytes i = .ok item) :
    i < bytes.length := by
  by_contra hle
  rw [itemAt, List.getElem?_eq_none (Nat.le_of_not_lt hle)] at h
  cases h

/-- A search for a closing bracket, at a byte by itself. -/
theorem findClosingFrom_byte {bytes : List UInt8} (h : itemAt bytes i = .ok (.byte c))
    (depth : Nat) :
    findClosingFrom bytes depth i =
      if isOpening c then findClosingFrom bytes (depth + 1) (i + 1)
      else if isClosing c then
        match depth with
        | 0 => .ok none
        | 1 => .ok (some i)
        | depth + 2 => findClosingFrom bytes (depth + 1) (i + 1)
      else findClosingFrom bytes depth (i + 1) := by
  rw [findClosingFrom.eq_def, if_pos (lt_of_itemAt h)]
  rcases depth with _ | _ | depth
  all_goals split <;> simp_all

/-- A search for a closing bracket, at a literal or a comment. -/
theorem findClosingFrom_jump {bytes : List UInt8} {last? : Option Nat}
    (h : itemAt bytes i = .ok (.literal last?) ∨ itemAt bytes i = .ok (.comment last?))
    (depth : Nat) :
    findClosingFrom bytes depth i =
      last?.elim (.ok none) fun last => findClosingFrom bytes depth (last + 1) := by
  rw [findClosingFrom.eq_def, if_pos (h.elim lt_of_itemAt lt_of_itemAt)]
  split <;> rcases h with h | h <;> simp_all

theorem findClosingFrom_of_le {bytes : List UInt8} (h : bytes.length ≤ i) (depth : Nat) :
    findClosingFrom bytes depth i = .ok none := by
  rw [findClosingFrom.eq_def, if_neg (Nat.not_lt.2 h)]

theorem exists_findClosingFrom (text : List Char) (depth i : Nat) :
    ∃ found, findClosingFrom (utf8 text) depth i = .ok found := by
  generalize hbytes : utf8 text = bytes
  -- every case but that of a fault has its result, or has that of what stands behind
  fun_induction findClosingFrom bytes depth i with
  | case1 depth i hi fault hfault =>
    subst hbytes
    obtain ⟨item, hitem⟩ := exists_itemAt hi
    rw [hitem] at hfault
    cases hfault
  | case3 => exact ⟨_, rfl⟩
  | case4 => exact ⟨_, rfl⟩
  | case7 => exact ⟨_, rfl⟩
  | case9 => exact ⟨_, rfl⟩
  | case11 => exact ⟨_, rfl⟩
  | _ => assumption

/-- **The search for a closing bracket comes to an end**, from every offset. -/
theorem exists_findClosing (text : List Char) (i : Nat) :
    ∃ found, findClosing text i = .ok found :=
  exists_findClosingFrom text 0 i

theorem lt_of_chunk_ne_char (h : (chunk c rest).1 ≠ .char c) : c.toNat < 128 := by
  by_contra hle
  exact h (by rw [chunk_of_le (Nat.le_of_not_lt hle)])

theorem chunk_char_eq {d : Char} (h : (chunk c rest).1 = .char d) : d = c := by
  obtain ⟨own, htext⟩ := exists_text_chunk c rest
  rw [h] at htext
  exact (List.cons.inj htext).1

theorem chunk_text_ne_nil (c : Char) (rest : List Char) : (chunk c rest).1.text ≠ [] := by
  obtain ⟨own, htext⟩ := exists_text_chunk c rest
  rw [htext]
  exact List.cons_ne_nil c own

theorem itemAt_of_chunk {k : Chunk} (hk : (chunk c rest).1 = k) (hchar : ∀ d, k ≠ .char d)
    (front : List Char) :
    itemAt (utf8 (front ++ c :: rest)) (byteSize front) = .ok (k.item (byteSize front)) := by
  have hc : c.toNat < 128 := lt_of_chunk_ne_char (hk ▸ hchar c)
  rw [itemAt_eq hc, hk]

theorem last_succ {own : List Char} (h : own ≠ []) (front : List Char) :
    byteSize front + byteSize own - 1 + 1 = byteSize (front ++ own) := by
  have := byteSize_pos_of_ne_nil h
  rw [byteSize_append]
  omega

/-- A search for a closing bracket, at a character by itself. -/
theorem findClosingFrom_char (h : (chunk c rest).1 = .char c) (front : List Char) (depth : Nat) :
    findClosingFrom (utf8 (front ++ c :: rest)) depth (byteSize front) =
      if isOpening c then
        findClosingFrom (utf8 (front ++ c :: rest)) (depth + 1) (byteSize (front ++ [c]))
      else if isClosing c then
        match depth with
        | 0 => .ok none
        | 1 => .ok (some (byteSize front))
        | depth + 2 =>
          findClosingFrom (utf8 (front ++ c :: rest)) (depth + 1) (byteSize (front ++ [c]))
      else findClosingFrom (utf8 (front ++ c :: rest)) depth (byteSize (front ++ [c])) := by
  rcases Nat.lt_or_ge c.toNat 128 with hlt | hle
  · have hitem := itemAt_eq hlt front rest
    rw [h] at hitem
    rw [findClosingFrom_byte hitem, byteSize_concat_of_lt hlt]
  · rw [isOpening_of_le hle, isClosing_of_le hle]
    refine pass_char front rest hle (fun j b _ _ hb hle => ?_) (Nat.zero_le _)
    have hbyte : 128 ≤ (byteChar b).toNat := by rwa [toNat_byteChar]
    rw [findClosingFrom_byte (itemAt_of_le hb hle), isOpening_of_le hbyte, isClosing_of_le hbyte]
    rfl

/-- **The search finds the bracket that closes the chunks inside.** -/
theorem findClosingFrom_eq (front text : List Char) (depth : Nat) :
    findClosingFrom (utf8 (front ++ text)) (depth + 1) (byteSize front) =
      .ok ((splitClosing depth (chunks text)).map fun s =>
        byteSize front + byteSize (s.1.flatMap Chunk.text)) := by
  fun_induction chunks text generalizing front depth with
  | case1 =>
    rw [List.append_nil]
    exact findClosingFrom_of_le (Nat.le_of_eq (length_utf8 front)) _
  | case2 c rest ih =>
    -- behind the chunk, the search finds what it finds in the rest
    have hrest : ∀ depth, findClosingFrom (utf8 (front ++ c :: rest)) (depth + 1)
        (byteSize (front ++ (chunk c rest).1.text)) =
          .ok (((splitClosing depth (chunks (chunk c rest).2)).map fun s =>
            ((chunk c rest).1 :: s.1, s.2)).map fun s =>
              byteSize front + byteSize (s.1.flatMap Chunk.text)) := by
      intro depth
      have htext := ih (front ++ (chunk c rest).1.text) depth
      rw [List.append_assoc, chunk_text_append_rest] at htext
      rw [htext, Option.map_map]
      simp only [Function.comp_def, List.flatMap_cons, byteSize_append, Nat.add_assoc]
    have hne := chunk_text_ne_nil c rest
    cases hk : (chunk c rest).1 with
    | char d =>
      obtain rfl := chunk_char_eq hk
      rw [hk] at hrest
      rw [findClosingFrom_char hk, splitClosing.eq_def]
      dsimp only
      by_cases hopen : isOpening d = true
      · rw [if_pos hopen, if_pos hopen]
        exact hrest (depth + 1)
      rw [if_neg hopen, if_neg hopen]
      by_cases hclose : isClosing d = true
      · rw [if_pos hclose, if_pos hclose]
        cases depth with
        | zero => rfl
        | succ depth => exact hrest depth
      · rw [if_neg hclose, if_neg hclose]
        exact hrest depth
    | literal t =>
      have hitem := itemAt_of_chunk hk (by simp) front
      rw [hk] at hrest hne
      rw [findClosingFrom_jump (.inl hitem), Option.elim_some,
        last_succ (show t ≠ [] from hne)]
      exact hrest depth
    | comment t =>
      have hitem := itemAt_of_chunk hk (by simp) front
      rw [hk] at hrest hne
      rw [findClosingFrom_jump (.inr hitem), Option.elim_some,
        last_succ (show t ≠ [] from hne)]
      exact hrest depth
    | openLiteral t =>
      rw [findClosingFrom_jump (.inl (itemAt_of_chunk hk (by simp) front))]
      rfl
    | openComment t =>
      rw [findClosingFrom_jump (.inr (itemAt_of_chunk hk (by simp) front))]
      rfl

theorem chunk_of_isOpening (hc : isOpening c = true) (rest : List Char) :
    chunk c rest = (.char c, rest) := by
  simp only [isOpening, Bool.or_eq_true, beq_iff_eq] at hc
  rcases hc with (rfl | rfl) | rfl <;> exact chunk_eq_char (by decide) (.inl (by decide))

/-- **The bracket that closes another** stands behind the chunks inside. -/
theorem findClosing_eq (hopen : isOpening c = true) (front text : List Char) :
    findClosing (front ++ c :: text) (byteSize front) =
      .ok ((splitClosing 0 (chunks text)).map fun s =>
        byteSize (front ++ [c]) + byteSize (s.1.flatMap Chunk.text)) := by
  have hchunk : (chunk c text).1 = .char c := by rw [chunk_of_isOpening hopen]
  rw [findClosing, findClosingFrom_char hchunk, if_pos hopen, List.append_cons]
  exact findClosingFrom_eq (front ++ [c]) text 0

end SchemaForge.Declaration
