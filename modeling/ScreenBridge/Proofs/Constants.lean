/-
# Color constants name their colors

A color constant is six hexadecimal digits behind an optional mark (`Color.Spells`).
Exactly these can be swapped, and swapping twice changes nothing; the color of a
constant has the channels that its pairs of digits write (`Color.Spells.ofHex_eq`).
Seen as bytes the pieces that are exchanged are never cut through a character
(`Color.swapPieces_utf8`). Sixteen constants are a palette, or the first of them
that names no color is at fault (`Color.constants_name_colors`).

Key definitions: `Color.hexTable`, `Color.Spells`, `Color.channel`, `Color.swapPieces`,
`Color.dropMarks`.
Key theorems: `Color.digitIn_eq`, `Color.Spells.swapHex_swapHex`, `Color.Spells.ofHex_eq`,
`Color.swapPieces_utf8`, `Palette.ofHex_cases`, `Color.constants_name_colors`.
-/
import Mathlib.Data.List.Forall2
import ScreenBridge.Palette
import ScreenBridge.Proofs.Color
import ScreenBridge.Proofs.Lines

namespace ScreenBridge

/-! ### Hexadecimal digits -/

namespace Color

/-- The hexadecimal digits with their values. -/
def hexTable : List (Char × ℕ) :=
  [('0', 0), ('1', 1), ('2', 2), ('3', 3), ('4', 4), ('5', 5), ('6', 6), ('7', 7), ('8', 8), ('9', 9),
    ('a', 10), ('b', 11), ('c', 12), ('d', 13), ('e', 14), ('f', 15),
    ('A', 10), ('B', 11), ('C', 12), ('D', 13), ('E', 14), ('F', 15)]

/-- The value of a hexadecimal digit. -/
def digitOf (c : Char) : ℕ := (hexTable.lookup c).getD 0

theorem digitIn_of_mem_hexTable : ∀ p ∈ hexTable, Text.digitIn 16 p.1 = some p.2 := by decide

/-- A character that is read as a hexadecimal digit is in the table. -/
theorem mem_hexTable_of_isHexDigit {c : Char} (h : isHexDigit c = true) :
    c ∈ hexTable.map (·.1) := by
  have hvalue : (Text.digitValue c).isSome = true := by
    unfold isHexDigit Text.digitIn at h
    cases hv : Text.digitValue c with
    | none => simp [hv] at h
    | some v => rfl
  have hle : ∀ d : Char, d.toNat < 128 → c ≤ d → c.toNat < 128 := fun d hd hcd =>
    Nat.lt_of_le_of_lt (Char.le_def.mp hcd) hd
  have hc : c.toNat < 128 := by
    unfold Text.digitValue at hvalue
    split_ifs at hvalue with h9 hz hZ
    · exact hle '9' (by decide) h9.2
    · exact hle 'z' (by decide) hz.2
    · exact hle 'Z' (by decide) hZ.2
    · cases hvalue
  exact Text.forall_ascii (p := fun c => isHexDigit c = true → c ∈ hexTable.map (·.1))
    (by decide +kernel) c hc h

/-- The characters that are read as hexadecimal digits are those of the table. -/
theorem digitIn_eq (c : Char) : Text.digitIn 16 c = hexTable.lookup c := by
  cases hl : hexTable.lookup c with
  | some v =>
    obtain ⟨before, after, hmem, -⟩ := List.lookup_eq_some_iff.mp hl
    exact digitIn_of_mem_hexTable (c, v) (by rw [hmem]; simp)
  | none =>
    by_contra hsome
    obtain ⟨p, hp, rfl⟩ := List.mem_map.mp (mem_hexTable_of_isHexDigit
      (Option.isSome_iff_ne_none.mpr hsome))
    have hne := List.lookup_eq_none_iff.mp hl p hp
    simp at hne

theorem isHexDigit_iff {c : Char} : isHexDigit c = true ↔ hexTable.lookup c = some (digitOf c) := by
  rw [isHexDigit, digitIn_eq, digitOf]
  cases hexTable.lookup c <;> simp

theorem digitOf_lt {c : Char} (h : isHexDigit c = true) : digitOf c < 16 := by
  rw [isHexDigit_iff, ← digitIn_eq] at h
  exact Text.digitIn_lt h

/-! ### Constants -/

/-- The text is a mark `0x`, or nothing, and then six hexadecimal digits. -/
structure Spells (s : String) (mark ds : List Char) : Prop where
  eq : s.toList = mark ++ ds
  marked : mark = [] ∨ mark = ['0', 'x']
  length : ds.length = 6
  digits : ∀ c ∈ ds, (hexTable.lookup c).isSome

/-- The text is a color constant. -/
def IsConstant (s : String) : Prop := ∃ mark ds, Spells s mark ds

/-- The number that two digits write, the first of them at this place. -/
def channel (ds : List Char) (n : ℕ) : ℕ := 16 * digitOf (ds.getD n '0') + digitOf (ds.getD (n + 1) '0')

variable {s t : String} {mark ds cs : List Char}

theorem splitMark_cases (cs : List Char) :
    (∃ ds, cs = '0' :: 'x' :: ds ∧ splitMark cs = (['0', 'x'], ds)) ∨
      (∀ ds, cs ≠ '0' :: 'x' :: ds) ∧ splitMark cs = ([], cs) := by
  by_cases h : ∃ ds, cs = '0' :: 'x' :: ds
  · obtain ⟨ds, rfl⟩ := h
    exact Or.inl ⟨ds, rfl, rfl⟩
  · refine Or.inr ⟨fun ds hds => h ⟨ds, hds⟩, ?_⟩
    unfold splitMark
    split
    · exact absurd ⟨_, rfl⟩ h
    · rfl

theorem Spells.splitMark_eq (h : Spells s mark ds) : splitMark s.toList = (mark, ds) := by
  rw [h.eq]
  rcases h.marked with rfl | rfl
  · rcases splitMark_cases ([] ++ ds) with ⟨ds', heq, -⟩ | ⟨-, hsplit⟩
    · -- the second letter of the mark is no digit
      have hx := h.digits 'x' (by simp only [List.nil_append] at heq; simp [heq])
      exact absurd hx (by decide)
    · exact hsplit
  · rfl

theorem Spells.isHexDigit_of_mem (h : Spells s mark ds) {c : Char} (hc : c ∈ ds) :
    isHexDigit c = true := by
  rw [isHexDigit, digitIn_eq]
  exact h.digits c hc

theorem Spells.exists_digits (h : Spells s mark ds) : ∃ r₁ r₀ g₁ g₀ b₁ b₀,
    ds = [r₁, r₀, g₁, g₀, b₁, b₀] ∧ [r₁, r₀, g₁, g₀, b₁, b₀].all isHexDigit = true := by
  obtain ⟨r₁, r₀, g₁, g₀, b₁, b₀, rfl⟩ : ∃ r₁ r₀ g₁ g₀ b₁ b₀, ds = [r₁, r₀, g₁, g₀, b₁, b₀] := by
    match ds, h.length with
    | [_, _, _, _, _, _], _ => exact ⟨_, _, _, _, _, _, rfl⟩
  exact ⟨r₁, r₀, g₁, g₀, b₁, b₀, rfl, List.all_eq_true.mpr fun c hc => h.isHexDigit_of_mem hc⟩

theorem swapDigits_eq_some {ds' : List Char} (h : swapDigits ds = some ds') :
    ds.length = 6 ∧ ∀ c ∈ ds, isHexDigit c = true := by
  unfold swapDigits at h
  split at h
  · split at h
    · rename_i hall
      exact ⟨rfl, List.all_eq_true.mp hall⟩
    · cases h
  · cases h

/-- The digits with the pairs for red and blue exchanged. -/
def swapped (ds : List Char) : List Char := ds.drop 4 ++ (ds.drop 2).take 2 ++ ds.take 2

theorem Spells.swapDigits_eq (h : Spells s mark ds) : swapDigits ds = some (swapped ds) := by
  obtain ⟨r₁, r₀, g₁, g₀, b₁, b₀, rfl, hall⟩ := h.exists_digits
  rw [swapDigits, if_pos hall]
  rfl

/-- What is swapped is a constant again. -/
theorem Spells.swapped (h : Spells s mark ds) :
    Spells (String.ofList (mark ++ swapped ds)) mark (swapped ds) where
  eq := String.toList_ofList
  marked := h.marked
  length := by simp [Color.swapped, h.length]
  digits c hc := by
    refine h.digits c ?_
    simp only [Color.swapped, List.mem_append] at hc
    rcases hc with (hc | hc) | hc
    · exact List.mem_of_mem_drop hc
    · exact List.mem_of_mem_drop (List.mem_of_mem_take hc)
    · exact List.mem_of_mem_take hc

theorem Spells.swapHex_eq (h : Spells s mark ds) :
    swapHex s = .ok (String.ofList (mark ++ Color.swapped ds)) := by
  simp only [swapHex, h.splitMark_eq, h.swapDigits_eq]

/-- Swapping twice changes nothing. -/
theorem Spells.swapHex_swapHex (h : Spells s mark ds) :
    swapHex (String.ofList (mark ++ Color.swapped ds)) = .ok s := by
  have hback : Color.swapped (Color.swapped ds) = ds := by
    obtain ⟨_, _, _, _, _, _, rfl, -⟩ := h.exists_digits
    rfl
  rw [h.swapped.swapHex_eq, hback, ← h.eq, String.ofList_toList]

/-- A text that is no constant is refused. -/
theorem refused_of_not_isConstant (h : ¬ IsConstant s) :
    swapHex s = .error ⟨s⟩ ∧ ofHex s = .error ⟨s⟩ := by
  have hnone : swapDigits (splitMark s.toList).2 = none := by
    refine Option.eq_none_iff_forall_ne_some.mpr fun ds' hds' => h ?_
    obtain ⟨hlength, hall⟩ := swapDigits_eq_some hds'
    refine ⟨(splitMark s.toList).1, (splitMark s.toList).2, ?_, ?_, hlength, fun c hc => ?_⟩
    · rcases splitMark_cases s.toList with ⟨ds, heq, hsplit⟩ | ⟨-, hsplit⟩ <;> rw [hsplit]
      · exact heq
      · rfl
    · rcases splitMark_cases s.toList with ⟨ds, heq, hsplit⟩ | ⟨-, hsplit⟩ <;> rw [hsplit]
      · exact Or.inr rfl
      · exact Or.inl rfl
    · rw [← digitIn_eq]
      exact hall c hc
  constructor
  · simp only [swapHex, hnone]
  · simp only [ofHex, hnone]

/-! ### The color of a constant -/

theorem readDigits_hex {bound : ℕ} {overflow : NumeralError} : ∀ (ds : List Char) (acc : ℕ),
    (∀ c ∈ ds, isHexDigit c = true) → (acc + 1) * 16 ^ ds.length ≤ bound + 1 →
      Text.readDigits 16 bound overflow acc ds =
        .ok (ds.foldl (fun n c => n * 16 + digitOf c) acc)
  | [], _, _, _ => rfl
  | c :: ds, acc, hall, hbound => by
    have hc := hall c List.mem_cons_self
    have hlt := digitOf_lt hc
    have hdigit : Text.digitIn 16 c = some (digitOf c) := (digitIn_eq c).trans (isHexDigit_iff.mp hc)
    have hstep : (acc * 16 + digitOf c + 1) * 16 ^ ds.length ≤ bound + 1 :=
      calc (acc * 16 + digitOf c + 1) * 16 ^ ds.length
          ≤ (acc + 1) * 16 * 16 ^ ds.length := Nat.mul_le_mul_right _ (by omega)
        _ = (acc + 1) * 16 ^ (c :: ds).length := by
          rw [List.length_cons, Nat.pow_succ', Nat.mul_assoc]
        _ ≤ bound + 1 := hbound
    have hle : acc * 16 + digitOf c ≤ bound := by
      have hpow : acc * 16 + digitOf c + 1 ≤ (acc * 16 + digitOf c + 1) * 16 ^ ds.length :=
        Nat.le_mul_of_pos_right _ (Nat.pow_pos (by decide))
      omega
    rw [Text.readDigits, hdigit]
    dsimp only
    rw [if_pos hle, readDigits_hex ds _ (fun d hd => hall d (List.mem_cons_of_mem _ hd)) hstep]
    rfl

theorem Spells.foldl_swapped (h : Spells s mark ds) :
    (Color.swapped ds).foldl (fun n c => n * 16 + digitOf c) 0 =
      channel ds 4 * 65536 + channel ds 2 * 256 + channel ds 0 := by
  obtain ⟨r₁, r₀, g₁, g₀, b₁, b₀, rfl, -⟩ := h.exists_digits
  change (((((0 * 16 + digitOf b₁) * 16 + digitOf b₀) * 16 + digitOf g₁) * 16 + digitOf g₀) * 16 +
      digitOf r₁) * 16 + digitOf r₀ =
    (16 * digitOf b₁ + digitOf b₀) * 65536 + (16 * digitOf g₁ + digitOf g₀) * 256 +
      (16 * digitOf r₁ + digitOf r₀)
  omega

theorem Spells.channel_lt (h : Spells s mark ds) {n : ℕ} (hn : n + 1 < 6) : channel ds n < 256 := by
  have hdigit : ∀ k < 6, digitOf (ds.getD k '0') < 16 := fun k hk => by
    have hlt : k < ds.length := h.length ▸ hk
    rw [List.getD_eq_getElem?_getD, List.getElem?_eq_getElem hlt, Option.getD_some]
    exact digitOf_lt (h.isHexDigit_of_mem (List.getElem_mem hlt))
  have h1 := hdigit n (by omega)
  have h0 := hdigit (n + 1) hn
  unfold channel
  omega

theorem Spells.readDigits_swapped (h : Spells s mark ds) :
    Text.readDigits 16 (Text.wordMax 32) .tooLarge 0 (Color.swapped ds) =
      .ok (channel ds 4 * 65536 + channel ds 2 * 256 + channel ds 0) := by
  rw [readDigits_hex, h.foldl_swapped]
  · exact fun c hc => h.swapped.isHexDigit_of_mem hc
  · rw [h.swapped.length]
    decide

/-- **The color of a constant** has the channels that its pairs of digits write. -/
theorem Spells.ofHex_eq (h : Spells s mark ds) :
    ∃ c, ofHex s = .ok c ∧ c.r.toNat = channel ds 0 ∧ c.g.toNat = channel ds 2 ∧
      c.b.toNat = channel ds 4 ∧
      c.pixel.toNat = channel ds 4 * 65536 + channel ds 2 * 256 + channel ds 0 := by
  have hr := h.channel_lt (n := 0) (by decide)
  have hg := h.channel_lt (n := 2) (by decide)
  have hb := h.channel_lt (n := 4) (by decide)
  obtain ⟨n, hn⟩ : ∃ n, n = channel ds 4 * 65536 + channel ds 2 * 256 + channel ds 0 := ⟨_, rfl⟩
  have hpixel : n.toUInt32.toNat = n := by
    refine UInt32.toNat_ofNat_of_lt' ?_
    change n < 2 ^ 32
    omega
  obtain ⟨hr', hg', hb'⟩ := toNat_channels ⟨n.toUInt32⟩
  simp only [hpixel] at hr' hg' hb'
  refine ⟨⟨n.toUInt32⟩, ?_, ?_, ?_, ?_, hpixel.trans hn⟩
  · simp only [ofHex, h.splitMark_eq, h.swapDigits_eq, h.readDigits_swapped, hn]
  · rw [hr']; omega
  · rw [hg']; omega
  · rw [hb']; omega

/-- The text without all the marks at its front. -/
def dropMarks : List Char → List Char
  | '0' :: 'x' :: cs => dropMarks cs
  | cs => cs

/-- In front of the digits stands no more than one mark. -/
theorem Spells.dropMarks_eq (h : Spells s mark ds) : dropMarks s.toList = ds := by
  have hds : dropMarks ds = ds := by
    obtain ⟨r₁, r₀, g₁, g₀, b₁, b₀, rfl, hall⟩ := h.exists_digits
    unfold dropMarks
    split
    · rename_i heq
      rw [(List.cons.inj (List.cons.inj heq).2).1, (List.cons.inj heq).1] at hall
      exact absurd (List.all_eq_true.mp hall 'x' (by simp)) (by decide)
    · rfl
  rw [h.eq]
  rcases h.marked with rfl | rfl
  · exact hds
  · exact hds

theorem readNatural_eq {radix bound : ℕ} {c : Char} (hc : c ≠ '+') :
    Text.readNatural radix bound (c :: cs) = Text.readDigits radix bound .tooLarge 0 (c :: cs) := by
  unfold Text.readNatural
  split
  · rename_i heq; cases heq
  · rename_i heq; exact absurd (List.cons.inj heq).1 hc
  · rfl

/-- Reading what is left of a swapped constant without its marks gives the pixel. -/
theorem Spells.readNatural_swapped (h : Spells s mark ds) :
    Text.readNatural 16 (Text.wordMax 32) (dropMarks (mark ++ Color.swapped ds)) =
      .ok (channel ds 4 * 65536 + channel ds 2 * 256 + channel ds 0) := by
  have hdrop := h.swapped.dropMarks_eq
  rw [String.toList_ofList] at hdrop
  obtain ⟨c, _, _, _, _, _, heq, hall⟩ := h.swapped.exists_digits
  have hc : c ≠ '+' := by
    rintro rfl
    exact absurd (List.all_eq_true.mp hall '+' List.mem_cons_self) (by decide)
  have hread := h.readDigits_swapped
  rw [heq] at hread
  rw [hdrop, heq, readNatural_eq hc, hread]

theorem swapHex_isOk_iff : (∃ t, swapHex s = .ok t) ↔ IsConstant s := by
  refine ⟨fun ⟨t, ht⟩ => ?_, fun ⟨mark, ds, h⟩ => ⟨_, h.swapHex_eq⟩⟩
  by_contra hnot
  rw [(refused_of_not_isConstant hnot).1] at ht
  cases ht

theorem ofHex_isOk_iff : (∃ c, ofHex s = .ok c) ↔ IsConstant s := by
  refine ⟨fun ⟨c, hc⟩ => ?_, fun ⟨mark, ds, h⟩ => ?_⟩
  · by_contra hnot
    rw [(refused_of_not_isConstant hnot).2] at hc
    cases hc
  · obtain ⟨c, hc, -⟩ := h.ofHex_eq
    exact ⟨c, hc⟩

/-! ### Constants as bytes -/

end Color

namespace Text

/-- Does an offset into the bytes of a text lie between two characters? -/
def isBoundary (bytes : List UInt8) (offset : ℕ) : Bool :=
  offset = bytes.length || (bytes[offset]?).any fun b => b &&& 0xc0 ≠ 0x80

/-- The bytes from one offset up to another, if both lie between characters. -/
def slice? (bytes : List UInt8) (start stop : ℕ) : Option (List UInt8) :=
  if start ≤ stop ∧ isBoundary bytes start ∧ isBoundary bytes stop then
    some ((bytes.take stop).drop start)
  else none

end Text

namespace Color

/-- Is the byte an ASCII hexadecimal digit? -/
def isHexByte (b : UInt8) : Bool := (48 ≤ b && b ≤ 57) || (97 ≤ b && b ≤ 102) || (65 ≤ b && b ≤ 70)

/-- Splits the bytes of a constant into those of the mark, if it stands in front, and
the rest. -/
def splitMarkBytes : List UInt8 → List UInt8 × List UInt8
  | 48 :: 120 :: digits => ([48, 120], digits)
  | digits => ([], digits)

/-- Exchanges red and blue in the bytes of a text. The answer inside is missing if they
are no constant, the one outside if a piece would be cut through a character. -/
def swapPieces (bytes : List UInt8) : Option (Option (List UInt8)) :=
  let (mark, digits) := splitMarkBytes bytes
  if digits.length = 6 ∧ digits.all isHexByte then
    match Text.slice? digits 4 6, Text.slice? digits 2 4, Text.slice? digits 0 2 with
    | some b, some g, some r => some (some (mark ++ (b ++ g ++ r)))
    | _, _, _ => none
  else some none

/-- The byte of a character of ASCII. -/
def asciiByte (c : Char) : UInt8 := c.toNat.toUInt8

/-- The character of ASCII that is written as a byte. -/
def asciiChar (b : UInt8) : Char := Char.ofNat b.toNat

theorem asciiByte_of_mem_hexTable : ∀ p ∈ hexTable, String.utf8EncodeChar p.1 = [asciiByte p.1] ∧
    isHexByte (asciiByte p.1) = true := by decide

theorem hexByte_cases {b : UInt8} (h : isHexByte b = true) : isHexDigit (asciiChar b) = true ∧
    String.utf8EncodeChar (asciiChar b) = [b] ∧ b ≠ 120 ∧ b &&& 0xc0 ≠ 0x80 := by
  have hall : ∀ n : Fin 256, isHexByte (UInt8.ofNat n) = true →
      isHexDigit (Char.ofNat n) = true ∧
        String.utf8EncodeChar (Char.ofNat n) = [UInt8.ofNat n] ∧ UInt8.ofNat n ≠ 120 ∧
          UInt8.ofNat n &&& 0xc0 ≠ 0x80 := by
    decide +kernel
  have hb := hall ⟨b.toNat, b.toNat_lt⟩
  simp only [UInt8.ofNat_toNat] at hb
  exact hb h

theorem slice?_of_hexBytes {bytes : List UInt8} (h : ∀ b ∈ bytes, isHexByte b = true) {start stop : ℕ}
    (hstart : start ≤ stop) (hstop : stop ≤ bytes.length) :
    Text.slice? bytes start stop = some ((bytes.take stop).drop start) := by
  have hbetween : ∀ n ≤ bytes.length, Text.isBoundary bytes n = true := by
    intro n hn
    unfold Text.isBoundary
    rcases Nat.eq_or_lt_of_le hn with rfl | hlt
    · simp
    · rw [List.getElem?_eq_getElem hlt]
      simp [(hexByte_cases (h _ (List.getElem_mem hlt))).2.2.2]
  exact if_pos ⟨hstart, hbetween start (Nat.le_trans hstart hstop), hbetween stop hstop⟩

theorem swapPieces_of_hexBytes {bytes mark digits : List UInt8}
    (hsplit : splitMarkBytes bytes = (mark, digits)) (hlength : digits.length = 6)
    (hall : ∀ b ∈ digits, isHexByte b = true) :
    swapPieces bytes =
      some (some (mark ++ (digits.drop 4 ++ (digits.drop 2).take 2 ++ digits.take 2))) := by
  have hlast : (digits.take 6).drop 4 = digits.drop 4 := by rw [List.take_of_length_le (Nat.le_of_eq hlength)]
  have hmiddle : (digits.take 4).drop 2 = (digits.drop 2).take 2 := by rw [List.drop_take]
  simp only [swapPieces, hsplit]
  rw [if_pos ⟨hlength, List.all_eq_true.mpr hall⟩,
    slice?_of_hexBytes hall (by omega) (by omega), slice?_of_hexBytes hall (by omega) (by omega),
    slice?_of_hexBytes hall (by omega) (by omega)]
  simp only [hlast, hmiddle, List.drop_zero]

theorem Spells.utf8_eq (h : Spells s mark ds) :
    Text.utf8 s = mark.map asciiByte ++ ds.map asciiByte ∧
      ∀ b ∈ ds.map asciiByte, isHexByte b = true := by
  have hmem : ∀ c ∈ ds, String.utf8EncodeChar c = [asciiByte c] ∧ isHexByte (asciiByte c) = true := by
    intro c hc
    obtain ⟨p, hp, rfl⟩ := List.mem_map.mp (mem_hexTable_of_isHexDigit (h.isHexDigit_of_mem hc))
    exact asciiByte_of_mem_hexTable p hp
  refine ⟨?_, fun b hb => ?_⟩
  · rw [← String.ofList_toList (s := s), Text.utf8_ofList, h.eq, List.flatMap_append]
    congr 1
    · rcases h.marked with rfl | rfl <;> rfl
    · rw [List.flatMap_congr fun c hc => (hmem c hc).1, List.map_eq_flatMap]
  · obtain ⟨c, hc, rfl⟩ := List.mem_map.mp hb
    exact (hmem c hc).2

theorem splitMarkBytes_cases (bytes : List UInt8) :
    (∃ digits, bytes = 48 :: 120 :: digits ∧ splitMarkBytes bytes = ([48, 120], digits)) ∨
      splitMarkBytes bytes = ([], bytes) := by
  unfold splitMarkBytes
  split
  · exact Or.inl ⟨_, rfl, rfl⟩
  · exact Or.inr rfl

theorem splitMarkBytes_of_hexBytes {front digits : List UInt8} (hfront : front = [] ∨ front = [48, 120])
    (hall : ∀ b ∈ digits, isHexByte b = true) :
    splitMarkBytes (front ++ digits) = (front, digits) := by
  rcases hfront with rfl | rfl
  · rw [List.nil_append]
    rcases splitMarkBytes_cases digits with ⟨digits', rfl, -⟩ | hsplit
    · exact absurd rfl (hexByte_cases (hall 120 (by simp))).2.2.1
    · exact hsplit
  · rfl

theorem utf8_ofList_hexBytes {front : List Char} (hfront : front = [] ∨ front = ['0', 'x'])
    {digits : List UInt8} (hall : ∀ b ∈ digits, isHexByte b = true) :
    Text.utf8 (String.ofList (front ++ digits.map asciiChar)) = front.map asciiByte ++ digits := by
  rw [Text.utf8_ofList, List.flatMap_append, List.flatMap_map]
  congr 1
  · rcases hfront with rfl | rfl <;> rfl
  · rw [List.flatMap_congr fun b hb => (hexByte_cases (hall b hb)).2.1, List.flatMap_singleton']

/-- Six bytes that are digits, behind a mark or none, are those of a constant. -/
theorem isConstant_of_hexBytes {digits : List UInt8} (hsplit : (splitMarkBytes (Text.utf8 s)).2 = digits)
    (hlength : digits.length = 6) (hall : ∀ b ∈ digits, isHexByte b = true) : IsConstant s := by
  obtain ⟨front, hfront, hutf8⟩ : ∃ front : List Char, (front = [] ∨ front = ['0', 'x']) ∧
      Text.utf8 s = front.map asciiByte ++ digits := by
    rcases splitMarkBytes_cases (Text.utf8 s) with ⟨digits', hbytes, h⟩ | h <;> rw [h] at hsplit
    · exact ⟨['0', 'x'], Or.inr rfl, hsplit ▸ hbytes⟩
    · exact ⟨[], Or.inl rfl, hsplit⟩
  have hs : s = String.ofList (front ++ digits.map asciiChar) := by
    have heq := (Text.ofUtf8?_utf8 s).symm
    rw [hutf8, ← utf8_ofList_hexBytes hfront hall, Text.ofUtf8?_utf8] at heq
    exact Option.some.inj heq
  refine ⟨front, digits.map asciiChar, ?_, hfront, by rw [List.length_map, hlength], fun c hc => ?_⟩
  · rw [hs, String.toList_ofList]
  · obtain ⟨b, hb, rfl⟩ := List.mem_map.mp hc
    rw [← digitIn_eq]
    exact (hexByte_cases (hall b hb)).1

/-- **No constant is cut through a character**, and its bytes are exchanged like its
characters. -/
theorem swapPieces_utf8 (s : String) :
    swapPieces (Text.utf8 s) = some ((swapHex s).toOption.map Text.utf8) := by
  by_cases hconstant : IsConstant s
  · obtain ⟨mark, ds, h⟩ := hconstant
    obtain ⟨hutf8, hall⟩ := h.utf8_eq
    have hfront : mark.map asciiByte = [] ∨ mark.map asciiByte = [48, 120] := by
      rcases h.marked with rfl | rfl
      · exact Or.inl rfl
      · exact Or.inr rfl
    have hsplit : splitMarkBytes (Text.utf8 s) = (mark.map asciiByte, ds.map asciiByte) :=
      hutf8 ▸ splitMarkBytes_of_hexBytes hfront hall
    rw [swapPieces_of_hexBytes hsplit (by rw [List.length_map, h.length]) hall,
      h.swapHex_eq]
    simp only [Except.toOption, Option.map_some]
    rw [h.swapped.utf8_eq.1, Color.swapped]
    simp only [List.map_append, List.map_drop, List.map_take]
  · rw [(refused_of_not_isConstant hconstant).1, swapPieces]
    refine if_neg fun hsix => hconstant ?_
    exact isConstant_of_hexBytes rfl hsix.1 (List.all_eq_true.mp hsix.2)

end Color

/-! ### Palettes -/

/-- Taking the items of a list one after another ends at the first that fails. -/
theorem mapM_cases {ε α β : Type} (f : α → Except ε β) : ∀ xs : List α,
    (∃ ys, xs.mapM f = .ok ys ∧ List.Forall₂ (fun x y => f x = .ok y) xs ys) ∨
      ∃ before x after e, xs = before ++ x :: after ∧ (∀ y ∈ before, ∃ z, f y = .ok z) ∧
        f x = .error e ∧ xs.mapM f = .error e
  | [] => Or.inl ⟨[], rfl, .nil⟩
  | x :: xs => by
    cases hx : f x with
    | error e => exact Or.inr ⟨[], x, xs, e, rfl, by simp, hx, by rw [List.mapM_cons, hx]; rfl⟩
    | ok y =>
      rcases mapM_cases f xs with ⟨ys, hxs, hall⟩ | ⟨before, x', after, e, rfl, hbefore, hx', hxs⟩
      · exact Or.inl ⟨y :: ys, by rw [List.mapM_cons, hx, hxs]; rfl, .cons hx hall⟩
      · refine Or.inr ⟨x :: before, x', after, e, rfl, ?_, hx', by rw [List.mapM_cons, hx, hxs]; rfl⟩
        exact List.forall_mem_cons.mpr ⟨⟨y, hx⟩, hbefore⟩

namespace Palette

open Color (IsConstant)

/-- **What sixteen constants make**: a palette of their colors, or the first of them
that names no color is refused. -/
theorem ofHex_cases (constants : Vector String 16) :
    (∃ p, ofHex constants = .ok p ∧
      ∀ i : Fin 16, Color.ofHex (constants.get i) = .ok (p.entries.get i)) ∨
    ∃ i : Fin 16, (∀ j < i, ∃ c, Color.ofHex (constants.get j) = .ok c) ∧
      ∃ e, Color.ofHex (constants.get i) = .error e ∧ ofHex constants = .error e := by
  have hlist : (fun v : Vector Color 16 => v.toList) <$> constants.mapM Color.ofHex =
      constants.toList.mapM Color.ofHex := by
    rw [← Vector.toList_toArray, ← Array.toList_mapM, ← Vector.toArray_mapM, ← comp_map]
    rfl
  have hlength : constants.toList.length = 16 := constants.length_toList
  rcases mapM_cases Color.ofHex constants.toList with
    ⟨colors, hok, hall⟩ | ⟨before, constant, after, e, hconstants, hbefore, hconstant, herror⟩
  · rw [hok] at hlist
    cases hm : constants.mapM Color.ofHex with
    | error e => rw [hm] at hlist; cases hlist
    | ok entries =>
      rw [hm] at hlist
      obtain rfl : entries.toList = colors := Except.ok.inj hlist
      refine Or.inl ⟨⟨entries⟩, by rw [ofHex, hm], fun i => ?_⟩
      exact (List.forall₂_iff_get.mp hall).2 i (by simp) (by simp)
  · rw [herror] at hlist
    have hplace : ∀ i : Fin 16, (before ++ constant :: after)[i.val]? = some (constants.get i) := by
      intro i
      rw [← hconstants, List.getElem?_eq_getElem (by rw [hlength]; exact i.isLt)]
      rfl
    have hlt : before.length < 16 := by
      rw [hconstants] at hlength
      simp at hlength
      omega
    cases hm : constants.mapM Color.ofHex with
    | ok entries => rw [hm] at hlist; cases hlist
    | error e' =>
      rw [hm] at hlist
      obtain rfl : e' = e := Except.error.inj hlist
      refine Or.inr ⟨⟨before.length, hlt⟩, fun j hj => ?_, e', ?_, by rw [ofHex, hm]⟩
      · have hmem := hplace j
        rw [List.getElem?_append_left hj] at hmem
        exact hbefore _ (List.mem_of_getElem? hmem)
      · have heq := hplace ⟨before.length, hlt⟩
        rw [List.getElem?_append_right (Nat.le_refl _), Nat.sub_self] at heq
        rw [← Option.some.inj heq, hconstant]

/-- **The first text that is no constant is refused.** -/
theorem ofHex_eq_error_iff {constants : Vector String 16} {e : InvalidHex} :
    ofHex constants = .error e ↔ ∃ i, (∀ j < i, IsConstant (constants.get j)) ∧
      ¬ IsConstant (constants.get i) ∧ e = ⟨constants.get i⟩ := by
  have hnot : ∀ i e', Color.ofHex (constants.get i) = .error e' →
      ¬ IsConstant (constants.get i) ∧ e' = ⟨constants.get i⟩ := by
    intro i e' he'
    have hno : ¬ IsConstant (constants.get i) := fun hconstant => by
      obtain ⟨c, hc⟩ := Color.ofHex_isOk_iff.mpr hconstant
      rw [he'] at hc
      cases hc
    have hrefused := (Color.refused_of_not_isConstant hno).2
    exact ⟨hno, Except.error.inj (he'.symm.trans hrefused)⟩
  rcases ofHex_cases constants with ⟨p, hp, hcolors⟩ | ⟨i, hbefore, e', hi, he'⟩
  · refine iff_of_false (fun h => by rw [hp] at h; cases h) ?_
    rintro ⟨i, -, hno, -⟩
    exact hno (Color.ofHex_isOk_iff.mp ⟨_, hcolors i⟩)
  · simp only [Color.ofHex_isOk_iff] at hbefore
    obtain ⟨hno, hname⟩ := hnot i e' hi
    rw [he', Except.error.injEq]
    constructor
    · rintro rfl
      exact ⟨i, hbefore, hno, hname⟩
    · rintro ⟨i', hbefore', hno', rfl⟩
      rcases Nat.lt_trichotomy i i' with hlt | heq | hlt
      · exact absurd (hbefore' i hlt) hno
      · rw [hname, Fin.ext heq]
      · exact absurd (hbefore i' hlt) hno'

end Palette

namespace Color

/-- **Color constants name colors.** A text can be swapped, and names a color, exactly
if it is six hexadecimal digits behind one mark or none; otherwise it is refused by
name. Its bytes are never cut through a character. What is swapped is a constant again,
and swapped back it is the text. The pairs of digits are the channels of the color; that
is the color its channels make, and it is read off the swapped constant without the marks
in front.

Sixteen constants are a palette exactly if each of them is one, otherwise the first that
is not is refused; a grid byte then shows the color of the constant that its low four
bits number. -/
theorem constants_name_colors :
    (∀ s, swapPieces (Text.utf8 s) = some ((swapHex s).toOption.map Text.utf8) ∧
      ((∃ t, swapHex s = .ok t) ↔ IsConstant s) ∧
      (∀ t, swapHex s = .ok t → IsConstant t ∧ swapHex t = .ok s) ∧
      ((∃ c, ofHex s = .ok c) ↔ ∃ t, swapHex s = .ok t) ∧
      (¬ IsConstant s → swapHex s = .error ⟨s⟩ ∧ ofHex s = .error ⟨s⟩) ∧
      ∀ mark ds, Spells s mark ds → ∃ c, ofHex s = .ok c ∧
        (c.r.toNat = channel ds 0 ∧ c.g.toNat = channel ds 2 ∧ c.b.toNat = channel ds 4) ∧
        c = ofRgb c.r c.g c.b ∧ c.pixel.toNat < 2 ^ 24 ∧
        ∃ t, swapHex s = .ok t ∧
          Text.readNatural 16 (Text.wordMax 32) (dropMarks t.toList) = .ok c.pixel.toNat) ∧
    ∀ constants : Vector String 16,
      ((∃ p, Palette.ofHex constants = .ok p) ↔ ∀ i, IsConstant (constants.get i)) ∧
      (∀ e, Palette.ofHex constants = .error e ↔ ∃ i, (∀ j < i, IsConstant (constants.get j)) ∧
        ¬ IsConstant (constants.get i) ∧ e = ⟨constants.get i⟩) ∧
      ∀ p, Palette.ofHex constants = .ok p → ∀ raw : UInt8,
        ofHex (constants.get (Fin.ofNat 16 raw.toNat)) = .ok (p.lookup raw) := by
  refine ⟨fun s => ⟨swapPieces_utf8 s, swapHex_isOk_iff, fun t ht => ?_,
    ofHex_isOk_iff.trans swapHex_isOk_iff.symm, refused_of_not_isConstant, fun mark ds h => ?_⟩,
    fun constants => ⟨?_, fun e => Palette.ofHex_eq_error_iff, fun p hp raw => ?_⟩⟩
  · obtain ⟨mark, ds, h⟩ := swapHex_isOk_iff.mp ⟨t, ht⟩
    obtain rfl := Except.ok.inj (h.swapHex_eq.symm.trans ht)
    exact ⟨⟨mark, _, h.swapped⟩, h.swapHex_swapHex⟩
  · obtain ⟨c, hc, hr, hg, hb, hpixel⟩ := h.ofHex_eq
    have hnamed : c.Named := Or.inr ⟨s, hc⟩
    refine ⟨c, hc, ⟨hr, hg, hb⟩, hnamed.ofRgb_channels.symm, hnamed.pixel_lt, _, h.swapHex_eq, ?_⟩
    rw [String.toList_ofList, h.readNatural_swapped, hpixel]
  · simp only [← ofHex_isOk_iff]
    rcases Palette.ofHex_cases constants with ⟨p, hp, hcolors⟩ | ⟨i, -, e, hi, he⟩
    · exact iff_of_true ⟨p, hp⟩ fun i => ⟨_, hcolors i⟩
    · refine iff_of_false (fun ⟨p, hp⟩ => ?_) fun hall => ?_
      · rw [he] at hp; cases hp
      · obtain ⟨c, hc⟩ := hall i
        rw [hi] at hc; cases hc
  · rcases Palette.ofHex_cases constants with ⟨p', hp', hcolors⟩ | ⟨-, -, e, -, he⟩
    · obtain rfl := Except.ok.inj (hp'.symm.trans hp)
      exact hcolors _
    · rw [he] at hp; cases hp

/-- A constant behind a mark with red 18, green 52 and blue 171; with an accent on its
last letter it is none. -/
theorem marked_constant_names_color :
    (∃ c, ofHex "0x1234aB" = .ok c ∧ c.r.toNat = 0x12 ∧ c.g.toNat = 0x34 ∧ c.b.toNat = 0xab ∧
      c = ofRgb c.r c.g c.b) ∧
    swapHex "0x1234aB" = .ok "0xaB3412" ∧ swapHex "0xaB3412" = .ok "0x1234aB" ∧
    swapPieces (Text.utf8 "12345é") = some none := by
  obtain ⟨hone, -⟩ := constants_name_colors
  have h : Spells "0x1234aB" ['0', 'x'] ['1', '2', '3', '4', 'a', 'B'] :=
    ⟨by decide, Or.inr rfl, rfl, List.all_eq_true.mp (by decide)⟩
  obtain ⟨-, -, hback, -, -, hcolor⟩ := hone "0x1234aB"
  obtain ⟨c, hc, ⟨hr, hg, hb⟩, heq, -⟩ := hcolor _ _ h
  have hswap : swapHex "0x1234aB" = .ok "0xaB3412" := by rfl
  exact ⟨⟨c, hc, hr, hg, hb, heq⟩, hswap, (hback _ hswap).2, (hone "12345é").1.trans (by rfl)⟩

end Color
end ScreenBridge
