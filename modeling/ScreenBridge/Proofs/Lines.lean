/-
# The lines of a text are texts

In UTF-8 a byte of ASCII stands for itself and is part of no other character
(`Text.utf8EncodeChar_eq_of_mem`). So bytes around such a byte are a text exactly if
those in front of it and those behind it are (`Text.isText_append_cons_iff`), and
bytes are a text exactly if each of their lines is one (`Text.isText_intercalate_iff`).

Key definitions: `Text.utf8`, `Text.IsText`.
Key theorems: `Text.ofUtf8?_eq_some_iff`, `Text.isText_append_cons_iff`,
`Text.isText_intercalate_iff`.
-/
import Mathlib.Data.List.Basic
import ScreenBridge.Text.Lines

namespace ScreenBridge
namespace Text

/-- The bytes of a text. -/
def utf8 (text : String) : List UInt8 := text.toUTF8.data.toList

/-- The bytes are those of a text. -/
def IsText (bytes : List UInt8) : Prop := ∃ text, utf8 text = bytes

variable {x y bytes : List UInt8} {b : UInt8}

theorem ofUtf8?_eq_some_iff {text : String} : ofUtf8? bytes = some text ↔ utf8 text = bytes := by
  unfold ofUtf8? String.fromUTF8? utf8
  constructor
  · intro h
    split at h
    · obtain rfl := Option.some.inj h
      rfl
    · cases h
  · rintro rfl
    exact dif_pos text.isValidUTF8

theorem ofUtf8?_eq_none_iff : ofUtf8? bytes = none ↔ ¬ IsText bytes := by
  simp [Option.eq_none_iff_forall_ne_some, ofUtf8?_eq_some_iff, IsText]

@[simp] theorem ofUtf8?_utf8 (text : String) : ofUtf8? (utf8 text) = some text :=
  ofUtf8?_eq_some_iff.mpr rfl

theorem utf8_append (s t : String) : utf8 (s ++ t) = utf8 s ++ utf8 t := by
  simp [utf8]

/-! ### Texts and their characters -/

theorem utf8_ofList (cs : List Char) :
    utf8 (String.ofList cs) = cs.flatMap String.utf8EncodeChar := by
  rw [utf8, String.toUTF8_eq_toByteArray, String.toByteArray_ofList, List.utf8Encode,
    List.data_toByteArray]

theorem isText_iff : IsText bytes ↔ ∃ cs : List Char, cs.flatMap String.utf8EncodeChar = bytes := by
  constructor
  · rintro ⟨text, rfl⟩
    exact ⟨text.toList, by rw [← utf8_ofList, String.ofList_toList]⟩
  · rintro ⟨cs, rfl⟩
    exact ⟨_, utf8_ofList cs⟩

theorem isText_nil : IsText [] := ⟨"", rfl⟩

theorem isText_utf8EncodeChar (c : Char) : IsText (String.utf8EncodeChar c) :=
  isText_iff.mpr ⟨[c], List.flatMap_singleton ..⟩

theorem IsText.append (hx : IsText x) (hy : IsText y) : IsText (x ++ y) := by
  obtain ⟨s, rfl⟩ := hx
  obtain ⟨t, rfl⟩ := hy
  exact ⟨s ++ t, utf8_append s t⟩

theorem isText_singleton (hb : b < 128) : IsText [b] := by
  have hlt : b.toNat < 128 := UInt8.lt_iff_toNat_lt.mp hb
  have hval : (Char.ofNat b.toNat).val.toNat = b.toNat := by
    rw [Char.ofNat, dif_pos (Or.inl (by omega))]
    rfl
  have hchar : String.utf8EncodeChar (Char.ofNat b.toNat) = [b] := by
    rw [String.utf8EncodeChar, hval, if_pos (by omega), UInt8.ofNat_toNat]
  exact hchar ▸ isText_utf8EncodeChar _

theorem forall_ascii {p : Char → Prop} (h : ∀ n : Fin 128, p (Char.ofNat n)) (c : Char)
    (hc : c.toNat < 128) : p c := by
  have hn := h ⟨c.toNat, hc⟩
  rwa [Char.ofNat_toNat] at hn

/-- A byte of ASCII is all of the character in whose encoding it stands. -/
theorem utf8EncodeChar_eq_of_mem {c : Char} (hb : b < 128) (h : b ∈ String.utf8EncodeChar c) :
    String.utf8EncodeChar c = [b] := by
  have hlt : b.toNat < 128 := UInt8.lt_iff_toNat_lt.mp hb
  unfold String.utf8EncodeChar at h ⊢
  dsimp only at h ⊢
  by_cases hascii : c.val.toNat ≤ 127
  · rw [if_pos hascii] at h ⊢
    rw [List.mem_singleton.mp h]
  · -- the bytes of longer encodings begin at 128
    exfalso
    rw [if_neg hascii] at h
    split_ifs at h
    all_goals
      simp only [List.mem_cons, List.not_mem_nil, or_false] at h
      rcases h with rfl | rfl | rfl | rfl <;> simp only [UInt8.toNat_ofNat'] at hlt <;> omega

/-- If characters are written as bytes around a byte of ASCII, then that is one of them,
with some in front of it and some behind it. -/
theorem isText_of_flatMap_eq (hb : b < 128) : ∀ (cs : List Char) {x : List UInt8},
    cs.flatMap String.utf8EncodeChar = x ++ b :: y → IsText x ∧ IsText y
  | [], _, h => by simp at h
  | c :: cs, x, h => by
    rw [List.flatMap_cons] at h
    rcases List.append_eq_append_iff.mp h with ⟨front, rfl, hrest⟩ | ⟨back, hc, hrest⟩
    · obtain ⟨hfront, hy⟩ := isText_of_flatMap_eq hb cs hrest
      exact ⟨(isText_utf8EncodeChar c).append hfront, hy⟩
    · cases back with
      | nil =>
        -- the character ends in front of the byte
        obtain ⟨-, hy⟩ := isText_of_flatMap_eq hb cs (x := []) hrest.symm
        rw [List.append_nil] at hc
        exact ⟨hc ▸ isText_utf8EncodeChar c, hy⟩
      | cons b' back =>
        -- the character is the byte
        obtain ⟨rfl, rfl⟩ := List.cons.inj hrest
        have hone := utf8EncodeChar_eq_of_mem hb (hc ▸ List.mem_append_right x List.mem_cons_self)
        rw [hc, List.append_eq_singleton_iff] at hone
        obtain ⟨rfl, hback⟩ | ⟨-, hback⟩ := hone
        · obtain rfl := (List.cons.inj hback).2
          exact ⟨isText_nil, isText_iff.mpr ⟨cs, rfl⟩⟩
        · cases hback

/-- **A byte of ASCII parts texts.** The bytes around it are a text exactly if those in
front of it and those behind it are. -/
theorem isText_append_cons_iff (hb : b < 128) : IsText (x ++ b :: y) ↔ IsText x ∧ IsText y := by
  constructor
  · intro h
    obtain ⟨cs, hcs⟩ := isText_iff.mp h
    exact isText_of_flatMap_eq hb cs hcs
  · rintro ⟨hx, hy⟩
    exact hx.append ((isText_singleton hb).append hy)

/-! ### Texts and their lines -/

/-- **Bytes are a text exactly if each of their lines is one.** -/
theorem isText_intercalate_iff : ∀ lines : List (List UInt8),
    IsText ([10].intercalate lines) ↔ ∀ line ∈ lines, IsText line
  | [] => by simpa using isText_nil
  | [line] => by simp
  | line :: next :: lines => by
    rw [List.intercalate_cons_cons, List.append_assoc, List.singleton_append,
      isText_append_cons_iff (by decide), isText_intercalate_iff (next :: lines)]
    simp only [List.forall_mem_cons]

theorem isText_of_mem_splitOn {line : List UInt8} (h : IsText bytes)
    (hl : line ∈ bytes.splitOn 10) : IsText line := by
  have hjoin : [10].intercalate (bytes.splitOn 10) = bytes := List.intercalate_splitOn 10
  rw [← hjoin, isText_intercalate_iff] at h
  exact h line hl

end Text
end ScreenBridge
