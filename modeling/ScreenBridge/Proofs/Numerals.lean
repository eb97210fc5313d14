/-
# What a numeral writes

Digits write a number by their places (`Text.Writes`). Reading takes digits, with a plus
sign in front of them or none, as long as the number stays within the bound, and nothing
else (`Text.readNatural_eq_ok_iff`). So a key symbol behind `0x`, and the key of a
segment, may have a plus sign where only digits are expected; without one they are read
exactly as digits are (`Text.numerals_may_have_a_plus`).

Key definitions: `Text.Writes`, `Text.Numeral`, `Text.Marked`.
Key theorems: `Text.digitIn_eq_some_iff`, `Text.readDigits_eq_ok_iff`,
`Text.readNatural_eq_ok_iff`, `Command.parseKey_eq_ok_iff`, `Arguments.readKey_eq_ok_iff`,
`Text.numerals_may_have_a_plus`.
-/
import Mathlib.Data.Nat.Digits.Defs
import ScreenBridge.Arguments
import ScreenBridge.Input.Command
import ScreenBridge.Proofs.Constants

namespace ScreenBridge
namespace Text

/-- The character is a digit of the radix, and this is its value. -/
def IsDigit (radix : ℕ) (c : Char) (value : ℕ) : Prop :=
  (c, value) ∈ Color.hexTable ∧ value < radix

/-- The characters are digits of the radix, one or more, and write the number. -/
def Writes (radix : ℕ) (digits : List Char) (n : ℕ) : Prop :=
  digits ≠ [] ∧ ∃ values, List.Forall₂ (IsDigit radix) digits values ∧
    n = Nat.ofDigits radix values.reverse

/-- The characters are such digits, with a plus sign in front of them or none. -/
def Numeral (radix : ℕ) (cs : List Char) (n : ℕ) : Prop :=
  Writes radix cs n ∨ ∃ digits, cs = '+' :: digits ∧ Writes radix digits n

/-- The text is the mark of hexadecimal numerals, in either case, and then this. -/
def Marked (cs rest : List Char) : Prop := cs = '0' :: 'x' :: rest ∨ cs = '0' :: 'X' :: rest

variable {radix bound n : ℕ} {cs rest : List Char}

/-! ### Digits -/

theorem digitIn_eq_some_iff (hradix : radix ≤ 16) {c : Char} {value : ℕ} :
    digitIn radix c = some value ↔ IsDigit radix c value := by
  have hless : digitIn radix c = (digitIn 16 c).filter (· < radix) := by
    unfold digitIn
    cases digitValue c with
    | none => rfl
    | some v =>
      by_cases hv : v < radix
      · simp [Option.filter, hv, Nat.lt_of_lt_of_le hv hradix]
      · by_cases hv' : v < 16 <;> simp [Option.filter, hv, hv']
  have hmem : Color.hexTable.lookup c = some value ↔ (c, value) ∈ Color.hexTable := by
    constructor
    · intro h
      obtain ⟨before, after, heq, -⟩ := List.lookup_eq_some_iff.mp h
      rw [heq]
      simp
    · intro h
      rw [← Color.digitIn_eq]
      exact Color.digitIn_of_mem_hexTable _ h
  rw [hless, Color.digitIn_eq, Option.filter_eq_some_iff, hmem, IsDigit, decide_eq_true_iff]

/-- The number that digits write behind a number that was read already. -/
def appendDigits (radix acc : ℕ) (values : List ℕ) : ℕ :=
  values.foldl (fun n value => n * radix + value) acc

theorem le_appendDigits (hradix : 0 < radix) : ∀ (values : List ℕ) (acc : ℕ),
    acc ≤ appendDigits radix acc values
  | [], acc => Nat.le_refl acc
  | value :: values, acc =>
    calc acc ≤ acc * radix := Nat.le_mul_of_pos_right acc hradix
      _ ≤ acc * radix + value := Nat.le_add_right _ _
      _ ≤ appendDigits radix (acc * radix + value) values := le_appendDigits hradix values _

theorem appendDigits_zero (radix : ℕ) (values : List ℕ) :
    appendDigits radix 0 values = Nat.ofDigits radix values.reverse := by
  rw [Nat.ofDigits_eq_foldr, List.foldr_reverse, appendDigits]
  congr 1
  funext n value
  simp [Nat.mul_comm, Nat.add_comm]

/-- Reading goes on as long as there are digits and the number stays within the bound. -/
theorem readDigits_eq_ok_iff (hpos : 0 < radix) (hradix : radix ≤ 16) {overflow : NumeralError} :
    ∀ (cs : List Char) {acc : ℕ}, acc ≤ bound →
      (readDigits radix bound overflow acc cs = .ok n ↔
        ∃ values, List.Forall₂ (IsDigit radix) cs values ∧ n = appendDigits radix acc values ∧
          n ≤ bound)
  | [], acc, hacc => by
    rw [readDigits, Except.ok.injEq]
    constructor
    · rintro rfl
      exact ⟨[], .nil, rfl, hacc⟩
    · rintro ⟨values, hvalues, rfl, -⟩
      rw [List.forall₂_nil_left_iff.mp hvalues]
      rfl
  | c :: cs, acc, hacc => by
    rw [readDigits]
    constructor
    · intro h
      split at h
      · cases h
      · rename_i value hvalue
        split at h
        · rename_i hle
          obtain ⟨values, hvalues, hn, hbound⟩ :=
            (readDigits_eq_ok_iff hpos hradix cs hle).mp h
          exact ⟨value :: values, .cons ((digitIn_eq_some_iff hradix).mp hvalue) hvalues, hn, hbound⟩
        · cases h
    · rintro ⟨values, hvalues, hn, hbound⟩
      obtain ⟨value, rest, hvalue, hrest, rfl⟩ := List.forall₂_cons_left_iff.mp hvalues
      have hgrows := le_appendDigits hpos rest (acc * radix + value)
      have hle : acc * radix + value ≤ bound := by
        change n = appendDigits radix (acc * radix + value) rest at hn
        omega
      rw [(digitIn_eq_some_iff hradix).mpr hvalue]
      dsimp only
      rw [if_pos hle]
      exact (readDigits_eq_ok_iff hpos hradix cs hle).mpr ⟨rest, hrest, hn, hbound⟩

theorem readDigits_zero_eq_ok_iff (hpos : 0 < radix) (hradix : radix ≤ 16)
    {overflow : NumeralError} (hcs : cs ≠ []) :
    readDigits radix bound overflow 0 cs = .ok n ↔ Writes radix cs n ∧ n ≤ bound := by
  rw [readDigits_eq_ok_iff hpos hradix cs (Nat.zero_le bound)]
  constructor
  · rintro ⟨values, hvalues, hn, hbound⟩
    exact ⟨⟨hcs, values, hvalues, hn.trans (appendDigits_zero radix values)⟩, hbound⟩
  · rintro ⟨⟨-, values, hvalues, hn⟩, hbound⟩
    exact ⟨values, hvalues, hn.trans (appendDigits_zero radix values).symm, hbound⟩

theorem Writes.mem_hexTable (h : Writes radix cs n) {c : Char} (hc : c ∈ cs) :
    c ∈ Color.hexTable.map (·.1) := by
  obtain ⟨-, values, hvalues, -⟩ := h
  induction hvalues with
  | nil => cases hc
  | cons hdigit _ ih =>
    rcases List.mem_cons.mp hc with rfl | hc
    · exact List.mem_map.mpr ⟨_, hdigit.1, rfl⟩
    · exact ih hc

/-! ### Signs and marks -/

theorem not_writes_plus : ¬ Writes radix ('+' :: cs) n := fun h =>
  absurd (h.mem_hexTable List.mem_cons_self) (by decide)

theorem numeral_plus_iff : Numeral radix ('+' :: cs) n ↔ Writes radix cs n := by
  constructor
  · rintro (h | ⟨digits, heq, h⟩)
    · exact absurd h not_writes_plus
    · rw [(List.cons.inj heq).2]
      exact h
  · exact fun h => Or.inr ⟨cs, rfl, h⟩

theorem numeral_iff_writes (hplus : ∀ digits, cs ≠ '+' :: digits) :
    Numeral radix cs n ↔ Writes radix cs n :=
  or_iff_left fun ⟨digits, heq, _⟩ => hplus digits heq

theorem Numeral.mem (h : Numeral radix cs n) {c : Char} (hc : c ∈ cs) :
    c = '+' ∨ c ∈ Color.hexTable.map (·.1) := by
  rcases h with h | ⟨digits, rfl, h⟩
  · exact Or.inr (h.mem_hexTable hc)
  · exact (List.mem_cons.mp hc).imp id h.mem_hexTable

/-- **A numeral that is read is digits, perhaps with a plus sign in front**, and its
number is within the bound. -/
theorem readNatural_eq_ok_iff (hpos : 0 < radix) (hradix : radix ≤ 16) :
    readNatural radix bound cs = .ok n ↔ Numeral radix cs n ∧ n ≤ bound := by
  by_cases hplus : ∃ digits, cs = '+' :: digits
  · obtain ⟨digits, rfl⟩ := hplus
    rw [numeral_plus_iff]
    cases digits with
    | nil =>
      -- a sign alone is read as digits, and it is none
      change readDigits radix bound .tooLarge 0 ['+'] = .ok n ↔ _
      rw [readDigits_zero_eq_ok_iff hpos hradix (List.cons_ne_nil _ _)]
      exact iff_of_false (fun h => not_writes_plus h.1) fun h => h.1.1 rfl
    | cons c digits =>
      rw [readNatural, readDigits_zero_eq_ok_iff hpos hradix (List.cons_ne_nil c digits)]
  · rw [numeral_iff_writes fun digits heq => hplus ⟨digits, heq⟩]
    cases cs with
    | nil => exact iff_of_false (fun h => by cases h) fun h => h.1.1 rfl
    | cons c cs =>
      have hc : c ≠ '+' := by
        rintro rfl
        exact hplus ⟨cs, rfl⟩
      rw [Color.readNatural_eq hc, readDigits_zero_eq_ok_iff hpos hradix (List.cons_ne_nil c cs)]

theorem afterHexMark?_eq_some_iff : afterHexMark? cs = some rest ↔ Marked cs rest := by
  unfold afterHexMark? Marked
  split <;> simp_all

theorem Marked.not_numeral (h : Marked cs rest) : ¬ Numeral radix cs n := by
  intro hnumeral
  rcases h with rfl | rfl
  · exact absurd (hnumeral.mem (c := 'x') (by simp)) (by decide)
  · exact absurd (hnumeral.mem (c := 'X') (by simp)) (by decide)

theorem readNatural_word_eq_ok_iff (hpos : 0 < radix) (hradix : radix ≤ 16) :
    readNatural radix (wordMax 32) cs = .ok n ↔ Numeral radix cs n ∧ n < 2 ^ 32 := by
  have hmax : wordMax 32 = 2 ^ 32 - 1 := rfl
  rw [readNatural_eq_ok_iff hpos hradix, hmax]
  exact and_congr_right fun _ => by omega

end Text

/-! ### Key symbols and keys of segments -/

namespace Command

open Text (Marked Numeral)

/-- A token stands for a key if it is found and has a name. -/
theorem parseKey_eq_ok_iff {token : List Char} {key : Key} :
    parseKey token = .ok key ↔ key ≠ .unknown ∧ lookupKey token = some key := by
  unfold parseKey
  split
  · rename_i hlookup
    refine iff_of_false (fun h => by cases h) fun h => h.1 ?_
    exact (Option.some.inj (hlookup.symm.trans h.2)).symm
  · rename_i found hfound hlookup
    rw [hlookup, Except.ok.injEq, Option.some.injEq]
    constructor
    · rintro rfl
      exact ⟨hfound, rfl⟩
    · exact fun h => h.2
  · rename_i hlookup
    exact iff_of_false (fun h => by cases h) fun h => by simp [hlookup] at h

/-- A token behind a mark is looked up as a key symbol. -/
theorem lookupKey_of_marked {token rest : List Char} (h : Marked token rest) {key : Key} :
    lookupKey token = some key ↔
      ∃ n, Numeral 16 rest n ∧ n < 2 ^ 32 ∧ key = Key.ofKeysym n.toUInt32 := by
  rw [lookupKey, Text.afterHexMark?_eq_some_iff.mpr h]
  dsimp only
  have hread : ∀ n, Text.readNatural 16 (Text.wordMax 32) rest = .ok n ↔
      Numeral 16 rest n ∧ n < 2 ^ 32 := fun n =>
    Text.readNatural_word_eq_ok_iff (by decide) (by decide)
  constructor
  · intro hkey
    split at hkey
    · rename_i n hn
      obtain ⟨hwrites, hlt⟩ := (hread n).mp hn
      exact ⟨n, hwrites, hlt, (Option.some.inj hkey).symm⟩
    · cases hkey
  · rintro ⟨n, hwrites, hlt, rfl⟩
    rw [(hread n).mpr ⟨hwrites, hlt⟩]

end Command

namespace Arguments

open Text (Marked Numeral)

/-- A numeral is read as a word of 32 bits exactly if it writes that word. -/
theorem word_eq_ok_iff {text : String} {radix : ℕ} {cs : List Char} {word : UInt32}
    (hpos : 0 < radix) (hradix : radix ≤ 16) :
    (match Text.readNatural radix (Text.wordMax 32) cs with
      | .ok n => .ok n.toUInt32
      | .error cause => .error (.notKey text cause)) = (.ok word : Except ValueError UInt32) ↔
    Numeral radix cs word.toNat := by
  have hread : ∀ n, Text.readNatural radix (Text.wordMax 32) cs = .ok n ↔
      Numeral radix cs n ∧ n < 2 ^ 32 := fun n =>
    Text.readNatural_word_eq_ok_iff hpos hradix
  constructor
  · intro h
    split at h
    · rename_i n hn
      obtain ⟨hwrites, hlt⟩ := (hread n).mp hn
      obtain rfl := Except.ok.inj h
      rwa [show n.toUInt32.toNat = n from UInt32.toNat_ofNat_of_lt' hlt]
    · cases h
  · intro h
    rw [(hread word.toNat).mpr ⟨h, word.toNat_lt⟩]
    simp

/-- The key of a segment is a numeral of 32 bits, hexadecimal behind a mark and decimal
without one. -/
theorem readKey_eq_ok_iff {text : String} {word : UInt32} :
    readKey text = .ok word ↔
      (∃ rest, Marked text.toList rest ∧ Numeral 16 rest word.toNat) ∨
        Numeral 10 text.toList word.toNat := by
  unfold readKey
  cases hmark : Text.afterHexMark? text.toList with
  | some rest =>
    have hmarked := Text.afterHexMark?_eq_some_iff.mp hmark
    have hrest : ∀ {other}, Marked text.toList other → other = rest := fun h =>
      Option.some.inj ((Text.afterHexMark?_eq_some_iff.mpr h).symm.trans hmark)
    refine (word_eq_ok_iff (by decide) (by decide)).trans ?_
    rw [or_iff_left hmarked.not_numeral]
    constructor
    · exact fun h => ⟨rest, hmarked, h⟩
    · rintro ⟨other, hother, h⟩
      exact hrest hother ▸ h
  | none =>
    have hnot : ¬ ∃ rest, Marked text.toList rest ∧ Numeral 16 rest word.toNat := by
      rintro ⟨rest, hrest, -⟩
      rw [Text.afterHexMark?_eq_some_iff.mpr hrest] at hmark
      cases hmark
    exact (word_eq_ok_iff (by decide) (by decide)).trans (or_iff_right hnot).symm

end Arguments

namespace Text

/-- **A numeral is digits, and may have a plus sign in front of them.** A token behind
`0x` or `0X` stands for a key exactly if what follows the mark is a hexadecimal numeral
below 2^32 of a symbol that has a key, and then for that key. A text is the key of a
segment exactly if it is a hexadecimal numeral behind such a mark or a decimal numeral,
and writes that number, which is below 2^32. Where there is no plus sign in front, one or
more digits are read and nothing else; a minus sign is never read. -/
theorem numerals_may_have_a_plus (text : String) :
    (∀ rest, Marked text.toList rest →
      (∀ key, Command.parseKey text.toList = .ok key ↔
        key ≠ .unknown ∧ ∃ n, Numeral 16 rest n ∧ n < 2 ^ 32 ∧ key = Key.ofKeysym n.toUInt32) ∧
      (rest.head? ≠ some '+' → ∀ key, Command.parseKey text.toList = .ok key ↔
        key ≠ .unknown ∧ ∃ n, Writes 16 rest n ∧ n < 2 ^ 32 ∧ key = Key.ofKeysym n.toUInt32) ∧
      ('-' ∈ rest → ∀ key, Command.parseKey text.toList ≠ .ok key)) ∧
    (∀ word, Arguments.readKey text = .ok word ↔
      (∃ rest, Marked text.toList rest ∧ Numeral 16 rest word.toNat) ∨
        Numeral 10 text.toList word.toNat) ∧
    (text.toList.head? ≠ some '+' →
      (∀ rest, Marked text.toList rest → rest.head? ≠ some '+') →
        ∀ word, Arguments.readKey text = .ok word ↔
          (∃ rest, Marked text.toList rest ∧ Writes 16 rest word.toNat) ∨
            Writes 10 text.toList word.toNat) ∧
    ('-' ∈ text.toList → ∀ word, Arguments.readKey text ≠ .ok word) := by
  have hplain : ∀ {radix n} {cs : List Char}, cs.head? ≠ some '+' →
      (Numeral radix cs n ↔ Writes radix cs n) := fun hplus =>
    numeral_iff_writes fun digits heq => hplus (congrArg List.head? heq)
  have hminus : ∀ {radix n} {cs : List Char}, '-' ∈ cs → ¬ Numeral radix cs n :=
    fun hmem h => absurd (h.mem hmem) (by decide)
  refine ⟨fun rest h => ?_, fun word => Arguments.readKey_eq_ok_iff, fun hplus hrest word => ?_,
    fun hmem word hword => ?_⟩
  · have hsymbol : ∀ key, Command.parseKey text.toList = .ok key ↔
        key ≠ .unknown ∧ ∃ n, Numeral 16 rest n ∧ n < 2 ^ 32 ∧ key = Key.ofKeysym n.toUInt32 :=
      fun key => by rw [Command.parseKey_eq_ok_iff, Command.lookupKey_of_marked h]
    refine ⟨hsymbol, fun hplus key => ?_, fun hmem key hkey => ?_⟩
    · rw [hsymbol key]
      simp only [hplain hplus]
    · obtain ⟨-, n, hn, -⟩ := (hsymbol key).mp hkey
      exact hminus hmem hn
  · rw [Arguments.readKey_eq_ok_iff, hplain hplus]
    exact or_congr_left (exists_congr fun rest =>
      and_congr_right fun h => hplain (hrest rest h))
  · rcases Arguments.readKey_eq_ok_iff.mp hword with ⟨rest, h, hn⟩ | hn
    · have hrest : '-' ∈ rest := by
        rcases h with h | h <;> simpa [h] using hmem
      exact hminus hrest hn
    · exact hminus hmem hn

/-- The symbol of a key in hexadecimal, and a segment by its decimal key. -/
theorem numerals_of_enter_and_forty_two :
    Command.parseKey "0XFf0d".toList = .ok .enter ∧ Arguments.readKey "042" = .ok 42 ∧
      (∀ key, Command.parseKey "0x6-1".toList ≠ .ok key) ∧
      ∀ word, Arguments.readKey "-1" ≠ .ok word := by
  have henter : Writes 16 ['F', 'f', '0', 'd'] 0xff0d :=
    ⟨by decide, [15, 15, 0, 13], by simp [IsDigit, Color.hexTable], by decide⟩
  have hforty : Writes 10 "042".toList 42 :=
    ⟨by decide, [0, 4, 2], by simp [IsDigit, Color.hexTable], by decide⟩
  have hunmarked : ∀ rest, Marked "042".toList rest → rest.head? ≠ some '+' := by
    rintro rest (h | h) <;> exact absurd (List.cons.inj (List.cons.inj h).2).1 (by decide)
  have hsymbol := ((numerals_may_have_a_plus "0XFf0d").1 _ (Or.inr rfl)).2.1 (by decide)
  have hword := (numerals_may_have_a_plus "042").2.2.1 (by decide) hunmarked
  exact ⟨(hsymbol _).mpr ⟨by decide, 0xff0d, henter, by decide, by decide⟩,
    (hword 42).mpr (Or.inr hforty),
    ((numerals_may_have_a_plus "0x6-1").1 _ (Or.inl rfl)).2.2 (by decide),
    (numerals_may_have_a_plus "-1").2.2.2 (by decide)⟩

/-- **A plus sign is read where only digits are expected**: behind the mark of a key
symbol, and in front of the key of a segment. -/
theorem plus_sign_is_read :
    (Command.parseKey ['0', 'x', '+', '6', '1'] = .ok .keyA ∧ ∀ n, ¬ Writes 16 ['+', '6', '1'] n) ∧
      Arguments.readKey "+42" = .ok 42 ∧
      (∀ rest, ¬ Marked "+42".toList rest) ∧ ∀ n, ¬ Writes 10 "+42".toList n := by
  refine ⟨⟨by decide, fun n => not_writes_plus⟩, by decide, fun rest h => ?_, fun n => not_writes_plus⟩
  rcases h with h | h <;> exact absurd (List.cons.inj h).1 (by decide)

end Text
end ScreenBridge
