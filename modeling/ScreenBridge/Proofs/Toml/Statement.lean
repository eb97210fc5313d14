/-
# Written sections are read back as statements

Every line of a section is read as one statement, and what stands behind it is left
(`Toml.Reads`): a header as a header, a field as an entry under its key. So the text
of some sections is read as the statements of all of them
(`Toml.statements_documentText`), if their keys need no quotes and their numbers are
64-bit signed words (`Toml.Section.Readable`).

Key definitions: `Toml.Literal.value`, `Toml.Section.statements`,
`Toml.Section.Readable`, `Toml.Reads`, `Toml.documentText`, `Toml.Yields`.
Key theorems: `Toml.scanNumber_toDigits`, `Toml.scanValue_write`,
`Toml.reads_writeField`, `Toml.statements_documentText`.
-/
import ScreenBridge.Proofs.Toml.Text
import ScreenBridge.Toml.Section
import ScreenBridge.Toml.Statement

namespace ScreenBridge
namespace Toml

variable {c : Char} {cs rest : List Char} {n : ℕ}

/-! ### Numbers -/

theorem toNat_of_isDigitIn (h : isDigitIn 10 c = true) : 48 ≤ c.toNat ∧ c.toNat ≤ 57 := by
  unfold isDigitIn Text.digitIn Text.digitValue at h
  split_ifs at h with hdigit hlower hupper
  · exact ⟨hdigit.1, hdigit.2⟩
  · have hle : 97 ≤ c.toNat := hlower.1
    simp only [Option.filter_some, decide_eq_true_eq, Option.isSome_ite] at h
    omega
  · have hle : 65 ≤ c.toNat := hupper.1
    simp only [Option.filter_some, decide_eq_true_eq, Option.isSome_ite] at h
    omega
  · simp at h

theorem ne_of_isDigitIn {x : Char} (h : isDigitIn 10 c = true) (hx : isDigitIn 10 x = false) :
    c ≠ x := by
  rintro rfl
  exact absurd (h.symm.trans hx) (by decide)

theorem digitIn_digitChar {d : ℕ} (hd : d < 10) : Text.digitIn 10 d.digitChar = some d := by
  have hall : ∀ d : Fin 10, Text.digitIn 10 (d : ℕ).digitChar = some (d : ℕ) := by decide
  exact hall ⟨d, hd⟩

theorem toDigits_eq (n : ℕ) :
    Nat.toDigits 10 n =
      if n < 10 then [n.digitChar] else Nat.toDigits 10 (n / 10) ++ [(n % 10).digitChar] := by
  split_ifs with hn
  · exact Nat.toDigits_of_lt_base hn
  · exact Nat.toDigits_of_base_le (by omega) (by omega)

/-- **What a written number looks like**: digits, of which the first is a zero only for
zero. -/
theorem toDigits_cases (n : ℕ) :
    ∃ c cs, Nat.toDigits 10 n = c :: cs ∧ (∀ d ∈ c :: cs, isDigitIn 10 d = true) ∧
      (c = '0' → n = 0) := by
  have hlast : ∀ {d : ℕ}, d < 10 → isDigitIn 10 d.digitChar = true := fun hd => by
    rw [isDigitIn, digitIn_digitChar hd, Option.isSome_some]
  induction n using Nat.strongRecOn with
  | _ n ih =>
    rw [toDigits_eq]
    split_ifs with hn
    · refine ⟨_, [], rfl, by simpa using hlast hn, fun hzero => ?_⟩
      have hdigit := digitIn_digitChar hn
      rw [hzero] at hdigit
      exact (Option.some.inj hdigit).symm
    · obtain ⟨c, cs, hcs, hall, hzero⟩ := ih (n / 10) (by omega)
      refine ⟨c, cs ++ [(n % 10).digitChar], by rw [hcs, List.cons_append], ?_, fun h => ?_⟩
      · rw [← List.cons_append, List.forall_mem_append]
        exact ⟨hall, by simpa using hlast (Nat.mod_lt n (by decide))⟩
      · have := hzero h
        omega

theorem valueOf_toDigits (n : ℕ) : valueOf 10 (Nat.toDigits 10 n) = n := by
  induction n using Nat.strongRecOn with
  | _ n ih =>
    rw [toDigits_eq]
    split_ifs with hn
    · simp [valueOf, digitIn_digitChar hn]
    · have hrest := ih (n / 10) (by omega)
      rw [valueOf] at hrest
      rw [valueOf, List.foldl_append, hrest, List.foldl_cons, List.foldl_nil,
        digitIn_digitChar (Nat.mod_lt n (by decide)), Option.getD_some]
      omega

theorem isGrouped_cons : ∀ {cs : List Char} {c : Char}, (∀ d ∈ c :: cs, d ≠ '_') →
    isGrouped (c :: cs) = true
  | [], c, h => by
    rw [isGrouped.eq_def]
    split <;> simp_all
  | d :: cs, c, h => by
    have ih : isGrouped (d :: cs) = true := isGrouped_cons (List.forall_mem_cons.mp h).2
    rw [isGrouped.eq_def]
    split <;> simp_all

/-- Digits are taken up to a character that is none. -/
theorem scanDigits_append (hall : ∀ d ∈ c :: cs, isDigitIn 10 d = true) :
    scanDigits 10 (c :: cs ++ '\n' :: rest) = some (c :: cs, '\n' :: rest) := by
  have hpart : ∀ d ∈ c :: cs, (isDigitIn 10 d || d = '_') = true := fun d hd => by
    simp [hall d hd]
  have hother : ∀ d ∈ c :: cs, d ≠ '_' := fun d hd h => by
    have := toNat_of_isDigitIn (hall d hd)
    rw [h] at this
    exact absurd this (by decide)
  have hend : ¬ (isDigitIn 10 '\n' || decide ('\n' = '_')) = true := by decide
  have hrun : (c :: cs ++ '\n' :: rest).takeWhile (fun d => isDigitIn 10 d || d = '_') = c :: cs := by
    rw [List.takeWhile_append_of_pos hpart, List.takeWhile_cons_of_neg (by exact hend),
      List.append_nil]
  have hrest : (c :: cs ++ '\n' :: rest).dropWhile (fun d => isDigitIn 10 d || d = '_') =
      '\n' :: rest := by
    rw [List.dropWhile_append_of_pos hpart, List.dropWhile_cons_of_neg (by exact hend)]
  unfold scanDigits
  dsimp only
  rw [hrun, hrest, isGrouped_cons hother, if_pos rfl,
    List.filter_eq_self.mpr (by simpa using hother)]

theorem scanWhole_append (hall : ∀ d ∈ c :: cs, isDigitIn 10 d = true)
    (hzero : c = '0' → cs = []) :
    scanWhole (c :: cs ++ '\n' :: rest) = some (c :: cs, '\n' :: rest) := by
  unfold scanWhole
  rw [scanDigits_append hall]
  split
  · rename_i heq
    obtain ⟨⟨rfl, rfl⟩, rfl⟩ := by simpa using heq
    rfl
  · rename_i hsingle heq
    simp only [Option.some.injEq, Prod.mk.injEq, List.cons.injEq] at heq
    obtain ⟨⟨rfl, rfl⟩, rfl⟩ := heq
    exact absurd (hzero rfl) (by simpa using hsingle)
  · rfl

theorem integer?_of_lt (h : n < Text.signedBound) : integer? (n : ℤ) = some (.integer n) :=
  if_pos ⟨by omega, by exact_mod_cast h⟩

theorem skipSign_of_isDigitIn (h : isDigitIn 10 c = true) (cs : List Char) :
    skipSign (c :: cs) = (false, c :: cs) := by
  rw [skipSign.eq_def]
  split
  · rename_i heq
    exact absurd (List.cons.inj heq).1 (ne_of_isDigitIn h (by decide))
  · rename_i heq
    exact absurd (List.cons.inj heq).1 (ne_of_isDigitIn h (by decide))
  · rfl

theorem scanSpecial_of_isDigitIn (h : isDigitIn 10 c = true) (cs : List Char) :
    scanSpecial (c :: cs) = none := by
  rw [scanSpecial.eq_def]
  split
  · rename_i heq
    exact absurd (List.cons.inj heq).1 (ne_of_isDigitIn h (by decide))
  · rename_i heq
    exact absurd (List.cons.inj heq).1 (ne_of_isDigitIn h (by decide))
  · rfl

/-- **A written number is read.** -/
theorem scanNumber_toDigits (h : n < Text.signedBound) (rest : List Char) :
    scanNumber (Nat.toDigits 10 n ++ '\n' :: rest) = some (.integer n, '\n' :: rest) := by
  obtain ⟨c, cs, hcs, hall, hzero⟩ := toDigits_cases n
  have hdigit := hall c List.mem_cons_self
  have hsingle : c = '0' → cs = [] := fun hc => by
    rw [hzero hc] at hcs
    exact (List.cons.inj hcs).2.symm
  have hvalue := valueOf_toDigits n
  rw [hcs] at hvalue ⊢
  have hdecimal : scanDecimal (c :: cs ++ '\n' :: rest) = some (.integer n, '\n' :: rest) := by
    unfold scanDecimal
    rw [List.cons_append, skipSign_of_isDigitIn hdigit]
    dsimp only
    rw [← List.cons_append, scanWhole_append hall hsingle]
    simp [scanFraction, scanExponent, hvalue, integer?_of_lt h]
  rw [scanNumber.eq_def]
  split
  case h_4 =>
    rw [List.cons_append, skipSign_of_isDigitIn hdigit, scanSpecial_of_isDigitIn hdigit]
    exact hdecimal
  all_goals
    -- no mark follows a zero, since it stands alone
    rename_i heq
    obtain ⟨hc, htail⟩ := List.cons.inj heq
    rw [hsingle hc] at htail
    exact absurd (List.cons.inj htail).1 (by decide)

/-! ### Dates and times -/

/-- Only digits, and then the end of the line, stand behind digits that are taken from a
written number. -/
theorem expect_scanField (hall : ∀ d ∈ cs, isDigitIn 10 d = true) {x : Char}
    (hx : isDigitIn 10 x = false) (hnewline : x ≠ '\n') (count least most : ℕ) :
    ((scanField count least most (cs ++ '\n' :: rest)).bind fun (_, cs) => expect x cs) = none := by
  unfold scanField
  by_cases hcount : count ≤ cs.length
  · have hexpect : expect x ((cs ++ '\n' :: rest).drop count) = none := by
      rw [List.drop_append_of_le_length hcount]
      cases hdrop : cs.drop count with
      | nil => exact if_neg (Ne.symm hnewline)
      | cons d ds =>
        have hd : d ∈ cs := List.mem_of_mem_drop (hdrop ▸ List.mem_cons_self)
        exact if_neg (ne_of_isDigitIn (hall d hd) hx)
    dsimp only
    split_ifs <;> simp [hexpect]
  · obtain ⟨k, hk⟩ : ∃ k, count - cs.length = k + 1 := ⟨count - cs.length - 1, by omega⟩
    have hmem : '\n' ∈ (cs ++ '\n' :: rest).take count := by
      rw [List.take_append, hk, List.take_succ_cons]
      exact List.mem_append_right _ List.mem_cons_self
    have hdigits : ¬ ((cs ++ '\n' :: rest).take count).all (isDigitIn 10) = true := fun h =>
      absurd (List.all_eq_true.mp h _ hmem) (by decide)
    dsimp only
    rw [if_neg fun h => hdigits h.2, Option.bind_none]

theorem beginsDate_append (hall : ∀ d ∈ cs, isDigitIn 10 d = true) :
    beginsDate (cs ++ '\n' :: rest) = false := by
  rw [beginsDate, expect_scanField hall (by decide) (by decide), Option.isSome_none]

theorem beginsTime_append (hall : ∀ d ∈ cs, isDigitIn 10 d = true) :
    beginsTime (cs ++ '\n' :: rest) = false := by
  rw [beginsTime, expect_scanField hall (by decide) (by decide), Option.isSome_none]

/-! ### Values -/

namespace Literal

/-- The value that is written. -/
def value : Literal → Value
  | text s => .string s
  | number n => .integer n
  | flag b => .boolean b
  | emptyArray => .array []

/-- The value can be written: a number is a 64-bit signed word. -/
def Fits : Literal → Prop
  | number n => n < Text.signedBound
  | _ => True

end Literal

theorem writeText_cases (s : String) :
    ∃ c cs, writeText s = c :: cs ∧ (c = '"' ∨ c = apostrophe) := by
  unfold writeText
  cases TextStyle.choose s.toList
  · exact ⟨_, _, rfl, Or.inl rfl⟩
  · exact ⟨_, _, rfl, Or.inr rfl⟩
  · exact ⟨_, _, rfl, Or.inl rfl⟩
  · exact ⟨_, _, rfl, Or.inr rfl⟩

theorem scanValue_cons (hbracket : c ≠ '[') (hbrace : c ≠ '\x7b') :
    scanValue (c :: cs) = scanScalar (c :: cs) := by
  change scanValueIn (78 + 1) (c :: cs) = _
  rw [scanValueIn.eq_def]
  dsimp only
  split
  · rename_i heq
    exact absurd (List.cons.inj heq).1 hbracket
  · rename_i heq
    exact absurd (List.cons.inj heq).1 hbrace
  · rfl

theorem scanScalar_cons (ht : c ≠ 't') (hf : c ≠ 'f') :
    scanScalar (c :: cs) =
      match scanText (c :: cs) with
      | some (text, rest) => some (.string (String.ofList text), rest)
      | none =>
        if beginsDate (c :: cs) || beginsTime (c :: cs) then scanMoment (c :: cs)
        else scanNumber (c :: cs) := by
  rw [scanScalar.eq_def]
  split
  · rename_i heq
    exact absurd (List.cons.inj heq).1 ht
  · rename_i heq
    exact absurd (List.cons.inj heq).1 hf
  · rfl

theorem scanText_cons_of_ne (hquote : c ≠ '"') (hapostrophe : c ≠ apostrophe) :
    scanText (c :: cs) = none := by
  have hnone : ∀ {quote : Char}, c ≠ quote → opening? quote (c :: cs) = none := fun h =>
    opening?_eq_none (by rw [leadingRun_cons_of_ne h]; exact Nat.zero_le 2)
  rw [scanText, hnone hquote, hnone hapostrophe]
  simp [scanShortText, hquote, hapostrophe]

/-- **A written value is read back.** -/
theorem scanValue_write {l : Literal} (h : l.Fits) (rest : List Char) :
    scanValue (l.write ++ '\n' :: rest) = some (l.value, '\n' :: rest) := by
  cases l with
  | text s =>
    have htext := scanText_writeText rest s
    obtain ⟨c, cs, hcs, hquote⟩ := writeText_cases s
    have hne : ∀ x, x ≠ '"' → x ≠ apostrophe → c ≠ x := by
      rintro x hx hx' rfl
      exact hquote.elim hx hx'
    rw [hcs, List.cons_append] at htext
    rw [Literal.write, hcs, List.cons_append, scanValue_cons (hne _ (by decide) (by decide)) (hne _ (by decide) (by decide)),
      scanScalar_cons (hne _ (by decide) (by decide)) (hne _ (by decide) (by decide)), htext]
    simp [Literal.value]
  | number n =>
    have hnumber := scanNumber_toDigits h rest
    obtain ⟨c, cs, hcs, hall, -⟩ := toDigits_cases n
    have hne : ∀ x, isDigitIn 10 x = false → c ≠ x := fun x hx =>
      ne_of_isDigitIn (hall c List.mem_cons_self) hx
    have hdate : beginsDate (c :: cs ++ '\n' :: rest) = false := beginsDate_append hall
    have htime : beginsTime (c :: cs ++ '\n' :: rest) = false := beginsTime_append hall
    rw [hcs, List.cons_append] at hnumber
    rw [List.cons_append] at hdate htime
    rw [Literal.write, hcs, List.cons_append, scanValue_cons (hne _ (by decide)) (hne _ (by decide)),
      scanScalar_cons (hne _ (by decide)) (hne _ (by decide)),
      scanText_cons_of_ne (hne _ (by decide)) (hne _ (by decide)), hdate, htime]
    exact hnumber
  | flag b => cases b <;> rfl
  | emptyArray => rfl

/-! ### Keys -/

/-- The key needs no quotes. -/
def IsBare (key : String) : Prop := key.toList ≠ [] ∧ ∀ c ∈ key.toList, isBareChar c = true

instance (key : String) : Decidable (IsBare key) :=
  @instDecidableAnd _ _ inferInstance (List.decidableBAll _ _)

theorem ne_of_isBareChar {x : Char} (h : isBareChar c = true) (hx : isBareChar x = false) :
    c ≠ x := by
  rintro rfl
  exact absurd (h.symm.trans hx) (by decide)

theorem IsBare.exists_cons {key : String} (h : IsBare key) :
    ∃ c cs, key.toList = c :: cs ∧ isBareChar c = true := by
  obtain ⟨hne, hall⟩ := h
  obtain ⟨c, cs, hcs⟩ := List.exists_cons_of_ne_nil hne
  exact ⟨c, cs, hcs, hall c (hcs ▸ List.mem_cons_self)⟩

theorem skipSpace_cons (h : isSpace c = false) (cs : List Char) : skipSpace (c :: cs) = c :: cs := by
  rw [skipSpace, List.dropWhile_cons_of_neg (by rw [h]; decide)]

theorem IsBare.skipSpace_append {key : String} (h : IsBare key) (cs : List Char) :
    skipSpace (key.toList ++ cs) = key.toList ++ cs := by
  obtain ⟨c, cs', hcs, hc⟩ := h.exists_cons
  have hspace : isSpace c = false := by
    simp [isSpace, ne_of_isBareChar hc (show isBareChar ' ' = false by decide),
      ne_of_isBareChar hc (show isBareChar '\t' = false by decide)]
  rw [hcs, List.cons_append, skipSpace_cons hspace]

theorem scanKey_append {key : String} (h : IsBare key) {x : Char} (hx : isBareChar x = false)
    (rest : List Char) : scanKey (key.toList ++ x :: rest) = some (key, x :: rest) := by
  obtain ⟨c, cs, hcs, hc⟩ := h.exists_cons
  have hshort : scanShortText (key.toList ++ x :: rest) = none := by
    rw [hcs, List.cons_append, scanShortText, if_neg (ne_of_isBareChar hc (by decide)),
      if_neg (ne_of_isBareChar hc (by decide))]
  have hx' : ¬ isBareChar x = true := by
    rw [hx]
    decide
  have hrun : (key.toList ++ x :: rest).takeWhile isBareChar = key.toList := by
    rw [List.takeWhile_append_of_pos h.2, List.takeWhile_cons_of_neg hx', List.append_nil]
  have hrest : (key.toList ++ x :: rest).dropWhile isBareChar = x :: rest := by
    rw [List.dropWhile_append_of_pos h.2, List.dropWhile_cons_of_neg hx']
  rw [scanKey, hshort]
  dsimp only
  rw [hrun, hrest, if_neg (by simpa using h.1), String.ofList_toList]

theorem scanKeyPathUpTo_last {key : String} (h : IsBare key) {x y : Char} {rest rest' : List Char}
    (hx : isBareChar x = false) (hskip : skipSpace (x :: rest) = y :: rest') (hy : y ≠ '.') (n : ℕ) :
    scanKeyPathUpTo (n + 1) (key.toList ++ x :: rest) = some (⟨[], key⟩, y :: rest') := by
  rw [scanKeyPathUpTo, h.skipSpace_append, scanKey_append h hx]
  dsimp only
  rw [hskip]
  split
  · rename_i heq
    exact absurd (List.cons.inj heq).1 hy
  · rfl

theorem scanKeyPathUpTo_dot {key : String} (h : IsBare key) (rest : List Char) (n : ℕ) :
    scanKeyPathUpTo (n + 1) (key.toList ++ '.' :: rest) =
      (scanKeyPathUpTo n rest).map fun (path, rest) => (⟨key :: path.parents, path.last⟩, rest) := by
  rw [scanKeyPathUpTo, h.skipSpace_append, scanKey_append h (by decide)]
  rfl

theorem scanKeyPath_last {key : String} (h : IsBare key) {x y : Char} {rest rest' : List Char}
    (hx : isBareChar x = false) (hskip : skipSpace (x :: rest) = y :: rest') (hy : y ≠ '.') :
    scanKeyPath (key.toList ++ x :: rest) = some (⟨[], key⟩, y :: rest') :=
  scanKeyPathUpTo_last h hx hskip hy 78

theorem scanKeyPath_dot {key : String} (h : IsBare key) (rest : List Char) :
    scanKeyPath (key.toList ++ '.' :: rest) =
      (scanKeyPathUpTo 78 rest).map fun (path, rest) => (⟨key :: path.parents, path.last⟩, rest) :=
  scanKeyPathUpTo_dot h rest 78

/-! ### Lines -/

namespace Heading

/-- What the line of a header says. -/
def statement : Heading → Statement
  | table key => .header ⟨[], key⟩
  | element parent key => .elementHeader ⟨[parent], key⟩

/-- Its keys need no quotes. -/
def Readable : Heading → Prop
  | table key => IsBare key
  | element parent key => IsBare parent ∧ IsBare key

end Heading

/-- What the line of a field says. -/
def fieldStatement (field : String × Literal) : Statement := .entry ⟨[], field.1⟩ field.2.value

namespace Section

/-- What the lines of a section say. -/
def statements (s : Section) : List Statement := s.heading.statement :: s.fields.map fieldStatement

/-- Its keys need no quotes and its values can be written. -/
structure Readable (s : Section) : Prop where
  heading : s.heading.Readable
  fields : ∀ field ∈ s.fields, IsBare field.1 ∧ field.2.Fits

end Section

/-- The line begins with no space, and whatever stands behind it, it is read as the
statement, or as none, up to its end. -/
structure Reads (line : List Char) (statement? : Option Statement) : Prop where
  begins : ∃ c cs, line = c :: cs ∧ isSpace c = false
  scan : ∀ rest, scanStatement (line ++ rest) = some (statement?, rest)

theorem reads_newline : Reads ['\n'] none := ⟨⟨_, _, rfl, by decide⟩, fun _ => rfl⟩

theorem Literal.write_begins (l : Literal) : ∃ c cs, l.write = c :: cs ∧ isSpace c = false := by
  cases l with
  | text s =>
    obtain ⟨c, cs, hcs, rfl | rfl⟩ := writeText_cases s
    · exact ⟨_, cs, hcs, by decide⟩
    · exact ⟨_, cs, hcs, by decide⟩
  | number n =>
    obtain ⟨c, cs, hcs, hall, -⟩ := toDigits_cases n
    have hne : ∀ x, isDigitIn 10 x = false → c ≠ x := fun x hx =>
      ne_of_isDigitIn (hall c List.mem_cons_self) hx
    exact ⟨c, cs, hcs, by simp [isSpace, hne ' ' (by decide), hne '\t' (by decide)]⟩
  | flag b => cases b <;> exact ⟨_, _, rfl, by decide⟩
  | emptyArray => exact ⟨_, _, rfl, by decide⟩

/-- A line that begins with a bare key gives a value to it. -/
theorem scanStatement_key {key : String} (h : IsBare key) (cs : List Char) :
    scanStatement (key.toList ++ cs) =
      match scanPair scanValue (key.toList ++ cs) with
      | some ((path, value), rest) => (scanLineEnd rest).map (some (.entry path value), ·)
      | none => none := by
  obtain ⟨c, cs', hcs, hc⟩ := h.exists_cons
  rw [hcs, List.cons_append, scanStatement.eq_def]
  split
  case h_6 => rfl
  all_goals
    rename_i heq
    exact absurd (List.cons.inj heq).1 (ne_of_isBareChar hc (by decide))

/-- A bracket in front of a bare key opens a header. -/
theorem scanStatement_header {key : String} (h : IsBare key) (cs : List Char) :
    scanStatement ('[' :: (key.toList ++ cs)) =
      match scanKeyPath (key.toList ++ cs) with
      | some (path, ']' :: rest) => (scanLineEnd rest).map (some (.header path), ·)
      | _ => none := by
  obtain ⟨c, cs', hcs, hc⟩ := h.exists_cons
  rw [hcs, List.cons_append, scanStatement.eq_def]
  split
  case h_1 heq =>
    exact absurd (List.cons.inj (List.cons.inj heq).2).1 (ne_of_isBareChar hc (by decide))
  case h_2 heq =>
    obtain rfl := (List.cons.inj heq).2
    rfl
  case h_6 hbracket _ _ _ => exact absurd rfl (hbracket _)
  all_goals
    rename_i heq
    exact absurd (List.cons.inj heq).1 (by decide)

/-- **A written field is read back.** -/
theorem reads_writeField {field : String × Literal} (hkey : IsBare field.1) (h : field.2.Fits) :
    Reads (writeField field) (some (fieldStatement field)) := by
  obtain ⟨key, l⟩ := field
  obtain ⟨c, cs, hcs, hc⟩ := hkey.exists_cons
  constructor
  · refine ⟨c, _, by rw [writeField, hcs]; rfl, ?_⟩
    simp [isSpace, ne_of_isBareChar hc (show isBareChar ' ' = false by decide),
      ne_of_isBareChar hc (show isBareChar '\t' = false by decide)]
  · intro rest
    have hline : writeField (key, l) ++ rest =
        key.toList ++ ' ' :: '=' :: ' ' :: (l.write ++ '\n' :: rest) := by
      simp [writeField]
    have hskip : skipSpace (' ' :: (l.write ++ '\n' :: rest)) = l.write ++ '\n' :: rest := by
      obtain ⟨d, ds, hds, hspace⟩ := l.write_begins
      rw [hds, List.cons_append]
      exact skipSpace_cons hspace _
    have hpair : scanPair scanValue (key.toList ++ ' ' :: '=' :: ' ' :: (l.write ++ '\n' :: rest)) =
        some ((⟨[], key⟩, l.value), '\n' :: rest) := by
      rw [scanPair, scanKeyPath_last hkey (by decide) rfl (by decide)]
      change (scanValue (skipSpace (' ' :: (l.write ++ '\n' :: rest)))).map _ = _
      rw [hskip, scanValue_write h, Option.map_some]
    rw [hline, scanStatement_key hkey, hpair]
    rfl

/-- **A written header is read back.** -/
theorem Heading.reads_write {heading : Heading} (h : heading.Readable) :
    Reads heading.write (some heading.statement) := by
  cases heading with
  | table key =>
    refine ⟨⟨_, _, rfl, by decide⟩, fun rest => ?_⟩
    have hline : (Heading.table key).write ++ rest = '[' :: (key.toList ++ ']' :: '\n' :: rest) := by
      simp [Heading.write]
    rw [hline, scanStatement_header h, scanKeyPath_last h (by decide) rfl (by decide)]
    rfl
  | element parent key =>
    refine ⟨⟨_, _, rfl, by decide⟩, fun rest => ?_⟩
    have hline : (Heading.element parent key).write ++ rest =
        '[' :: '[' :: (parent.toList ++ '.' :: (key.toList ++ ']' :: ']' :: '\n' :: rest)) := by
      simp [Heading.write]
    have hpath : scanKeyPath (parent.toList ++ '.' :: (key.toList ++ ']' :: ']' :: '\n' :: rest)) =
        some (⟨[parent], key⟩, ']' :: ']' :: '\n' :: rest) := by
      rw [scanKeyPath_dot h.1, scanKeyPathUpTo_last h.2 (by decide) rfl (by decide)]
      rfl
    rw [hline, scanStatement, hpath]
    rfl

/-! ### Documents -/

/-- The text has these statements, in however many lines it is read. -/
def Yields (cs : List Char) (statements : List Statement) : Prop :=
  ∀ n, cs.length < n → statementsUpTo n cs = some statements

theorem yields_nil : Yields [] [] := fun n h => by
  obtain ⟨n, rfl⟩ : ∃ k, n = k + 1 := ⟨n - 1, by omega⟩
  rfl

/-- One line comes to its statement, and the lines behind it to theirs. -/
theorem Reads.append {line : List Char} {statement? : Option Statement}
    {statements : List Statement} (hline : Reads line statement?) (hrest : Yields rest statements) :
    Yields (line ++ rest) (statement?.toList ++ statements) := by
  intro n hn
  obtain ⟨c, cs, rfl, hspace⟩ := hline.begins
  obtain ⟨n, rfl⟩ : ∃ k, n = k + 1 := ⟨n - 1, by omega⟩
  have hscan := hline.scan rest
  have hshort : rest.length < n := by
    simp only [List.length_append, List.length_cons] at hn
    omega
  rw [List.cons_append] at hscan ⊢
  rw [statementsUpTo, skipSpace_cons hspace]
  dsimp only
  rw [hscan]
  dsimp only
  rw [hrest n hshort, Option.map_some]

theorem yields_fields {statements : List Statement} (hrest : Yields rest statements) :
    ∀ {fields : List (String × Literal)}, (∀ field ∈ fields, IsBare field.1 ∧ field.2.Fits) →
      Yields (fields.flatMap writeField ++ rest) (fields.map fieldStatement ++ statements)
  | [], _ => hrest
  | field :: fields, h => by
    obtain ⟨⟨hkey, hfits⟩, h⟩ := List.forall_mem_cons.mp h
    rw [List.flatMap_cons, List.append_assoc]
    exact (reads_writeField hkey hfits).append (yields_fields hrest h)

theorem Section.Readable.yields {s : Section} (h : s.Readable) {statements : List Statement}
    (hrest : Yields rest statements) : Yields (s.write ++ rest) (s.statements ++ statements) := by
  rw [Section.write, List.append_assoc]
  exact (Heading.reads_write h.heading).append (yields_fields hrest h.fields)

theorem yields_writeSections : ∀ {ss : List Section}, (∀ s ∈ ss, s.Readable) →
    Yields (writeSections ss) (ss.flatMap Section.statements)
  | [], _ => yields_nil
  | [s], h => by
    rw [writeSections, List.flatMap_singleton, ← List.append_nil s.write,
      ← List.append_nil s.statements]
    exact (h s List.mem_cons_self).yields yields_nil
  | s :: t :: ss, h => by
    obtain ⟨hs, hss⟩ := List.forall_mem_cons.mp h
    exact hs.yields (reads_newline.append (yields_writeSections hss))

/-- A document begins with a bracket, if it is not empty. -/
theorem dropByteOrderMark_writeSections (ss : List Section) :
    dropByteOrderMark (writeSections ss) = writeSections ss := by
  have hheading : ∀ (heading : Heading) (cs : List Char),
      dropByteOrderMark (heading.write ++ cs) = heading.write ++ cs := fun heading cs => by
    cases heading <;> rfl
  match ss with
  | [] => rfl
  | [s] => exact hheading s.heading _
  | s :: t :: ss =>
    have hwrite : writeSections (s :: t :: ss) =
        s.heading.write ++ (s.fields.flatMap writeField ++ '\n' :: writeSections (t :: ss)) :=
      List.append_assoc ..
    rw [hwrite, hheading]

/-- **Written sections are read back**, line by line. -/
theorem statements_documentText {ss : List Section} (h : ∀ s ∈ ss, s.Readable) :
    statements (documentText ss) = some (ss.flatMap Section.statements) := by
  rw [statements, documentText, String.toList_ofList, dropByteOrderMark_writeSections]
  exact yields_writeSections h _ (Nat.lt_succ_self _)

end Toml
end ScreenBridge
