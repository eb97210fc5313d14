/-
# Written texts are read back

A text is written in one of four styles, and in whichever it is, reading it gives it
back and stops behind its delimiter (`Toml.scanText_writeText`). Between double quotes
every character is written so that it is read as itself (`Toml.escape_cases`); between
apostrophes the style is chosen only if no character needs an escape. A text over several
lines never has three of its quotes in a row (`Toml.leadingRun_multilineBody`), so the
first three in a row, but for those that still belong to it, are its end
(`Toml.closing?_of_all`).

Key definitions: `Toml.leadingRun`.
Key theorems: `Toml.escape_cases`, `Toml.leadingRun_le_longestRun`,
`Toml.closing?_of_all`, `Toml.scanText_writeText`.
-/
import Mathlib.Data.List.TakeWhile
import ScreenBridge.Proofs.Lines
import ScreenBridge.Toml.TextStyle

namespace ScreenBridge
namespace Toml

variable {c : Char} {cs rest : List Char}

/-! ### Characters between double quotes -/

/-- The digits that a control character is written with are read as it. -/
def IsWrittenCode (c : Char) : Prop :=
  match Text.zeroPadded 4 ((Text.hexDigits c.toNat).map Char.toUpper) with
  | [w, x, y, z] => codePoint? [w, x, y, z] = some c
  | _ => False

instance (c : Char) : Decidable (IsWrittenCode c) := by
  unfold IsWrittenCode
  split <;> infer_instance

theorem isWrittenCode_of_isControl (h : isControl c = true) : IsWrittenCode c := by
  have hascii : ∀ n : Fin 128, isControl (Char.ofNat n) = true → IsWrittenCode (Char.ofNat n) := by
    decide +kernel
  have hc : c.toNat < 128 := by
    simp only [isControl, Bool.or_eq_true, decide_eq_true_eq] at h
    omega
  exact Text.forall_ascii (p := fun c => isControl c = true → IsWrittenCode c) hascii c hc h

/-- **How a character is written**: with a letter behind a backslash that stands for it,
with the digits of its code, or as it is. -/
theorem escape_cases (c : Char) :
    (∃ e, escape c = ['\\', e] ∧ escapedChar? e = some c ∧ e ≠ 'u' ∧ e ≠ 'U') ∨
    (∃ w x y z, escape c = ['\\', 'u', w, x, y, z] ∧ codePoint? [w, x, y, z] = some c) ∨
    (escape c = [c] ∧ isPlain c = true ∧ c ≠ '"' ∧ c ≠ '\\' ∧ c ≠ '\n' ∧ c ≠ '\r') := by
  have hofNat : ∀ {n : ℕ}, c.toNat = n → c = Char.ofNat n := fun h => by
    rw [← h, Char.ofNat_toNat]
  by_cases h08 : c.toNat = 0x08
  · exact Or.inl ⟨'b', if_pos h08, by rw [hofNat h08]; rfl, by decide, by decide⟩
  by_cases htab : c = '\t'
  · exact Or.inl ⟨'t', by rw [htab]; rfl, by rw [htab]; rfl, by decide, by decide⟩
  by_cases hnewline : c = '\n'
  · exact Or.inl ⟨'n', by rw [hnewline]; rfl, by rw [hnewline]; rfl, by decide, by decide⟩
  by_cases h0c : c.toNat = 0x0c
  · exact Or.inl ⟨'f', by rw [hofNat h0c]; rfl, by rw [hofNat h0c]; rfl, by decide, by decide⟩
  by_cases hreturn : c = '\r'
  · exact Or.inl ⟨'r', by rw [hreturn]; rfl, by rw [hreturn]; rfl, by decide, by decide⟩
  by_cases hquote : c = '"'
  · exact Or.inl ⟨'"', by rw [hquote]; rfl, by rw [hquote]; rfl, by decide, by decide⟩
  by_cases hbackslash : c = '\\'
  · exact Or.inl ⟨'\\', by rw [hbackslash]; rfl, by rw [hbackslash]; rfl, by decide, by decide⟩
  have hescape : escape c = if isControl c then
      ['\\', 'u'] ++ Text.zeroPadded 4 ((Text.hexDigits c.toNat).map Char.toUpper) else [c] := by
    simp only [escape, h08, htab, hnewline, h0c, hreturn, hquote, hbackslash, if_false]
  by_cases hcontrol : isControl c = true
  · have hcode := isWrittenCode_of_isControl hcontrol
    rw [hescape, if_pos hcontrol]
    unfold IsWrittenCode at hcode
    split at hcode
    · rename_i w x y z hdigits
      exact Or.inr (Or.inl ⟨w, x, y, z, by rw [hdigits]; rfl, hcode⟩)
    · exact hcode.elim
  · refine Or.inr (Or.inr ⟨by rw [hescape, if_neg hcontrol], ?_, hquote, hbackslash, hnewline, hreturn⟩)
    simp [isPlain, isCommentChar, hcontrol, hbackslash]

/-! ### Texts on one line -/

theorem scanBasic_letter {e : Char} (he : escapedChar? e = some c) (hu : e ≠ 'u') (hU : e ≠ 'U') :
    scanBasic ('\\' :: e :: rest) = consTo c (scanBasic rest) := by
  rw [scanBasic.eq_def]
  split
  case h_6 hnone heq =>
    -- the last alternative is for characters other than the backslash
    obtain ⟨rfl, rfl⟩ := List.cons.inj heq
    exact absurd rfl (hnone e rest rfl)
  all_goals simp_all

theorem scanBasic_code {w x y z : Char} (hcode : codePoint? [w, x, y, z] = some c) :
    scanBasic ('\\' :: 'u' :: w :: x :: y :: z :: rest) = consTo c (scanBasic rest) := by
  simp only [scanBasic, hcode]

theorem scanBasic_plain (hplain : isPlain c = true) (hquote : c ≠ '"') (hbackslash : c ≠ '\\') :
    scanBasic (c :: rest) = consTo c (scanBasic rest) := by
  rw [scanBasic.eq_def]
  split <;> simp_all

theorem scanBasic_escape (c : Char) (rest : List Char) :
    scanBasic (escape c ++ rest) = consTo c (scanBasic rest) := by
  rcases escape_cases c with ⟨e, h, he, hu, hU⟩ | ⟨w, x, y, z, h, hcode⟩ | ⟨h, hplain, hq, hb, -, -⟩ <;>
    rw [h]
  · exact scanBasic_letter he hu hU
  · exact scanBasic_code hcode
  · exact scanBasic_plain hplain hq hb

theorem scanBasic_escapes : ∀ cs : List Char,
    scanBasic (cs.flatMap escape ++ '"' :: rest) = some (cs, rest)
  | [] => rfl
  | c :: cs => by
    rw [List.flatMap_cons, List.append_assoc, scanBasic_escape, scanBasic_escapes cs, consTo]

theorem scanLiteral_append : ∀ cs : List Char, apostrophe ∉ cs → (∀ c ∈ cs, isCommentChar c = true) →
    scanLiteral (cs ++ apostrophe :: rest) = some (cs, rest)
  | [], _, _ => rfl
  | c :: cs, hquote, hchar => by
    rw [List.mem_cons, not_or] at hquote
    obtain ⟨hne, hquote⟩ := hquote
    obtain ⟨hc, hchar⟩ := List.forall_mem_cons.mp hchar
    rw [List.cons_append, scanLiteral, if_neg (Ne.symm hne), if_pos hc,
      scanLiteral_append cs hquote hchar, consTo]

/-! ### Runs of quotes -/

/-- How many of a character stand at the front of a text. -/
def leadingRun (quote : Char) (cs : List Char) : ℕ := (cs.takeWhile (· = quote)).length

variable {quote : Char} {t : List Char}

@[simp] theorem leadingRun_nil : leadingRun quote [] = 0 := rfl

@[simp] theorem leadingRun_cons_self : leadingRun quote (quote :: cs) = leadingRun quote cs + 1 := by
  simp [leadingRun]

@[simp] theorem leadingRun_cons_of_ne (h : c ≠ quote) : leadingRun quote (c :: cs) = 0 := by
  simp [leadingRun, h]

theorem leadingRun_eq_length (h : ∀ c ∈ cs, c = quote) : leadingRun quote cs = cs.length := by
  rw [leadingRun, List.takeWhile_eq_self_iff.mpr (by simpa using h)]

theorem leadingRun_append_of_all (h : ∀ c ∈ t, c = quote) (cs : List Char) :
    leadingRun quote (t ++ cs) = t.length + leadingRun quote cs := by
  rw [leadingRun, List.takeWhile_append_of_pos (by simpa using h), List.length_append, leadingRun]

theorem leadingRun_append_of_not_all : ∀ {t : List Char}, ¬ (∀ c ∈ t, c = quote) →
    ∀ cs, leadingRun quote (t ++ cs) = leadingRun quote t
  | [], h, _ => absurd (by simp) h
  | c :: t, h, cs => by
    by_cases hc : c = quote
    · have ht : ¬ ∀ d ∈ t, d = quote := by simpa [hc] using h
      rw [hc, List.cons_append, leadingRun_cons_self, leadingRun_cons_self,
        leadingRun_append_of_not_all ht]
    · rw [List.cons_append, leadingRun_cons_of_ne hc, leadingRun_cons_of_ne hc]

/-- While it is counted, the longest run never shrinks, and the run that goes on counts. -/
theorem le_longestRunFrom : ∀ (cs : List Char) {run longest : ℕ}, run ≤ longest →
    longest ≤ longestRunFrom quote run longest cs ∧
      run + leadingRun quote cs ≤ longestRunFrom quote run longest cs
  | [], _, _, h => ⟨Nat.le_refl _, h⟩
  | c :: cs, run, longest, h => by
    unfold longestRunFrom
    by_cases hc : c = quote
    · obtain ⟨hlongest, hrun⟩ := le_longestRunFrom cs (Nat.le_max_right longest (run + 1))
      rw [hc, if_pos rfl, leadingRun_cons_self]
      omega
    · obtain ⟨hlongest, -⟩ := le_longestRunFrom cs (Nat.zero_le longest)
      rw [if_neg hc, leadingRun_cons_of_ne hc]
      omega

theorem leadingRun_le_longestRunFrom : ∀ (cs : List Char) {run longest : ℕ}, run ≤ longest →
    t <:+ cs → leadingRun quote t ≤ longestRunFrom quote run longest cs
  | [], _, _, _, ht => by simp [List.suffix_nil.mp ht]
  | c :: cs, run, longest, h, ht => by
    rcases List.suffix_cons_iff.mp ht with rfl | ht
    · exact Nat.le_trans (Nat.le_add_left ..) (le_longestRunFrom (c :: cs) h).2
    · unfold longestRunFrom
      split
      · exact leadingRun_le_longestRunFrom cs (Nat.le_max_right ..) ht
      · exact leadingRun_le_longestRunFrom cs (Nat.zero_le _) ht

theorem leadingRun_le_longestRun (ht : t <:+ cs) : leadingRun quote t ≤ longestRun quote cs :=
  leadingRun_le_longestRunFrom cs (Nat.le_refl 0) ht

theorem not_mem_of_longestRun_eq_zero (h : longestRun quote cs = 0) : quote ∉ cs := by
  intro hmem
  obtain ⟨front, back, rfl⟩ := List.append_of_mem hmem
  have hle : leadingRun quote (quote :: back) ≤ longestRun quote (front ++ quote :: back) :=
    leadingRun_le_longestRun (List.suffix_append ..)
  rw [h, leadingRun_cons_self] at hle
  omega

theorem closing?_of_not_all (hother : ¬ ∀ c ∈ t, c = quote) (ht : leadingRun quote t ≤ 2)
    (cs : List Char) : closing? quote (t ++ cs) = none := by
  have hshort : leadingRun quote (t ++ cs) < 3 := by
    rw [leadingRun_append_of_not_all hother]
    omega
  exact if_pos hshort

/-- **Where a text over several lines ends**: at its delimiter, once nothing but quotes
of its own stands in front of that. -/
theorem closing?_of_all (hall : ∀ c ∈ t, c = quote) (ht : leadingRun quote t ≤ 2)
    (hrest : leadingRun quote rest = 0) :
    closing? quote (t ++ (List.replicate 3 quote ++ rest)) = some (t, rest) := by
  have hrun : ((t ++ (List.replicate 3 quote ++ rest)).takeWhile (· = quote)).length = t.length + 3 := by
    change leadingRun quote _ = _
    rw [leadingRun_append_of_all hall,
      leadingRun_append_of_all fun _ => List.eq_of_mem_replicate, hrest, List.length_replicate]
  have hown : min 2 (t.length + 3 - 3) = t.length := by
    rw [leadingRun_eq_length hall] at ht
    omega
  have hdrop : (t ++ (List.replicate 3 quote ++ rest)).drop (t.length + 3) = rest := by
    rw [← List.append_assoc]
    exact List.drop_left' (by simp)
  unfold closing?
  dsimp only
  rw [hrun, if_neg (by omega), hown, hdrop, ← List.eq_replicate_of_mem hall]

/-! ### Texts over several lines -/

theorem isCommentChar_of_needsEscape (h : needsEscape c = false) (hnewline : c ≠ '\n') :
    isCommentChar c = true := by
  unfold needsEscape at h
  unfold isCommentChar
  grind

theorem scanMultilineLiteral_cons (hnewline : c ≠ '\n') (hreturn : c ≠ '\r') :
    scanMultilineLiteral (c :: cs) =
      match closing? apostrophe (c :: cs) with
      | some result => some result
      | none => if isCommentChar c then consTo c (scanMultilineLiteral cs) else none := by
  rw [scanMultilineLiteral.eq_def]
  split
  case h_4 heq =>
    obtain ⟨rfl, rfl⟩ := List.cons.inj heq
    rfl
  all_goals simp_all

/-- A text that needs no escapes and has no three apostrophes in a row stands for itself
up to the next three. -/
theorem scanMultilineLiteral_append (hrest : leadingRun apostrophe rest = 0) : ∀ cs : List Char,
    (∀ c ∈ cs, needsEscape c = false) → (∀ t, t <:+ cs → leadingRun apostrophe t ≤ 2) →
    scanMultilineLiteral (cs ++ (List.replicate 3 apostrophe ++ rest)) = some (cs, rest)
  | [], _, _ => by
    have hclosing : closing? apostrophe (List.replicate 3 apostrophe ++ rest) = some ([], rest) :=
      closing?_of_all (t := []) (by simp) (Nat.zero_le 2) hrest
    rw [List.nil_append, List.replicate_succ, List.cons_append,
      scanMultilineLiteral_cons (by decide) (by decide), ← List.cons_append, ← List.replicate_succ,
      hclosing]
  | c :: cs, hescape, hrun => by
    have ih := scanMultilineLiteral_append hrest cs
      (fun d hd => hescape d (List.mem_cons_of_mem c hd))
      (fun t ht => hrun t (ht.trans (List.suffix_cons ..)))
    have hc := hescape c List.mem_cons_self
    by_cases hnewline : c = '\n'
    · subst hnewline
      rw [List.cons_append, scanMultilineLiteral, ih, consTo]
    · have hreturn : c ≠ '\r' := by
        rintro rfl
        exact absurd hc (by decide)
      have hchar : isCommentChar c = true := isCommentChar_of_needsEscape hc hnewline
      rw [List.cons_append, scanMultilineLiteral_cons hnewline hreturn, ← List.cons_append]
      by_cases hall : ∀ d ∈ c :: cs, d = apostrophe
      · rw [closing?_of_all hall (hrun _ List.suffix_rfl) hrest]
      · rw [closing?_of_not_all hall (hrun _ List.suffix_rfl)]
        simp only [hchar, if_true, ih, consTo]

section Escaped

open TextStyle

theorem scanMultilineBasic_letter {e : Char} (he : escapedChar? e = some c) (hu : e ≠ 'u')
    (hU : e ≠ 'U') :
    scanMultilineBasic false ('\\' :: e :: rest) = consTo c (scanMultilineBasic false rest) := by
  rw [scanMultilineBasic.eq_def]
  split
  case h_7 hnone heq =>
    obtain ⟨rfl, rfl⟩ := List.cons.inj heq
    exact absurd rfl (hnone e rest rfl)
  all_goals simp_all

theorem scanMultilineBasic_code {w x y z : Char} (hcode : codePoint? [w, x, y, z] = some c) :
    scanMultilineBasic false ('\\' :: 'u' :: w :: x :: y :: z :: rest) =
      consTo c (scanMultilineBasic false rest) := by
  simp only [scanMultilineBasic, hcode]

theorem scanMultilineBasic_newline :
    scanMultilineBasic false ('\n' :: rest) = consTo '\n' (scanMultilineBasic false rest) := by
  simp [scanMultilineBasic]

theorem scanMultilineBasic_cons (hbackslash : c ≠ '\\') (hnewline : c ≠ '\n') (hreturn : c ≠ '\r') :
    scanMultilineBasic false (c :: cs) =
      match closing? '"' (c :: cs) with
      | some result => some result
      | none => if isPlain c then consTo c (scanMultilineBasic false cs) else none := by
  rw [scanMultilineBasic.eq_def]
  split
  case h_7 heq =>
    obtain ⟨rfl, rfl⟩ := List.cons.inj heq
    rfl
  all_goals simp_all

/-- With so many quotes in front of it, the inside of a text does not make three. -/
theorem leadingRun_multilineBody : ∀ (cs : List Char) {run : ℕ}, run ≤ 2 →
    run + leadingRun '"' (multilineBody run cs) ≤ 2
  | [], _, h => h
  | c :: cs, run, h => by
    unfold multilineBody
    split_ifs with hquote hrun hnewline
    · rw [leadingRun_cons_self]
      have := leadingRun_multilineBody cs (show run + 1 ≤ 2 by omega)
      omega
    · exact h
    · exact h
    · rcases escape_cases c with ⟨e, he, -⟩ | ⟨w, x, y, z, he, -⟩ | ⟨he, -⟩ <;> rw [he]
      · exact h
      · exact h
      · rw [List.singleton_append, leadingRun_cons_of_ne hquote]
        exact h

/-- The inside of a text holds nothing but quotes only if the text does. -/
theorem multilineBody_eq_self : ∀ {cs : List Char} {run : ℕ},
    (∀ d ∈ multilineBody run cs, d = '"') → multilineBody run cs = cs
  | [], _, _ => rfl
  | c :: cs, run, h => by
    unfold multilineBody at h ⊢
    split_ifs at h ⊢ with hquote hrun hnewline
    · rw [multilineBody_eq_self (List.forall_mem_cons.mp h).2, hquote]
    · exact absurd (h '\\' (by simp)) (by decide)
    · exact absurd (h '\n' (by simp)) (by decide)
    · rcases escape_cases c with ⟨e, he, -⟩ | ⟨w, x, y, z, he, -⟩ | ⟨he, -⟩ <;> rw [he] at h
      · exact absurd (h '\\' (by simp)) (by decide)
      · exact absurd (h '\\' (by simp)) (by decide)
      · exact absurd (h c (by simp)) hquote

/-- Between three double quotes on either side every text is read as itself, if it is
written so that no three quotes of its own stand in a row. -/
theorem scanMultilineBasic_multilineBody (hrest : leadingRun '"' rest = 0) :
    ∀ (cs : List Char) {run : ℕ}, run ≤ 2 →
    scanMultilineBasic false (multilineBody run cs ++ (List.replicate 3 '"' ++ rest)) =
      some (cs, rest)
  | [], _, _ => by
    have hclosing : closing? '"' (List.replicate 3 '"' ++ rest) = some ([], rest) :=
      closing?_of_all (t := []) (by simp) (Nat.zero_le 2) hrest
    rw [multilineBody, List.nil_append, List.replicate_succ, List.cons_append,
      scanMultilineBasic_cons (by decide) (by decide) (by decide), ← List.cons_append,
      ← List.replicate_succ, hclosing]
  | c :: cs, run, h => by
    have hbody := leadingRun_multilineBody (c :: cs) h
    have hself : (∀ d ∈ multilineBody run (c :: cs), d = '"') →
        multilineBody run (c :: cs) = c :: cs := multilineBody_eq_self
    unfold multilineBody at hbody hself ⊢
    split_ifs at hbody hself ⊢ with hquote hrun hnewline
    · -- a quote that stands for itself belongs to the end if nothing but quotes follows
      rw [List.cons_append, scanMultilineBasic_cons (by decide) (by decide) (by decide),
        ← List.cons_append]
      by_cases hall : ∀ d ∈ '"' :: multilineBody (run + 1) cs, d = '"'
      · rw [closing?_of_all hall (by omega) hrest, hself hall]
      · rw [closing?_of_not_all hall (by omega)]
        dsimp only
        rw [if_pos (by decide), scanMultilineBasic_multilineBody hrest cs (by omega), consTo, hquote]
    · rw [List.append_assoc, List.cons_append, List.singleton_append,
        scanMultilineBasic_letter rfl (by decide) (by decide),
        scanMultilineBasic_multilineBody hrest cs (Nat.zero_le 2), consTo, hquote]
    · rw [List.cons_append, scanMultilineBasic_newline,
        scanMultilineBasic_multilineBody hrest cs (Nat.zero_le 2), consTo, hnewline]
    · have ih := scanMultilineBasic_multilineBody hrest cs (Nat.zero_le 2)
      rcases escape_cases c with ⟨e, he, hletter, hu, hU⟩ | ⟨w, x, y, z, he, hcode⟩ |
        ⟨he, hplain, -, hbackslash, -, hreturn⟩ <;> rw [he, List.append_assoc]
      · exact (scanMultilineBasic_letter hletter hu hU).trans (congrArg (consTo c) ih)
      · exact (scanMultilineBasic_code hcode).trans (congrArg (consTo c) ih)
      · have hnone : ∀ x, closing? '"' (c :: x) = none := fun x => by
          rw [closing?]
          exact if_pos (by simp [hquote])
        rw [List.singleton_append, scanMultilineBasic_cons hbackslash hnewline hreturn, hnone]
        simp only [hplain, if_true, ih, consTo]

end Escaped

/-! ### Texts in the style for them -/

theorem scanNewline_cons (hnewline : c ≠ '\n') (hreturn : c ≠ '\r') :
    scanNewline (c :: cs) = none := by
  rw [scanNewline.eq_def]
  split <;> simp_all

theorem dropNewline_cons (hnewline : c ≠ '\n') (hreturn : c ≠ '\r') :
    dropNewline (c :: cs) = c :: cs := by
  rw [dropNewline, scanNewline_cons hnewline hreturn, Option.getD_none]

namespace TextStyle

/-- **What a style is chosen for.** Between apostrophes stands only what needs no escapes
and does not end too early. -/
theorem choose_cases (cs : List Char) :
    choose cs = .basic ∨ choose cs = .multilineBasic ∨
    (choose cs = .literal ∧ (∀ c ∈ cs, needsEscape c = false) ∧ apostrophe ∉ cs ∧ '\n' ∉ cs) ∨
    (choose cs = .multilineLiteral ∧ (∀ c ∈ cs, needsEscape c = false) ∧
      ∀ t, t <:+ cs → leadingRun apostrophe t ≤ 2) := by
  unfold choose
  dsimp only
  split_ifs with hbasic hliteral hmultilineBasic hmultilineLiteral
  · exact Or.inl rfl
  · simp only [Bool.and_eq_true, Bool.not_eq_true', List.any_eq_false, decide_eq_true_eq,
      Bool.not_eq_true, List.contains_eq_mem, decide_eq_false_iff_not] at hliteral
    obtain ⟨⟨hescape, hrun⟩, hnewline⟩ := hliteral
    exact Or.inr (Or.inr (Or.inl ⟨rfl, hescape, not_mem_of_longestRun_eq_zero hrun, hnewline⟩))
  · exact Or.inr (Or.inl rfl)
  · simp only [Bool.and_eq_true, Bool.not_eq_true', List.any_eq_false, decide_eq_true_eq,
      Bool.not_eq_true] at hmultilineLiteral
    obtain ⟨hescape, hrun⟩ := hmultilineLiteral
    exact Or.inr (Or.inr (Or.inr ⟨rfl, hescape, fun t ht =>
      Nat.le_trans (leadingRun_le_longestRun ht) hrun⟩))
  · exact Or.inr (Or.inl rfl)
  · exact Or.inl rfl

theorem dropNewline_opener {body : List Char}
    (hbody : '\n' ∉ cs → ∃ c rest, body = c :: rest ∧ c ≠ '\n' ∧ c ≠ '\r') :
    dropNewline (opener cs ++ body) = body := by
  unfold opener
  split_ifs with hnewline
  · rfl
  · obtain ⟨c, rest, rfl, hn, hr⟩ := hbody (by simpa using hnewline)
    exact dropNewline_cons hn hr

theorem multilineBody_head (hnewline : '\n' ∉ cs) (rest : List Char) :
    ∃ c tail, multilineBody 0 cs ++ (List.replicate 3 '"' ++ rest) = c :: tail ∧
      c ≠ '\n' ∧ c ≠ '\r' := by
  cases cs with
  | nil => exact ⟨_, _, rfl, by decide, by decide⟩
  | cons c cs =>
    rw [List.mem_cons, not_or] at hnewline
    by_cases hquote : c = '"'
    · rw [multilineBody, if_pos hquote, if_pos (by decide)]
      exact ⟨_, _, rfl, by decide, by decide⟩
    · rw [multilineBody, if_neg hquote, if_neg (Ne.symm hnewline.1)]
      rcases escape_cases c with ⟨e, he, -⟩ | ⟨w, x, y, z, he, -⟩ | ⟨he, -, -, -, hn, hr⟩ <;> rw [he]
      · exact ⟨_, _, rfl, by decide, by decide⟩
      · exact ⟨_, _, rfl, by decide, by decide⟩
      · exact ⟨_, _, rfl, hn, hr⟩

/-- A text that needs no escapes begins with no carriage return. -/
theorem literal_head (hescape : ∀ c ∈ cs, needsEscape c = false) (hnewline : '\n' ∉ cs)
    (rest : List Char) :
    ∃ c tail, cs ++ (List.replicate 3 apostrophe ++ rest) = c :: tail ∧
      c ≠ '\n' ∧ c ≠ '\r' := by
  cases cs with
  | nil => exact ⟨_, _, rfl, by decide, by decide⟩
  | cons c cs =>
    refine ⟨c, _, rfl, ?_, ?_⟩
    · rintro rfl
      exact hnewline List.mem_cons_self
    · rintro rfl
      exact absurd (hescape _ List.mem_cons_self) (by decide)

end TextStyle

/-! ### Reading a style -/

theorem opening?_eq_none (h : leadingRun quote cs ≤ 2) : opening? quote cs = none := by
  match cs with
  | [] | [_] | [_, _] => rfl
  | x :: y :: z :: cs =>
    refine if_neg ?_
    rintro ⟨rfl, rfl, rfl⟩
    simp only [leadingRun_cons_self] at h
    omega

theorem opening?_replicate (quote : Char) (cs : List Char) :
    opening? quote (List.replicate 3 quote ++ cs) = some cs := by
  simp [opening?, List.replicate]

variable (cs rest)

theorem scanText_basic :
    scanText (TextStyle.write .basic cs ++ '\n' :: rest) = some (cs, '\n' :: rest) := by
  have hwrite : TextStyle.write .basic cs ++ '\n' :: rest =
      '"' :: (cs.flatMap escape ++ '"' :: '\n' :: rest) := by
    simp [TextStyle.write]
  have hrun : leadingRun '"' ('"' :: (cs.flatMap escape ++ '"' :: '\n' :: rest)) ≤ 2 := by
    rw [leadingRun_cons_self]
    cases cs with
    | nil => simp
    | cons c cs =>
      rcases escape_cases c with ⟨e, he, -⟩ | ⟨w, x, y, z, he, -⟩ | ⟨he, -, hquote, -⟩ <;>
        simp [*]
  have hother : leadingRun apostrophe ('"' :: (cs.flatMap escape ++ '"' :: '\n' :: rest)) ≤ 2 := by
    rw [leadingRun_cons_of_ne (by decide)]
    exact Nat.zero_le 2
  rw [hwrite, scanText, opening?_eq_none hrun, opening?_eq_none hother]
  exact scanBasic_escapes cs

theorem scanText_literal (hescape : ∀ c ∈ cs, needsEscape c = false) (hquote : apostrophe ∉ cs)
    (hnewline : '\n' ∉ cs) :
    scanText (TextStyle.write .literal cs ++ '\n' :: rest) = some (cs, '\n' :: rest) := by
  have hwrite : TextStyle.write .literal cs ++ '\n' :: rest =
      apostrophe :: (cs ++ apostrophe :: '\n' :: rest) := by
    simp [TextStyle.write]
  have hrun : leadingRun apostrophe (apostrophe :: (cs ++ apostrophe :: '\n' :: rest)) ≤ 2 := by
    rw [leadingRun_cons_self]
    cases cs with
    | nil => simp [leadingRun_cons_of_ne (show '\n' ≠ apostrophe by decide)]
    | cons c cs =>
      rw [List.mem_cons, not_or] at hquote
      rw [List.cons_append, leadingRun_cons_of_ne (Ne.symm hquote.1)]
      decide
  have hother : leadingRun '"' (apostrophe :: (cs ++ apostrophe :: '\n' :: rest)) ≤ 2 := by
    rw [leadingRun_cons_of_ne (by decide)]
    exact Nat.zero_le 2
  have hchar : ∀ c ∈ cs, isCommentChar c = true := fun c hc =>
    isCommentChar_of_needsEscape (hescape c hc) (fun h => hnewline (h ▸ hc))
  rw [hwrite, scanText, opening?_eq_none hother, opening?_eq_none hrun]
  exact scanLiteral_append cs hquote hchar

theorem scanText_multilineBasic :
    scanText (TextStyle.write .multilineBasic cs ++ '\n' :: rest) = some (cs, '\n' :: rest) := by
  have hwrite : TextStyle.write .multilineBasic cs ++ '\n' :: rest =
      List.replicate 3 '"' ++ (TextStyle.opener cs ++
        (TextStyle.multilineBody 0 cs ++ (List.replicate 3 '"' ++ '\n' :: rest))) := by
    simp [TextStyle.write, List.replicate]
  rw [hwrite, scanText, opening?_replicate]
  dsimp only
  rw [TextStyle.dropNewline_opener fun h => TextStyle.multilineBody_head h _]
  exact scanMultilineBasic_multilineBody (leadingRun_cons_of_ne (by decide)) cs (Nat.zero_le 2)

theorem scanText_multilineLiteral (hescape : ∀ c ∈ cs, needsEscape c = false)
    (hrun : ∀ t, t <:+ cs → leadingRun apostrophe t ≤ 2) :
    scanText (TextStyle.write .multilineLiteral cs ++ '\n' :: rest) = some (cs, '\n' :: rest) := by
  have hwrite : TextStyle.write .multilineLiteral cs ++ '\n' :: rest =
      List.replicate 3 apostrophe ++ (TextStyle.opener cs ++
        (cs ++ (List.replicate 3 apostrophe ++ '\n' :: rest))) := by
    simp [TextStyle.write]
  have hother : opening? '"' (List.replicate 3 apostrophe ++ (TextStyle.opener cs ++
      (cs ++ (List.replicate 3 apostrophe ++ '\n' :: rest)))) = none := by
    refine opening?_eq_none ?_
    rw [List.replicate_succ, List.cons_append, leadingRun_cons_of_ne (by decide)]
    exact Nat.zero_le 2
  rw [hwrite, scanText, hother, opening?_replicate]
  dsimp only
  rw [TextStyle.dropNewline_opener fun h => TextStyle.literal_head hescape h _]
  exact scanMultilineLiteral_append (leadingRun_cons_of_ne (by decide)) cs hescape hrun

/-- **A written text is read back**, and what stands behind its line end is left. -/
theorem scanText_writeText (s : String) :
    scanText (writeText s ++ '\n' :: rest) = some (s.toList, '\n' :: rest) := by
  unfold writeText
  rcases TextStyle.choose_cases s.toList with h | h | ⟨h, hescape, hquote, hnewline⟩ |
    ⟨h, hescape, hrun⟩ <;> rw [h]
  · exact scanText_basic ..
  · exact scanText_multilineBasic ..
  · exact scanText_literal _ _ hescape hquote hnewline
  · exact scanText_multilineLiteral _ _ hescape hrun

end Toml
end ScreenBridge
