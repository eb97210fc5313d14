/-
# The names of keys

A key goes by its full name in any mixture of ASCII cases, and a letter or a digit also by
its one character (`Key.Names`). The full names differ in more than their cases and are
longer than one character, so no text names two keys (`Key.Names.unique`). The lists of
letters and of digits are in the order of their characters, so that a character is found
at its place (`Key.ofChar?_cases`). A name is looked up without the blanks around it, and
what is found is the key it names (`Key.names_lead_to_their_keys`).

Key definitions: `Key.Names`.
Key theorems: `Key.eq_of_sameIgnoringCase`, `Key.ofTrimmed?_eq_some_iff`,
`Key.ofKeysym_of_ofChar?`, `Key.Names.unique`, `Key.ofName?_congr`, `Key.names_lead_to_their_keys`.
-/
import Mathlib.Data.List.Nodup
import ScreenBridge.Proofs.Command
import ScreenBridge.Proofs.Numerals

namespace ScreenBridge

/-! ### The cases of a character -/

namespace Text

theorem toNat_lt_of_le {c d : Char} (hd : d.toNat < 128) (h : c ≤ d) : c.toNat < 128 :=
  Nat.lt_of_le_of_lt (Char.le_def.mp h) hd

theorem toNat_lt_of_isAlphanum {c : Char} (h : c.isAlphanum = true) : c.toNat < 128 := by
  rcases Bool.or_eq_true_iff.mp h with halpha | hdigit
  · rcases Bool.or_eq_true_iff.mp halpha with hupper | hlower
    · exact toNat_lt_of_le (d := 'Z') (by decide) (of_decide_eq_true hupper).2
    · exact toNat_lt_of_le (d := 'z') (by decide)
        (of_decide_eq_true (Bool.and_eq_true_iff.mp hlower).2)
  · exact toNat_lt_of_le (d := '9') (by decide)
      (of_decide_eq_true (Bool.and_eq_true_iff.mp hdigit).2)

theorem isDigit_of_isAlpha {c : Char} (h : c.isAlpha = true) : c.isDigit = false :=
  forall_ascii (p := fun c => c.isAlpha = true → c.isDigit = false) (by decide +kernel) c
    (toNat_lt_of_isAlphanum (by rw [Char.isAlphanum, h, Bool.true_or])) h

theorem cases_of_not_ascii {c : Char} (hc : ¬ c.toNat < 128) :
    c.toLower = c ∧ c.toUpper = c := by
  constructor
  · exact dif_neg fun h => hc (toNat_lt_of_le (d := 'Z') (by decide) h.2)
  · exact dif_neg fun h => hc (toNat_lt_of_le (d := 'z') (by decide) h.2)

theorem toUpper_toLower (c : Char) : c.toLower.toUpper = c.toUpper := by
  by_cases hc : c.toNat < 128
  · exact forall_ascii (p := fun c => c.toLower.toUpper = c.toUpper) (by decide +kernel) c hc
  · rw [(cases_of_not_ascii hc).1]

theorem isBlank_toLower (c : Char) : isBlank c.toLower = isBlank c := by
  by_cases hc : c.toNat < 128
  · exact forall_ascii (p := fun c => isBlank c.toLower = isBlank c) (by decide +kernel) c hc
  · rw [(cases_of_not_ascii hc).1]

end Text

namespace Key

/-- The texts without blanks around them that name a key. -/
inductive Names : List Char → Key → Prop
  | letter {c : Char} {key : Key} :
      c.isAlpha = true → key.name.toList = ['K', 'e', 'y', c.toUpper] → Names [c] key
  | digit {c : Char} {key : Key} :
      c.isDigit = true → key.name.toList = ['D', 'i', 'g', 'i', 't', c] → Names [c] key
  | full {cs : List Char} {key : Key} :
      sameIgnoringCase key.name.toList cs = true → Names cs key

variable {cs cs' : List Char} {key key' : Key}

/-! ### Full names -/

theorem nodup_lowered_names :
    ((all ++ [unknown]).map fun key => key.name.toList.map Char.toLower).Nodup := by
  decide +kernel

theorem mem_all_unknown (key : Key) : key ∈ all ++ [unknown] := by
  by_cases hkey : key = .unknown
  · simp [hkey]
  · exact List.mem_append_left _ (mem_all_iff.mpr hkey)

/-- **Two keys differ in more than the cases of their names.** -/
theorem eq_of_sameIgnoringCase (h : sameIgnoringCase key.name.toList cs = true)
    (h' : sameIgnoringCase key'.name.toList cs = true) : key = key' := by
  rw [sameIgnoringCase_iff] at h h'
  exact List.inj_on_of_nodup_map nodup_lowered_names (mem_all_unknown key) (mem_all_unknown key')
    (h.trans h'.symm)

theorem one_lt_length_name (key : Key) : 1 < key.name.toList.length := by
  have hall : ∀ key ∈ all ++ [unknown], 1 < key.name.toList.length := by decide +kernel
  exact hall key (mem_all_unknown key)

theorem not_sameIgnoringCase_singleton {c : Char} :
    sameIgnoringCase key.name.toList [c] ≠ true := by
  intro h
  have hlength := congrArg List.length (sameIgnoringCase_iff.mp h)
  have hlong := one_lt_length_name key
  simp only [List.length_map, List.length_singleton] at hlength
  omega

/-- The search by full names finds the key of that name. -/
theorem find?_name_eq_some_iff :
    (all.find? fun key => sameIgnoringCase key.name.toList cs) = some key ↔
      key ≠ .unknown ∧ sameIgnoringCase key.name.toList cs = true := by
  constructor
  · intro h
    have hsame := List.find?_some h
    exact ⟨mem_all_iff.mp (List.mem_of_find?_eq_some h), hsame⟩
  · rintro ⟨hknown, hsame⟩
    cases hfound : all.find? fun key => sameIgnoringCase key.name.toList cs with
    | none =>
      rw [List.find?_eq_none] at hfound
      exact absurd hsame (hfound key (mem_all_iff.mpr hknown))
    | some found =>
      have hsame' := List.find?_some hfound
      rw [eq_of_sameIgnoringCase hsame' hsame]

/-! ### Names of one character -/

/-- A letter or a digit is found at its place, and no other character leads anywhere. -/
theorem ofChar?_cases (c : Char) :
    (∃ key, ofChar? c = some key ∧ key ≠ .unknown ∧ Names [c] key) ∨
      ofChar? c = none ∧ c.isAlpha = false ∧ c.isDigit = false := by
  by_cases hc : c.toNat < 128
  · have hfound := Text.forall_ascii
      (p := fun c => ∀ key ∈ ofChar? c, key ≠ .unknown ∧
        (c.isAlpha = true ∧ key.name.toList = ['K', 'e', 'y', c.toUpper] ∨
          c.isDigit = true ∧ key.name.toList = ['D', 'i', 'g', 'i', 't', c]))
      (by decide +kernel) c hc
    have hmissed := Text.forall_ascii
      (p := fun c => ofChar? c = none → c.isAlpha = false ∧ c.isDigit = false)
      (by decide +kernel) c hc
    cases hkey : ofChar? c with
    | none => exact Or.inr ⟨rfl, hmissed hkey⟩
    | some key =>
      obtain ⟨hknown, ⟨hletter, hname⟩ | ⟨hdigit, hname⟩⟩ := hfound key hkey
      · exact Or.inl ⟨key, rfl, hknown, .letter hletter hname⟩
      · exact Or.inl ⟨key, rfl, hknown, .digit hdigit hname⟩
  · have hnot : c.isAlphanum = false := Bool.eq_false_iff.mpr fun h => hc (Text.toNat_lt_of_isAlphanum h)
    have hle : ∀ d : Char, d.toNat < 128 → ¬ c ≤ d := fun d hd h => hc (Text.toNat_lt_of_le hd h)
    refine Or.inr ⟨?_, Bool.or_eq_false_iff.mp hnot⟩
    unfold ofChar?
    simp [(Text.cases_of_not_ascii hc).2, hle 'Z' (by decide), hle '9' (by decide)]

/-- **No text names two keys.** -/
theorem Names.unique (h : Names cs key) (h' : Names cs key') : key = key' := by
  have hself : sameIgnoringCase key'.name.toList key'.name.toList = true :=
    sameIgnoringCase_iff.mpr rfl
  have hname : key.name.toList = key'.name.toList → key = key' := fun heq =>
    eq_of_sameIgnoringCase (heq ▸ hself) hself
  cases h with
  | letter hletter hkey =>
    cases h' with
    | letter _ hkey' => exact hname (hkey.trans hkey'.symm)
    | digit hdigit _ => simp [Text.isDigit_of_isAlpha hletter] at hdigit
    | full hfull => exact absurd hfull not_sameIgnoringCase_singleton
  | digit hdigit hkey =>
    cases h' with
    | letter hletter _ => simp [Text.isDigit_of_isAlpha hletter] at hdigit
    | digit _ hkey' => exact hname (hkey.trans hkey'.symm)
    | full hfull => exact absurd hfull not_sameIgnoringCase_singleton
  | full hfull =>
    cases h' with
    | letter _ _ => exact absurd hfull not_sameIgnoringCase_singleton
    | digit _ _ => exact absurd hfull not_sameIgnoringCase_singleton
    | full hfull' => exact eq_of_sameIgnoringCase hfull hfull'

/-- **The symbol of a letter or a digit is its character.** -/
theorem ofKeysym_of_ofChar? {c : Char} (h : ofChar? c = some key) :
    ofKeysym c.toNat.toUInt32 = key := by
  have hc : c.toNat < 128 := by
    rcases ofChar?_cases c with ⟨found, hfound, -, hnames⟩ | ⟨hnone, -⟩
    · refine Text.toNat_lt_of_isAlphanum (Bool.or_eq_true_iff.mpr ?_)
      cases hnames with
      | letter hletter _ => exact Or.inl hletter
      | digit hdigit _ => exact Or.inr hdigit
      | full hfull => exact absurd hfull not_sameIgnoringCase_singleton
    · rw [hnone] at h
      cases h
  exact Text.forall_ascii (p := fun c => ∀ key ∈ ofChar? c, ofKeysym c.toNat.toUInt32 = key)
    (by decide +kernel) c hc key h

/-! ### Looking names up -/

theorem ofTrimmed?_of_ne_singleton (hcs : ∀ c, cs ≠ [c]) :
    ofTrimmed? cs = all.find? fun key => sameIgnoringCase key.name.toList cs := by
  unfold ofTrimmed?
  split
  · exact absurd rfl (hcs _)
  · rfl

/-- **The key that is found is the key of the name.** -/
theorem ofTrimmed?_eq_some_iff :
    ofTrimmed? cs = some key ↔ key ≠ .unknown ∧ Names cs key := by
  by_cases hone : ∃ c, cs = [c]
  · obtain ⟨c, rfl⟩ := hone
    change ofChar? c = some key ↔ _
    rcases ofChar?_cases c with ⟨found, hfound, hknown, hnames⟩ | ⟨hnone, hletter, hdigit⟩
    · rw [hfound, Option.some.injEq]
      constructor
      · rintro rfl
        exact ⟨hknown, hnames⟩
      · exact fun h => hnames.unique h.2
    · refine iff_of_false (by simp [hnone]) fun h => ?_
      cases h.2 with
      | letter h _ => simp [hletter] at h
      | digit h _ => simp [hdigit] at h
      | full h => exact not_sameIgnoringCase_singleton h
  · rw [ofTrimmed?_of_ne_singleton fun c hc => hone ⟨c, hc⟩, find?_name_eq_some_iff]
    refine and_congr_right fun _ => ⟨.full, fun h => ?_⟩
    cases h with
    | letter _ _ => exact absurd ⟨_, rfl⟩ hone
    | digit _ _ => exact absurd ⟨_, rfl⟩ hone
    | full h => exact h

/-- The case of a name is of no account. -/
theorem ofTrimmed?_congr (h : sameIgnoringCase cs cs' = true) : ofTrimmed? cs = ofTrimmed? cs' := by
  rw [sameIgnoringCase_iff] at h
  have hlength : cs.length = cs'.length := by simpa using congrArg List.length h
  by_cases hone : ∃ c, cs = [c]
  · obtain ⟨c, rfl⟩ := hone
    obtain ⟨c', rfl⟩ := List.length_eq_one_iff.mp hlength.symm
    have hupper : c.toUpper = c'.toUpper := by
      rw [← Text.toUpper_toLower c, (List.cons.inj h).1, Text.toUpper_toLower]
    change ofChar? c = ofChar? c'
    unfold ofChar?
    rw [hupper]
  · rw [ofTrimmed?_of_ne_singleton fun c hc => hone ⟨c, hc⟩, ofTrimmed?_of_ne_singleton]
    · simp only [sameIgnoringCase, h]
    · rintro c rfl
      exact hone (List.length_eq_one_iff.mp hlength)

/-- **Neither the cases of a name nor the blanks around it are of account.** -/
theorem ofName?_congr {s s' : String} {before after : List Char} (hbefore : Text.AllBlank before)
    (hafter : Text.AllBlank after) (hs : sameIgnoringCase s.toList s'.toList = true) :
    ofName? (String.ofList (before ++ (s.toList ++ after))) = ofName? s' := by
  rw [ofName?, ofName?, String.toList_ofList, Text.trim_blanks_append hbefore,
    Text.trim_append_blanks hafter]
  refine ofTrimmed?_congr ?_
  rw [sameIgnoringCase_iff] at hs ⊢
  rw [← Text.trim_map Text.isBlank_toLower, ← Text.trim_map Text.isBlank_toLower, hs]

theorem parse_eq_ok_iff {s : String} : Key.parse s = .ok key ↔ ofName? s = some key := by
  unfold Key.parse
  cases ofName? s <;> simp

theorem parseKey_eq_ok_iff_of_not_marked (hmark : ∀ rest, ¬ Text.Marked cs rest) :
    Command.parseKey cs = .ok key ↔ ofTrimmed? (Text.trim cs) = some key := by
  have hnone : Text.afterHexMark? cs = none :=
    Option.eq_none_iff_forall_ne_some.mpr fun rest hrest =>
      hmark rest (Text.afterHexMark?_eq_some_iff.mp hrest)
  rw [Command.parseKey_eq_ok_iff, Command.lookupKey, hnone]
  exact and_iff_right_of_imp fun h => (ofTrimmed?_eq_some_iff.mp h).1

/-- **Names lead to their keys.** Any text leaves one text when the blanks at its ends are
taken away. The key that is looked up is the one which that text names, the letter or digit
of its only character or the key of its full name in some mixture of cases, and never the
unknown key; no text names two keys. More blanks around the text and other cases of its
letters lead to the same key. Parsing a name succeeds with the key that is looked up and
not otherwise, and so does a token of a command unless it begins with the mark of a key
symbol. -/
theorem names_lead_to_their_keys (s : String) :
    ∃ t, (∀ u, Text.TrimsTo s.toList u ↔ u = t) ∧
      (∀ key, ofName? s = some key ↔ key ≠ .unknown ∧ Names t key) ∧
      (∀ key key', Names t key → Names t key' → key = key') ∧
      (∀ (other : String) (before after : List Char),
        sameIgnoringCase other.toList s.toList = true →
        Text.AllBlank before → Text.AllBlank after →
          ofName? (String.ofList (before ++ (other.toList ++ after))) = ofName? s) ∧
      (∀ key, Key.parse s = .ok key ↔ ofName? s = some key) ∧
      ((∀ rest, ¬ Text.Marked s.toList rest) →
        ∀ key, Command.parseKey s.toList = .ok key ↔ ofName? s = some key) := by
  refine ⟨Text.trim s.toList, fun u => ?_, fun key => ofTrimmed?_eq_some_iff,
    fun key key' => Names.unique, fun other before after hsame hbefore hafter => ?_,
    fun key => parse_eq_ok_iff, fun hmark key => parseKey_eq_ok_iff_of_not_marked hmark⟩
  · rw [← Text.trim_eq_iff_trimsTo, eq_comm]
  · exact ofName?_congr hbefore hafter hsame

/-- The full name of a key in mixed cases, between a wide blank and a tab. -/
theorem padded_return_is_enter :
    ofName? "\u3000rETURN\t" = some .enter ∧ Key.parse "\u3000rETURN\t" = .ok .enter ∧
      Command.parseKey "\u3000rETURN\t".toList = .ok .enter ∧
      ofName? " \u3000RetUrn\t\t " = some .enter := by
  obtain ⟨t, htrims, hlookup, -, hother, hparse, htoken⟩ :=
    names_lead_to_their_keys "\u3000rETURN\t"
  have hblank : ∀ {b : Char}, Text.isBlank b = true → Text.AllBlank [b] :=
    fun hb => List.forall_mem_singleton.mpr hb
  have ht : "rETURN".toList = t :=
    (htrims _).mp ⟨⟨['\u3000'], ['\t'], hblank (by decide), hblank (by decide), by decide⟩,
      by rintro c ⟨⟩; decide, by rintro c ⟨⟩; decide⟩
  have hnamed : ofName? "\u3000rETURN\t" = some .enter :=
    (hlookup .enter).mpr ⟨by decide, ht ▸ .full (by decide)⟩
  refine ⟨hnamed, (hparse _).mpr hnamed, (htoken ?_ _).mpr hnamed, ?_⟩
  · rintro rest (h | h) <;> exact absurd (List.cons.inj h).1 (by decide)
  · exact (hother "\u3000RetUrn\t" [' '] ['\t', ' '] (by decide) (hblank (by decide))
      (List.forall_mem_cons.mpr ⟨by decide, hblank (by decide)⟩)).trans hnamed

end Key
end ScreenBridge
