/-
# What a line says

The words of a line decide what it says. The rules are in `Says`, one for each kind of
line, and they leave no line out and give none two meanings: a line yields exactly what
they say (`parse_eq_iff`). So blanks at its ends, and more blanks where there is one,
make no difference, nor does the case of a command that is followed.

Key definitions: `Command.table`, `Command.Says`.
Key theorems: `Command.parseKey_cases`, `Command.motions?_eq_some_iff`,
`Command.parse_eq_iff`, `Command.Says.of_sameIgnoringCase`,
`Command.lines_are_what_their_words_say`.
-/
import ScreenBridge.Input.Command
import ScreenBridge.Proofs.Words

namespace ScreenBridge

namespace Key

theorem sameIgnoringCase_iff {a b : List Char} :
    sameIgnoringCase a b = true ↔ a.map Char.toLower = b.map Char.toLower :=
  decide_eq_true_iff

theorem eq_hash_of_toLower_eq {c : Char} (h : c.toLower = '#') : c = '#' := by
  unfold Char.toLower at h
  split at h
  · rename_i hupper
    -- an upper-case letter becomes a lower-case one
    have hval : (c.val.toNat + 32) % 2 ^ 32 = 35 := congrArg (fun d : Char => d.val.toNat) h
    have hlo : 65 ≤ c.val.toNat := UInt32.le_iff_toNat_le.mp hupper.1
    have hhi : c.val.toNat ≤ 90 := UInt32.le_iff_toNat_le.mp hupper.2
    omega
  · exact h

theorem head?_eq_hash_of_sameIgnoringCase {a b : List Char} (h : sameIgnoringCase a b = true)
    (ha : a.head? = some '#') : b.head? = some '#' := by
  have hmap := congrArg List.head? (sameIgnoringCase_iff.mp h)
  rw [List.head?_map, List.head?_map, ha] at hmap
  obtain ⟨c, hc, hlower⟩ := Option.map_eq_some_iff.mp hmap.symm
  rw [hc, eq_hash_of_toLower_eq hlower]

end Key

namespace Command

variable {command token : List Char} {motions : List Motion}

/-! ### The two words of a command -/

/-- The commands, and what each does with its key. -/
def table : List (String × List Motion) :=
  [("down", [.down]), ("up", [.up]), ("tap", [.down, .up])]

/-- A command word is a command of the table, in any mixture of cases. -/
theorem motions?_eq_some_iff :
    motions? command = some motions ↔
      ∃ name, (name, motions) ∈ table ∧ Key.sameIgnoringCase command name.toList = true := by
  constructor
  · intro h
    unfold motions? at h
    dsimp only at h
    split_ifs at h with hdown hup htap <;> cases h
    · exact ⟨"down", by decide, Key.sameIgnoringCase_iff.mpr hdown⟩
    · exact ⟨"up", by decide, Key.sameIgnoringCase_iff.mpr hup⟩
    · exact ⟨"tap", by decide, Key.sameIgnoringCase_iff.mpr htap⟩
  · rintro ⟨name, hname, hsame⟩
    have hself : ∀ entry ∈ table, motions? entry.1.toList = some entry.2 := by decide
    rw [← hself _ hname]
    unfold motions?
    rw [Key.sameIgnoringCase_iff.mp hsame]

theorem motions?_eq_none_iff :
    motions? command = none ↔
      ∀ entry ∈ table, Key.sameIgnoringCase command entry.1.toList = false := by
  rw [Option.eq_none_iff_forall_ne_some]
  constructor
  · rintro h ⟨name, motions⟩ hentry
    rw [← Bool.not_eq_true]
    exact fun hsame => h motions (motions?_eq_some_iff.mpr ⟨name, hentry, hsame⟩)
  · intro h motions hsome
    obtain ⟨name, hentry, hsame⟩ := motions?_eq_some_iff.mp hsome
    rw [h _ hentry] at hsame
    cases hsame

theorem head?_ne_hash_of_mem_table {name : String} (hname : (name, motions) ∈ table)
    (hcommand : Key.sameIgnoringCase command name.toList = true) : command.head? ≠ some '#' := by
  have hnone : ∀ entry ∈ table, entry.1.toList.head? ≠ some '#' := by decide
  exact fun hhash => hnone _ hname (Key.head?_eq_hash_of_sameIgnoringCase hcommand hhash)

theorem motions_ne_nil_of_mem_table {name : String} (hname : (name, motions) ∈ table) :
    motions ≠ [] := by
  have hall : ∀ entry ∈ table, entry.2 ≠ [] := by decide
  exact hall _ hname

/-- A token stands for a key with a name, or is reported as it was written. -/
theorem parseKey_cases (token : List Char) :
    (∃ key, key ≠ .unknown ∧ parseKey token = .ok key) ∨
      parseKey token = .error (.unknownKey (String.ofList token)) := by
  unfold parseKey
  split
  · exact Or.inr rfl
  · rename_i key hknown _
    exact Or.inl ⟨key, hknown, rfl⟩
  · exact Or.inr rfl

/-! ### The rules -/

/-- What the words of a line say. Comments come before everything else, the number of
words before the words, and the command before the key. -/
inductive Says : List (List Char) → Except CommandError (List Event) → Prop
  | nothing : Says [] (.ok [])
  | comment {w : List Char} {ws : List (List Char)} : Says (('#' :: w) :: ws) (.ok [])
  | keyMissing {command : List Char} :
      command.head? ≠ some '#' →
        Says [command] (.error (.missingKey (String.ofList command)))
  | inputTrails {command token extra : List Char} {ws : List (List Char)} :
      command.head? ≠ some '#' →
        Says (command :: token :: extra :: ws) (.error (.trailingInput (String.ofList extra)))
  | commandUnknown {command token : List Char} :
      command.head? ≠ some '#' →
      (∀ entry ∈ table, Key.sameIgnoringCase command entry.1.toList = false) →
        Says [command, token] (.error (.unknownCommand (String.ofList command)))
  | keyUnknown {command token : List Char} {name : String} {motions : List Motion} :
      (name, motions) ∈ table → Key.sameIgnoringCase command name.toList = true →
      parseKey token = .error (.unknownKey (String.ofList token)) →
        Says [command, token] (.error (.unknownKey (String.ofList token)))
  | moves {command token : List Char} {name : String} {motions : List Motion} {key : Key} :
      (name, motions) ∈ table → Key.sameIgnoringCase command name.toList = true →
      parseKey token = .ok key →
        Says [command, token] (.ok (motions.map fun motion => ⟨motion, key⟩))

theorem ofWords_pair_of_none (h : motions? command = none) :
    ofWords [command, token] = .error (.unknownCommand (String.ofList command)) := by
  rw [ofWords, h]

theorem ofWords_pair_of_some (h : motions? command = some motions) :
    ofWords [command, token] =
      (parseKey token).map fun key => motions.map fun motion => ⟨motion, key⟩ := by
  rw [ofWords, h]
  dsimp only
  rcases parseKey token with e | key <;> rfl

/-- A line of words that is no comment says something or is at fault. -/
theorem says_ofWords {ws : List (List Char)} (hcommand : command.head? ≠ some '#') :
    Says (command :: ws) (ofWords (command :: ws)) := by
  match ws with
  | [] => exact .keyMissing hcommand
  | [token] =>
    rcases hmotions : motions? command with _ | motions
    · rw [ofWords_pair_of_none hmotions]
      exact .commandUnknown hcommand (motions?_eq_none_iff.mp hmotions)
    · obtain ⟨name, hname, hsame⟩ := motions?_eq_some_iff.mp hmotions
      rw [ofWords_pair_of_some hmotions]
      rcases parseKey_cases token with ⟨key, -, hkey⟩ | hkey
      · rw [hkey]
        exact .moves hname hsame hkey
      · rw [hkey]
        exact .keyUnknown hname hsame hkey
  | _ :: _ :: _ => exact .inputTrails hcommand

section

variable {line : String}

theorem parse_of_no_words (h : Text.words line.toList = []) : parse line = .ok [] := by
  rcases Text.trim_cases line.toList with ⟨htrim, -⟩ | ⟨c, t, w, ws, -, hwords⟩
  · rw [parse, htrim]
    rfl
  · rw [hwords] at h
    cases h

theorem parse_of_comment {w : List Char} {ws : List (List Char)}
    (h : Text.words line.toList = ('#' :: w) :: ws) : parse line = .ok [] := by
  rcases Text.trim_cases line.toList with ⟨-, hwords⟩ | ⟨c, t, w', ws', htrim, hwords⟩
  · rw [hwords] at h
    cases h
  · rw [hwords] at h
    cases h
    rw [parse, htrim]
    rfl

theorem parse_of_command {ws : List (List Char)}
    (h : Text.words line.toList = command :: ws) (hcommand : command.head? ≠ some '#') :
    parse line = ofWords (command :: ws) := by
  rcases Text.trim_cases line.toList with ⟨-, hwords⟩ | ⟨c, t, w, ws', htrim, hwords⟩
  · rw [hwords] at h
    cases h
  · have htext : Text.words (c :: t) = command :: ws := by rw [← htrim, Text.words_trim, h]
    rw [hwords] at h
    cases h
    have hc : c ≠ '#' := by simpa using hcommand
    rw [parse, htrim, ← htext, if_neg (by simp [hc])]

theorem says_parse (line : String) : Says (Text.words line.toList) (parse line) := by
  rcases hwords : Text.words line.toList with _ | ⟨command, ws⟩
  · rw [parse_of_no_words hwords]
    exact .nothing
  · by_cases hcommand : command.head? = some '#'
    · obtain ⟨w, rfl⟩ := List.head?_eq_some_iff.mp hcommand
      rw [parse_of_comment hwords]
      exact .comment
    · rw [parse_of_command hwords hcommand]
      exact says_ofWords hcommand

/-- The words of a line say nothing else. -/
theorem parse_eq_of_says {r : Except CommandError (List Event)}
    (h : Says (Text.words line.toList) r) : parse line = r := by
  generalize hwords : Text.words line.toList = ws at h
  cases h with
  | nothing => exact parse_of_no_words hwords
  | comment => exact parse_of_comment hwords
  | keyMissing hcommand => exact parse_of_command hwords hcommand
  | inputTrails hcommand => exact parse_of_command hwords hcommand
  | commandUnknown hcommand hnone =>
    rw [parse_of_command hwords hcommand]
    exact ofWords_pair_of_none (motions?_eq_none_iff.mpr hnone)
  | keyUnknown hname hsame hkey =>
    rw [parse_of_command hwords (head?_ne_hash_of_mem_table hname hsame),
      ofWords_pair_of_some (motions?_eq_some_iff.mpr ⟨_, hname, hsame⟩), hkey]
    rfl
  | moves hname hsame hkey =>
    rw [parse_of_command hwords (head?_ne_hash_of_mem_table hname hsame),
      ofWords_pair_of_some (motions?_eq_some_iff.mpr ⟨_, hname, hsame⟩), hkey]
    rfl

/-- **A line yields what its words say**, and nothing else. -/
theorem parse_eq_iff {ws : List (List Char)} (h : Text.Runs line.toList ws)
    {r : Except CommandError (List Event)} : parse line = r ↔ Says ws r := by
  obtain rfl := h.words_eq
  exact ⟨fun hr => hr ▸ says_parse line, parse_eq_of_says⟩

end

/-! ### What a line that succeeds says -/

section

variable {ws : List (List Char)} {events : List Event}

/-- There are no events exactly if nothing was said. -/
theorem says_ok_nil_iff :
    Says ws (.ok []) ↔ ws = [] ∨ ∃ w rest, ws = ('#' :: w) :: rest := by
  constructor
  · intro h
    generalize hr : (Except.ok [] : Except CommandError (List Event)) = r at h
    cases h with
    | nothing => exact Or.inl rfl
    | comment => exact Or.inr ⟨_, _, rfl⟩
    | moves hname _ _ =>
      have := Except.ok.inj hr
      exact absurd (List.map_eq_nil_iff.mp this.symm) (motions_ne_nil_of_mem_table hname)
    | keyMissing | inputTrails | commandUnknown | keyUnknown => cases hr
  · rintro (rfl | ⟨w, rest, rfl⟩)
    · exact .nothing
    · exact .comment

/-- Every event is one of a key with a name. -/
theorem Says.key_ne_unknown (h : Says ws (.ok events)) {e : Event} (he : e ∈ events) :
    e.key ≠ .unknown := by
  cases h with
  | nothing => cases he
  | comment => cases he
  | @moves command token name motions key hname hsame hkey =>
    obtain ⟨motion, -, rfl⟩ := List.mem_map.mp he
    rcases parseKey_cases token with ⟨key', hne, hkey'⟩ | hkey'
    · rw [hkey] at hkey'
      exact Except.ok.inj hkey' ▸ hne
    · rw [hkey] at hkey'
      cases hkey'

/-- The case of the command is of no account where the line succeeds. -/
theorem Says.of_sameIgnoringCase {command command' : List Char}
    (h : Says (command :: ws) (.ok events))
    (hsame : Key.sameIgnoringCase command command' = true) : Says (command' :: ws) (.ok events) := by
  generalize hws : command :: ws = words at h
  cases h with
  | nothing => cases hws
  | comment =>
    cases hws
    obtain ⟨w, rfl⟩ := List.head?_eq_some_iff.mp
      (Key.head?_eq_hash_of_sameIgnoringCase hsame rfl)
    exact .comment
  | moves hname hcommand hkey =>
    cases hws
    refine .moves hname ?_ hkey
    rw [Key.sameIgnoringCase_iff] at hsame hcommand ⊢
    exact hsame.symm.trans hcommand

end

/-- **A line is what its words say.** Take any line. It has one list of words, its
longest runs of characters that are not blank. What the line yields follows the rules of
`Says` for these words, and they allow nothing else. It succeeds without events exactly
if there are no words or the first one begins with `#`. No event is one of the unknown
key. A line with the same words yields the same, so it makes no difference if there are
blanks at the ends, or more of them beside a blank. If the line succeeds, it yields the
same with its first word in any other mixture of cases. -/
theorem lines_are_what_their_words_say (line : String) :
    ∃ ws, (∀ vs, Text.Runs line.toList vs ↔ vs = ws) ∧
      (∀ r, parse line = r ↔ Says ws r) ∧
      (parse line = .ok [] ↔ ws = [] ∨ ∃ w rest, ws = ('#' :: w) :: rest) ∧
      (∀ events, parse line = .ok events → ∀ e ∈ events, e.key ≠ .unknown) ∧
      (∀ other : String, Text.Runs other.toList ws → parse other = parse line) ∧
      (∀ before after, Text.AllBlank before → Text.AllBlank after →
        parse (String.ofList (before ++ line.toList ++ after)) = parse line) ∧
      (∀ before b gap after, line.toList = before ++ b :: after → Text.isBlank b = true →
        Text.AllBlank gap → parse (String.ofList (before ++ b :: (gap ++ after))) = parse line) ∧
      (∀ command command' rest, ws = command :: rest →
        Key.sameIgnoringCase command command' = true → ∀ other : String,
        Text.Runs other.toList (command' :: rest) → ∀ events,
        parse line = .ok events → parse other = .ok events) := by
  set ws := Text.words line.toList with hws
  have hruns : Text.Runs line.toList ws := Text.runs_words line.toList
  have hmeans : ∀ r, parse line = r ↔ Says ws r := fun r => parse_eq_iff hruns
  have hsame : ∀ other : String, Text.Runs other.toList ws → parse other = parse line :=
    fun other hother => (parse_eq_iff hother).mpr ((hmeans _).mp rfl)
  have hagain : ∀ cs, Text.words cs = ws → parse (String.ofList cs) = parse line := fun cs hcs =>
    hsame (String.ofList cs) (Text.words_eq_iff_runs.mp (by rw [String.toList_ofList, hcs]))
  refine ⟨ws, fun vs => ?_, hmeans, (hmeans _).trans says_ok_nil_iff, fun events h e he => ?_, hsame,
    fun before after hbefore hafter => hagain _ ?_, fun before b gap after hline hb hgap =>
    hagain _ ?_, fun command command' rest hcommand hcase other hother events h => ?_⟩
  · rw [← Text.words_eq_iff_runs, eq_comm]
  · exact ((hmeans _).mp h).key_ne_unknown he
  · rw [Text.words_append_blanks hafter, Text.words_blanks_append hbefore]
  · rw [hws, hline, Text.words_append_cons_blank hb, Text.words_append_cons_blank hb,
      Text.words_blanks_append hgap]
  · have hline := (hmeans _).mp h
    rw [hcommand] at hline
    exact (parse_eq_iff hother).mpr (hline.of_sameIgnoringCase hcase)

end Command
end ScreenBridge
