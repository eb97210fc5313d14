/-
# The words of a text

A text is made of runs of characters that are not blank, with blanks around and
between them. `Runs` says this from the text's side: a blank may stand anywhere
outside of a run, and a run goes on to a blank or to the end. Each text has the runs
that `words` finds and no others (`words_eq_iff_runs`).

Blanks at the ends of a text change no word, and a blank is where words end and others
begin (`words_append_cons_blank`). So a trimmed text has the words of the text
(`words_trim`), and it begins as its first word does (`trim_cases`).

Trimming takes blanks away at both ends until none is there, and that leaves one text
(`trim_eq_iff_trimsTo`).

Key definitions: `Text.AllBlank`, `Text.Runs`, `Text.TrimsTo`.
Key theorems: `Text.words_append_cons_blank`, `Text.words_eq_iff_runs`,
`Text.trim_eq_iff_trimsTo`, `Text.words_trim`, `Text.trim_cases`.
-/
import Mathlib.Data.List.DropRight
import ScreenBridge.Text.Blank

namespace ScreenBridge
namespace Text

/-- Blanks and nothing else. -/
def AllBlank (cs : List Char) : Prop := ∀ c ∈ cs, isBlank c = true

/-- The longest runs of characters of a text that are not blank, in order. -/
inductive Runs : List Char → List (List Char) → Prop
  | nil : Runs [] []
  | blank {b : Char} {cs : List Char} {ws : List (List Char)} :
      isBlank b = true → Runs cs ws → Runs (b :: cs) ws
  | run {w cs : List Char} {ws : List (List Char)} :
      w ≠ [] → (∀ c ∈ w, isBlank c = false) → (∀ b ∈ cs.head?, isBlank b = true) →
        Runs cs ws → Runs (w ++ cs) (w :: ws)

/-! ### Words and blanks -/

theorem words_cons_of_blank_next {c b : Char} (hc : isBlank c = false) (hb : isBlank b = true)
    (cs : List Char) : words (c :: b :: cs) = [c] :: words (b :: cs) := by
  rw [words, if_neg (by simp [hc]), if_pos hb]

theorem words_cons_of_words_eq {c d : Char} {cs w : List Char} {ws : List (List Char)}
    (hc : isBlank c = false) (hd : isBlank d = false) (h : words (d :: cs) = w :: ws) :
    words (c :: d :: cs) = (c :: w) :: ws := by
  rw [words, if_neg (by simp [hc]), if_neg (by simp [hd]), h]

theorem exists_words_cons {c : Char} (hc : isBlank c = false) :
    ∀ cs : List Char, ∃ w ws, words (c :: cs) = (c :: w) :: ws
  | [] => ⟨[], [], by simp [words, hc]⟩
  | d :: cs => by
    rcases hd : isBlank d with _ | _
    · obtain ⟨w, ws, hw⟩ := exists_words_cons hd cs
      exact ⟨d :: w, ws, words_cons_of_words_eq hc hd hw⟩
    · exact ⟨[], _, words_cons_of_blank_next hc hd cs⟩

/-- A blank is where the words before it end and those behind it begin. -/
theorem words_append_cons_blank {b : Char} (hb : isBlank b = true) (ys : List Char) :
    ∀ xs : List Char, words (xs ++ b :: ys) = words xs ++ words ys
  | [] => words_cons_blank hb ys
  | c :: xs => by
    have ih := words_append_cons_blank hb ys xs
    rcases hc : isBlank c with _ | _
    · rcases xs with _ | ⟨d, xs⟩
      · rw [List.singleton_append, words_cons_of_blank_next hc hb, words_cons_blank hb]
        simp [words, hc]
      · rcases hd : isBlank d with _ | _
        · obtain ⟨w, ws, hw⟩ := exists_words_cons hd xs
          rw [hw] at ih
          rw [words_cons_of_words_eq hc hd hw]
          exact words_cons_of_words_eq hc hd ih
        · rw [words_cons_of_blank_next hc hd]
          calc words (c :: d :: (xs ++ b :: ys))
              = [c] :: words (d :: xs ++ b :: ys) := words_cons_of_blank_next hc hd _
            _ = [c] :: (words (d :: xs) ++ words ys) := by rw [ih]
    · rw [words_cons_blank hc, ← ih]
      exact words_cons_blank hc _

theorem words_blanks_append {gap : List Char} (hgap : AllBlank gap) (cs : List Char) :
    words (gap ++ cs) = words cs := by
  induction gap with
  | nil => rfl
  | cons b gap ih =>
    rw [List.cons_append, words_cons_blank (hgap b List.mem_cons_self)]
    exact ih fun c hc => hgap c (List.mem_cons_of_mem b hc)

theorem words_append_blanks {gap : List Char} (hgap : AllBlank gap) (cs : List Char) :
    words (cs ++ gap) = words cs := by
  cases gap with
  | nil => rw [List.append_nil]
  | cons b gap =>
    have hrest : words gap = [] := by
      simpa [words] using
        words_blanks_append (fun c hc => hgap c (List.mem_cons_of_mem b hc)) []
    rw [words_append_cons_blank (hgap b List.mem_cons_self), hrest, List.append_nil]

/-! ### Words are the longest runs -/

/-- A run that goes on to a blank or to the end is a word. -/
theorem words_run_append {cs : List Char} (hcs : ∀ b ∈ cs.head?, isBlank b = true) :
    ∀ {w : List Char}, w ≠ [] → (∀ c ∈ w, isBlank c = false) → words (w ++ cs) = w :: words cs
  | [c], _, hw => by
    have hc := hw c List.mem_cons_self
    cases cs with
    | nil => simp [words, hc]
    | cons b cs => exact words_cons_of_blank_next hc (hcs b rfl) cs
  | c :: d :: w, _, hw =>
    have hrest : ∀ c' ∈ d :: w, isBlank c' = false := fun c' hc' =>
      hw c' (List.mem_cons_of_mem c hc')
    words_cons_of_words_eq (hw c List.mem_cons_self) (hrest d List.mem_cons_self)
      (words_run_append hcs (List.cons_ne_nil d w) hrest)

theorem Runs.words_eq {cs : List Char} {ws : List (List Char)} (h : Runs cs ws) :
    words cs = ws := by
  induction h with
  | nil => rfl
  | blank hb _ ih => rw [words_cons_blank hb, ih]
  | run hne hw hcs _ ih => rw [words_run_append hcs hne hw, ih]

/-- A run becomes longer by a character in front of it. -/
theorem Runs.cons_run {c d : Char} {cs : List Char} {ws : List (List Char)}
    (hc : isBlank c = false) (hd : isBlank d = false) (h : Runs (d :: cs) ws) :
    ∃ w vs, ws = w :: vs ∧ Runs (c :: d :: cs) ((c :: w) :: vs) := by
  generalize ht : d :: cs = text at h
  cases h with
  | nil => cases ht
  | blank hb _ =>
    cases ht
    rw [hd] at hb
    cases hb
  | run hne hw hnext hrest =>
    refine ⟨_, _, rfl, .run (List.cons_ne_nil c _) ?_ hnext hrest⟩
    exact List.forall_mem_cons.mpr ⟨hc, hw⟩

/-- The words are such runs. -/
theorem runs_words : ∀ cs : List Char, Runs cs (words cs)
  | [] => .nil
  | c :: cs => by
    have ih := runs_words cs
    rcases hc : isBlank c with _ | _
    · have hone : ∀ c' ∈ [c], isBlank c' = false := by simpa using hc
      rcases cs with _ | ⟨d, cs⟩
      · rw [show words [c] = [[c]] by simp [words, hc]]
        exact .run (List.cons_ne_nil c []) hone (by simp) .nil
      · rcases hd : isBlank d with _ | _
        · obtain ⟨w, ws, hw, hruns⟩ := ih.cons_run hc hd
          rw [words_cons_of_words_eq hc hd hw]
          exact hruns
        · rw [words_cons_of_blank_next hc hd]
          exact .run (w := [c]) (List.cons_ne_nil c []) hone (by simpa using hd) ih
    · rw [words_cons_blank hc]
      exact .blank hc ih

/-- **The words of a text are its longest runs**, and there is one list of them. -/
theorem words_eq_iff_runs {cs : List Char} {ws : List (List Char)} :
    words cs = ws ↔ Runs cs ws :=
  ⟨fun h => h ▸ runs_words cs, Runs.words_eq⟩

/-! ### Trimming -/

/-- What is trimmed off are blanks, and what is left begins with no blank. -/
theorem exists_trim (cs : List Char) :
    ∃ before after, AllBlank before ∧ AllBlank after ∧ cs = before ++ (trim cs ++ after) ∧
      ∀ c ∈ (trim cs).head?, isBlank c = false := by
  set rest := cs.dropWhile isBlank with hrest
  have htrim : trim cs = rest.rdropWhile isBlank := rfl
  have hafter : rest.rdropWhile isBlank ++ rest.rtakeWhile isBlank = rest :=
    List.rdropWhile_append_rtakeWhile
  refine ⟨cs.takeWhile isBlank, rest.rtakeWhile isBlank,
    fun c hc => List.mem_takeWhile_imp hc, fun c hc => List.mem_rtakeWhile_imp hc, ?_, ?_⟩
  · rw [htrim, hafter, hrest, List.takeWhile_append_dropWhile]
  · intro c hc
    have hhead : rest.head? = some c := by
      rw [← hafter, List.head?_append, ← htrim, Option.mem_def.mp hc]
      rfl
    have := List.head?_dropWhile_not isBlank cs
    rw [← hrest, hhead] at this
    exact this

/-- What is left if blanks are taken away at both ends until none is there. -/
structure TrimsTo (cs t : List Char) : Prop where
  around : ∃ before after, AllBlank before ∧ AllBlank after ∧ cs = before ++ (t ++ after)
  head : ∀ c ∈ t.head?, isBlank c = false
  last : ∀ c ∈ t.getLast?, isBlank c = false

theorem trimsTo_trim (cs : List Char) : TrimsTo cs (trim cs) := by
  obtain ⟨before, after, hbefore, hafter, hcs, hhead⟩ := exists_trim cs
  refine ⟨⟨before, after, hbefore, hafter, hcs⟩, hhead, fun c hc => ?_⟩
  have hlast := List.head?_dropWhile_not isBlank (cs.dropWhile isBlank).reverse
  rw [trim, List.getLast?_reverse, Option.mem_def] at hc
  rw [hc] at hlast
  exact hlast

theorem trim_blanks_append {gap : List Char} (hgap : AllBlank gap) (cs : List Char) :
    trim (gap ++ cs) = trim cs := by
  rw [trim, trim, List.dropWhile_append_of_pos hgap]

theorem trim_append_blanks {gap : List Char} (hgap : AllBlank gap) (cs : List Char) :
    trim (cs ++ gap) = trim cs := by
  have hfront : ∀ rest, (gap.reverse ++ rest).dropWhile isBlank = rest.dropWhile isBlank :=
    fun rest => List.dropWhile_append_of_pos fun c hc => hgap c (List.mem_reverse.mp hc)
  rw [trim, trim, List.dropWhile_append]
  cases hcs : cs.dropWhile isBlank with
  | nil => simp [List.dropWhile_eq_nil_iff.mpr hgap]
  | cons c rest => rw [List.isEmpty_cons, if_neg (by simp), List.reverse_append, hfront]

theorem trim_eq_self {t : List Char} (hhead : ∀ c ∈ t.head?, isBlank c = false)
    (hlast : ∀ c ∈ t.getLast?, isBlank c = false) : trim t = t := by
  have hfront : ∀ xs : List Char, (∀ c ∈ xs.head?, isBlank c = false) → xs.dropWhile isBlank = xs
    | [], _ => rfl
    | c :: _, h => List.dropWhile_cons_of_neg (by simp [h c rfl])
  rw [trim, hfront t hhead, hfront t.reverse (by simpa using hlast), List.reverse_reverse]

/-- **Trimming leaves what may be left**, and only one text may. -/
theorem trim_eq_iff_trimsTo {cs t : List Char} : trim cs = t ↔ TrimsTo cs t := by
  constructor
  · rintro rfl
    exact trimsTo_trim cs
  · intro h
    obtain ⟨before, after, hbefore, hafter, rfl⟩ := h.around
    rw [trim_blanks_append hbefore, trim_append_blanks hafter, trim_eq_self h.head h.last]

theorem trim_map {f : Char → Char} (hf : ∀ c, isBlank (f c) = isBlank c) (cs : List Char) :
    trim (cs.map f) = (trim cs).map f := by
  have hblank : isBlank ∘ f = isBlank := funext hf
  rw [trim, trim, List.dropWhile_map, hblank, ← List.map_reverse, List.dropWhile_map, hblank,
    List.map_reverse]

/-- **Trimming changes no word.** -/
theorem words_trim (cs : List Char) : words (trim cs) = words cs := by
  obtain ⟨before, after, hbefore, hafter, hcs, -⟩ := exists_trim cs
  rw [hcs, words_blanks_append hbefore, words_append_blanks hafter, ← hcs]

/-- **A trimmed text begins as its first word does**, and is empty if there is none. -/
theorem trim_cases (cs : List Char) :
    (trim cs = [] ∧ words cs = []) ∨
      ∃ c t w ws, trim cs = c :: t ∧ words cs = (c :: w) :: ws := by
  obtain ⟨-, -, -, -, -, hhead⟩ := exists_trim cs
  rw [← words_trim cs]
  generalize trim cs = text at hhead ⊢
  rcases text with _ | ⟨c, t⟩
  · exact Or.inl ⟨rfl, rfl⟩
  · obtain ⟨w, ws, hw⟩ := exists_words_cons (hhead c rfl) t
    exact Or.inr ⟨c, t, w, ws, rfl, hw⟩

end Text
end ScreenBridge
