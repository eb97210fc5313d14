/-
# A matrix is a set of places

Placing keys one after another, in whatever order and how often, makes a matrix in
which no place occurs twice (`Matrix.Built.nodup`): the crossings of a key are those
it had and then the new ones, each where it came up first (`Matrix.cellsFor_placeAll`).
A keyboard counts the crossings of a key in any order to the same counters
(`HoldCounters.pressEach_perm`), so two keyboards whose matrices have the same places
cannot be told apart (`Keyboard.Alike.answers_eq`).

Key definitions: `Matrix.place`, `Matrix.placeAll`, `Matrix.placed`, `Keyboard.Answer`,
`Keyboard.answers`, `Keyboard.Alike`.
Key theorems: `Matrix.cellsFor_placeAll`, `Matrix.entries_placeAll`,
`HoldCounters.pressEach_perm`, `Keyboard.Alike.act`,
`Matrix.places_alone_decide`.
-/
import Mathlib.Data.Finset.Card
import Mathlib.Data.List.Perm.Basic
import ScreenBridge.Proofs.Keyboard

namespace ScreenBridge

/-! ### Placing keys one after another -/

namespace Matrix

/-- The matrix after an attempt to place a key. If that is refused, it stays. -/
def place (m : Matrix) (p : Cell × Key) : Matrix :=
  match m.add p.2 p.1 with
  | .ok m' => m'
  | .error _ => m

/-- The matrix after attempts to place keys, one after another. -/
def placeAll (m : Matrix) (ps : List (Cell × Key)) : Matrix := ps.foldl place m

/-- The places of a key among those that are asked for, in order. -/
def placed (key : Key) (ps : List (Cell × Key)) : List Cell :=
  (ps.filter (·.2 = key)).map (·.1)

variable {m m' : Matrix} {p : Cell × Key} {key : Key}

theorem add_eq_error_iff {cell : Cell} {e : MatrixError} :
    m.add key cell = .error e ↔ key = .unknown ∧ e = .unmappableKey key := by
  unfold add
  by_cases hkey : key = .unknown
  · simp [hkey, eq_comm]
  · rw [if_neg hkey]
    split <;> simp [hkey]

theorem place_of_unknown (h : p.2 = .unknown) : m.place p = m := by
  have hadd : m.add p.2 p.1 = .error (.unmappableKey p.2) := add_eq_error_iff.mpr ⟨h, rfl⟩
  rw [place, hadd]

theorem entries_place (h : p.2 ≠ .unknown) :
    (m.place p).entries = if p ∈ m.entries then m.entries else m.entries ++ [p] := by
  obtain ⟨cell, key⟩ := p
  unfold place add
  rw [if_neg h]
  by_cases hp : (cell, key) ∈ m.entries <;> simp [hp]

theorem Built.place (h : m.Built) (p : Cell × Key) : (m.place p).Built := by
  unfold Matrix.place
  cases hadd : m.add p.2 p.1 with
  | error e => exact h
  | ok m' => exact h.add hadd

theorem Built.placeAll : ∀ (ps : List (Cell × Key)) {m : Matrix}, m.Built → (m.placeAll ps).Built
  | [], _, h => h
  | p :: ps, _, h => Built.placeAll ps (h.place p)

theorem mem_entries_place {q : Cell × Key} :
    q ∈ (m.place p).entries ↔ q ∈ m.entries ∨ p.2 ≠ .unknown ∧ q = p := by
  by_cases hkey : p.2 = .unknown
  · simp [place_of_unknown hkey, hkey]
  · rw [entries_place hkey]
    split
    · rename_i hp
      simp only [hkey, ne_eq, not_false_eq_true, true_and, iff_self_or]
      exact fun hq => hq ▸ hp
    · simp [hkey]

/-- **The places of a matrix** are those that it had and those that were asked for, but
for those of the unknown key. -/
theorem entries_placeAll : ∀ (ps : List (Cell × Key)) {m : Matrix} {q : Cell × Key},
    q ∈ (m.placeAll ps).entries ↔ q ∈ m.entries ∨ q ∈ ps ∧ q.2 ≠ .unknown
  | [], _, _ => by simp [placeAll]
  | p :: ps, m, q => by
    change q ∈ ((m.place p).placeAll ps).entries ↔ _
    rw [entries_placeAll ps, mem_entries_place, List.mem_cons]
    constructor
    · rintro ((hq | ⟨hkey, rfl⟩) | ⟨hq, hkey⟩)
      · exact Or.inl hq
      · exact Or.inr ⟨Or.inl rfl, hkey⟩
      · exact Or.inr ⟨Or.inr hq, hkey⟩
    · rintro (hq | ⟨rfl | hq, hkey⟩)
      · exact Or.inl (Or.inl hq)
      · exact Or.inl (Or.inr ⟨hkey, rfl⟩)
      · exact Or.inr ⟨hq, hkey⟩

/-- What one more attempt adds to the crossings of a key. -/
theorem cellsFor_place (hkey : key ≠ .unknown) :
    (m.place p).cellsFor key =
      if p.2 = key ∧ p.1 ∉ m.cellsFor key then m.cellsFor key ++ [p.1] else m.cellsFor key := by
  by_cases hp : p.2 = key
  · subst hp
    rw [cellsFor, entries_place hkey]
    by_cases hmem : p ∈ m.entries
    · have hcell : p.1 ∈ m.cellsFor p.2 := mem_cellsFor.mpr hmem
      rw [if_pos hmem, if_neg (fun h => h.2 hcell), cellsFor]
    · have hcell : p.1 ∉ m.cellsFor p.2 := fun h => hmem (mem_cellsFor.mp h)
      rw [if_neg hmem, if_pos ⟨rfl, hcell⟩]
      simp [cellsFor]
  · rw [if_neg fun h => hp h.1]
    by_cases hunknown : p.2 = .unknown
    · rw [place_of_unknown hunknown]
    · rw [cellsFor, entries_place hunknown]
      split
      · rfl
      · simp [cellsFor, hp]

/-- **The crossings of a key stand in the order in which they came up**: those that it
had, and then each new one where it was asked for first. -/
theorem cellsFor_placeAll (hkey : key ≠ .unknown) : ∀ (ps : List (Cell × Key)) (m : Matrix),
    (m.placeAll ps).cellsFor key =
      m.cellsFor key ++ ((placed key ps).removeAll (m.cellsFor key)).eraseDups
  | [], m => by simp [placeAll, placed, List.removeAll]
  | p :: ps, m => by
    change ((m.place p).placeAll ps).cellsFor key = _
    rw [cellsFor_placeAll hkey ps, cellsFor_place hkey]
    by_cases hp : p.2 = key
    · have hplaced : placed key (p :: ps) = p.1 :: placed key ps := by simp [placed, hp]
      rw [hplaced]
      by_cases hcell : p.1 ∈ m.cellsFor key
      · rw [if_neg fun h => h.2 hcell]
        simp only [List.removeAll, List.filter_cons, List.elem_eq_mem, hcell, decide_true,
          Bool.not_true, Bool.false_eq_true, if_false]
      · rw [if_pos ⟨hp, hcell⟩]
        simp only [List.removeAll, List.filter_cons, List.elem_eq_mem, hcell, decide_false,
          Bool.not_false, if_true, List.eraseDups_cons, List.filter_filter, List.append_assoc,
          List.singleton_append]
        congr 4
        funext cell
        by_cases h : cell = p.1 <;> simp [h]
    · have hplaced : placed key (p :: ps) = placed key ps := by simp [placed, hp]
      rw [if_neg fun h => hp h.1, hplaced]

theorem contains_iff : m.contains key = true ↔ m.cellsFor key ≠ [] := by
  rw [contains, List.any_eq_true, ← List.length_pos_iff_ne_nil, List.length_pos_iff_exists_mem]
  constructor
  · rintro ⟨⟨cell, k⟩, he, hk⟩
    obtain rfl : k = key := by simpa using hk
    exact ⟨cell, mem_cellsFor.mpr he⟩
  · rintro ⟨cell, hcell⟩
    exact ⟨(cell, key), mem_cellsFor.mp hcell, by simp⟩

/-- Matrices with the same places list the same crossings of a key, perhaps in
different order. -/
theorem Built.cellsFor_perm (h : m.Built) (h' : m'.Built)
    (heq : ∀ q, q ∈ m.entries ↔ q ∈ m'.entries) (key : Key) :
    (m.cellsFor key).Perm (m'.cellsFor key) := by
  refine (List.perm_ext_iff_of_nodup (h.nodup_cellsFor key) (h'.nodup_cellsFor key)).mpr ?_
  exact fun cell => mem_cellsFor.trans ((heq _).trans mem_cellsFor.symm)

end Matrix

/-! ### The order of crossings does not count -/

namespace HoldCounters

variable {cells cells' : List Cell}

theorem countUp_comm (counts : Vector UInt32 8) (i j : Fin 8) :
    countUp (countUp counts i) j = countUp (countUp counts j) i := by
  by_cases hij : i = j
  · rw [hij]
  · have hi : (countUp counts j).get i = counts.get i := by rw [get_countUp, if_neg (Ne.symm hij)]
    have hj : (countUp counts i).get j = counts.get j := by rw [get_countUp, if_neg hij]
    rw [countUp, hj, countUp, countUp, hi, countUp]
    exact Vector.set_comm _ _ fun h => hij (Fin.ext h)

theorem countDown_comm (counts : Vector UInt32 8) (i j : Fin 8) :
    countDown (countDown counts i) j = countDown (countDown counts j) i := by
  by_cases hij : i = j
  · rw [hij]
  · have hi : (countDown counts j).get i = counts.get i := by
      rw [get_countDown, if_neg (Ne.symm hij)]
    have hj : (countDown counts i).get j = counts.get j := by rw [get_countDown, if_neg hij]
    rw [countDown, hj, countDown, countDown, hi, countDown]
    exact Vector.set_comm _ _ fun h => hij (Fin.ext h)

/-- Pressing the same crossings in another order comes to the same counters. -/
theorem pressEach_perm (h : cells.Perm cells') (c : HoldCounters) :
    c.pressEach cells = c.pressEach cells' := by
  refine h.foldl_eq' (fun x _ y _ c => ?_) c
  exact congrArg₂ mk (countUp_comm c.rows x.row y.row) (countUp_comm c.cols x.col y.col)

theorem releaseEach_perm (h : cells.Perm cells') (c : HoldCounters) :
    c.releaseEach cells = c.releaseEach cells' := by
  refine h.foldl_eq' (fun x _ y _ c => ?_) c
  exact congrArg₂ mk (countDown_comm c.rows x.row y.row) (countDown_comm c.cols x.col y.col)

end HoldCounters

/-! ### Keyboards that cannot be told apart -/

namespace Keyboard

/-- What can be seen of a keyboard after an action: the outcome, if it was an event,
and then the held keys, the counters and the status bytes. -/
structure Answer where
  outcome : Option KeyboardOutcome
  held : List Key
  counters : HoldCounters
  status : Status
  deriving DecidableEq, Repr

/-- The outcome of an action. Letting go of all keys has none. -/
def outcome (k : Keyboard) : KeyboardAction → Option KeyboardOutcome
  | .event e => some (k.apply e).1
  | .releaseAll => none

/-- What can be seen after each of the actions. -/
def answers : Keyboard → List KeyboardAction → List Answer
  | _, [] => []
  | k, a :: actions =>
    let next := k.act a
    ⟨k.outcome a, next.heldKeys, next.counters, next.status⟩ :: next.answers actions

/-- The same keys are held with the same counters, and each key has the same crossings,
in whatever order. -/
structure Alike (k k' : Keyboard) : Prop where
  held : k.held = k'.held
  counters : k.counters = k'.counters
  cells : ∀ key, (k.matrix.cellsFor key).Perm (k'.matrix.cellsFor key)

variable {k k' : Keyboard}

theorem Alike.hold (h : Alike k k') (key : Key) :
    Alike (k.hold key (k.matrix.cellsFor key)) (k'.hold key (k'.matrix.cellsFor key)) where
  held := congrArg (key :: ·) h.held
  counters := by
    change k.counters.pressEach _ = k'.counters.pressEach _
    rw [h.counters, HoldCounters.pressEach_perm (h.cells key)]
  cells := h.cells

theorem Alike.letGo (h : Alike k k') (key : Key) :
    Alike (k.letGo key (k.matrix.cellsFor key)) (k'.letGo key (k'.matrix.cellsFor key)) where
  held := congrArg (·.erase key) h.held
  counters := by
    change k.counters.releaseEach _ = k'.counters.releaseEach _
    rw [h.counters, HoldCounters.releaseEach_perm (h.cells key)]
  cells := h.cells

/-- Whether an event counts depends on the crossings and on the held keys. -/
theorem apply_eq (k : Keyboard) (e : Event) :
    k.apply e =
      let cells := k.matrix.cellsFor e.key
      if cells = [] then (.unmapped, k)
      else if e.motion = .down then
        if e.key ∈ k.held then (.repeated, k)
        else (.applied (k.hold e.key cells).status cells.length, k.hold e.key cells)
      else if e.key ∈ k.held then
        (.applied (k.letGo e.key cells).status cells.length, k.letGo e.key cells)
      else (.unbalanced, k) := by
  rcases apply_cases k e with ⟨hc, h⟩ | ⟨hc, hm, hk, h⟩ | ⟨hc, hm, hk, h⟩ | ⟨hc, hm, hk, h⟩ |
      ⟨hc, hm, hk, h⟩
  · simp [h, hc]
  · simp [h, hc, hm, hk]
  · simp [h, hc, hm, hk]
  · simp [h, hc, hm, hk]
  · simp [h, hc, hm, hk]

/-- An event has the same outcome on both, and leaves them alike. -/
theorem Alike.apply (h : Alike k k') (e : Event) :
    (k.apply e).1 = (k'.apply e).1 ∧ Alike (k.apply e).2 (k'.apply e).2 := by
  have hlen := (h.cells e.key).length_eq
  have hnil : k.matrix.cellsFor e.key = [] ↔ k'.matrix.cellsFor e.key = [] := by
    rw [← List.length_eq_zero_iff, hlen, List.length_eq_zero_iff]
  have hhold := h.hold e.key
  have hletGo := h.letGo e.key
  have hstatus : ∀ {k k' : Keyboard}, Alike k k' → k.status = k'.status :=
    fun h => congrArg (·.status) h.counters
  simp only [apply_eq, ← hnil, ← h.held, ← hlen]
  by_cases hc : k.matrix.cellsFor e.key = []
  · simp only [hc, if_true, true_and]
    exact h
  · by_cases hm : e.motion = .down <;> by_cases hk : e.key ∈ k.held <;>
      simp only [hc, hm, hk, if_true, if_false, true_and]
    · exact h
    · exact ⟨by rw [hstatus hhold], hhold⟩
    · exact ⟨by rw [hstatus hletGo], hletGo⟩
    · exact h

/-- An action leaves such keyboards alike, with the same outcome. -/
theorem Alike.act (h : Alike k k') (a : KeyboardAction) :
    k.outcome a = k'.outcome a ∧ Alike (k.act a) (k'.act a) := by
  cases a with
  | releaseAll => exact ⟨rfl, rfl, rfl, h.cells⟩
  | event e => exact ⟨congrArg some (h.apply e).1, (h.apply e).2⟩

theorem Alike.answers_eq : ∀ (actions : List KeyboardAction) {k k' : Keyboard}, Alike k k' →
    k.answers actions = k'.answers actions
  | [], _, _, _ => rfl
  | a :: actions, k, k', h => by
    obtain ⟨houtcome, hnext⟩ := h.act a
    rw [answers, answers, houtcome, hnext.answers_eq actions, status, status, heldKeys, heldKeys,
      hnext.held, hnext.counters]

theorem alike_idle {m m' : Matrix} (hm : m.Built) (hm' : m'.Built)
    (heq : ∀ q, q ∈ m.entries ↔ q ∈ m'.entries) : Alike (idle m) (idle m') :=
  ⟨rfl, rfl, hm.cellsFor_perm hm' heq⟩

end Keyboard

namespace Matrix

/-- The matrices that one begins with. -/
def IsBase (m : Matrix) : Prop := m = .empty ∨ m = .standard

theorem IsBase.built {m : Matrix} (h : m.IsBase) : m.Built := by
  rcases h with rfl | rfl
  · exact .empty
  · exact .standard

/-- **Of a matrix only its places count.** However keys are placed on the empty matrix or
on that of the home computer, no place occurs twice, each lies in the matrix and has a
key with a name, and there are as many entries as there are different places. Only the
unknown key is refused, and then the matrix stays. A key sits somewhere exactly if it has
crossings; these are the ones it began with and then the new ones, each where it was
asked for first.

If two such matrices have the same places, then whatever is done to the keyboards over
them, nothing tells these apart. -/
theorem places_alone_decide {base : Matrix} (hbase : base.IsBase) (ps : List (Cell × Key)) :
    let m := base.placeAll ps
    (m.entries.Nodup ∧
      (∀ e ∈ m.entries, e.2 ≠ .unknown ∧ e.1.row.val < 8 ∧ e.1.col.val < 8) ∧
      m.size = (base.entries ++ ps.filter (·.2 ≠ .unknown)).toFinset.card) ∧
    (∀ key cell, ((∃ e, m.add key cell = .error e) ↔ key = .unknown) ∧
      ∀ e, m.add key cell = .error e → m.place (cell, key) = m) ∧
    (∀ key, m.contains key = true ↔ m.cellsFor key ≠ []) ∧
    (∀ key, key ≠ .unknown → m.cellsFor key =
      base.cellsFor key ++ ((placed key ps).removeAll (base.cellsFor key)).eraseDups) ∧
    m.cellsFor .unknown = [] ∧
    ∀ base' : Matrix, base'.IsBase → ∀ ps', (∀ q, q ∈ m.entries ↔ q ∈ (base'.placeAll ps').entries) →
      ∀ actions, (Keyboard.idle m).answers actions =
        (Keyboard.idle (base'.placeAll ps')).answers actions := by
  intro m
  have hbuilt : m.Built := hbase.built.placeAll ps
  have hset : m.entries.toFinset = (base.entries ++ ps.filter (·.2 ≠ .unknown)).toFinset := by
    ext q
    simp only [m, List.mem_toFinset, entries_placeAll, List.mem_append, List.mem_filter,
      decide_eq_true_eq]
  have hsize : m.size = (base.entries ++ ps.filter (·.2 ≠ .unknown)).toFinset.card := by
    rw [← hset, List.toFinset_card_of_nodup hbuilt.nodup, size]
  have hrefused : ∀ key cell, (∃ e, m.add key cell = .error e) ↔ key = .unknown := fun key cell =>
    ⟨fun ⟨e, he⟩ => (add_eq_error_iff.mp he).1, fun h => ⟨_, add_eq_error_iff.mpr ⟨h, rfl⟩⟩⟩
  refine ⟨⟨hbuilt.nodup, ?_, hsize⟩, fun key cell => ⟨hrefused key cell, fun e he => ?_⟩,
    fun key => contains_iff, fun key hkey => cellsFor_placeAll hkey ps base,
    hbuilt.cellsFor_unknown, fun base' hbase' ps' heq actions => ?_⟩
  · exact fun e he => ⟨hbuilt.ne_unknown e he, e.1.row.isLt, e.1.col.isLt⟩
  · exact place_of_unknown ((hrefused key cell).mp ⟨e, he⟩)
  · exact (Keyboard.alike_idle hbuilt (hbase'.built.placeAll ps') heq).answers_eq actions

/-- The key for the cursor going up is placed twice in one order, and three times in the
other: the crossings are listed differently, and no keyboard shows it. -/
theorem order_of_aliases_does_not_show :
    let m := standard.placeAll [(⟨6, 4⟩, .arrowUp), (⟨0, 7⟩, .arrowUp)]
    let m' := standard.placeAll
      [(⟨0, 7⟩, .arrowUp), (⟨6, 4⟩, .arrowUp), (⟨1, 1⟩, .unknown), (⟨0, 7⟩, .arrowUp)]
    m.cellsFor .arrowUp = [⟨6, 4⟩, ⟨0, 7⟩] ∧ m'.cellsFor .arrowUp = [⟨0, 7⟩, ⟨6, 4⟩] ∧
      ∀ actions, (Keyboard.idle m).answers actions = (Keyboard.idle m').answers actions := by
  intro m m'
  obtain ⟨-, -, -, hcells, -, halike⟩ := places_alone_decide (Or.inr rfl : standard.IsBase)
    [(⟨6, 4⟩, .arrowUp), (⟨0, 7⟩, .arrowUp)]
  refine ⟨(hcells .arrowUp (by decide)).trans (by decide +kernel), by decide +kernel, ?_⟩
  refine halike standard (Or.inr rfl) _ fun q => ?_
  rw [entries_placeAll, entries_placeAll]
  refine or_congr_right ?_
  simp only [List.mem_cons, List.not_mem_nil, or_false]
  constructor
  · rintro ⟨rfl | rfl, hkey⟩ <;> simp
  · rintro ⟨rfl | rfl | rfl | rfl, hkey⟩
    · simp
    · simp
    · exact absurd rfl hkey
    · simp

end Matrix
end ScreenBridge
