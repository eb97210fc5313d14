/-
# The hold counters count the held keys

Whatever events a keyboard gets, each row and each column counts the pairs of a
held key and one of its crossings in that line (`Sound`, `Sound.run`). The
matrix lists no crossing of a key twice and a key that is held cannot go down
again, so a counter never wraps; and a key that is let go was counted when it
went down, so a counter is never clamped at zero. A bit of the status bytes is
therefore set exactly while some held key has a crossing in the line
(`Sound.testBit_row`, `Sound.testBit_col`).

Key definitions: `KeyboardAction`, `Keyboard.run`, `Keyboard.heldPairs`,
`Keyboard.Sound`.
Key theorems: `Keyboard.apply_cases`, `Keyboard.Sound.run`,
`Keyboard.Sound.testBit_row`, `Keyboard.counters_count_heldPairs`.
-/
import Mathlib.Algebra.BigOperators.Fin
import Mathlib.Data.Fintype.BigOperators
import ScreenBridge.Keyboard
import ScreenBridge.Proofs.Counters
import ScreenBridge.Proofs.Matrix

namespace ScreenBridge

/-- What is done to a keyboard. -/
inductive KeyboardAction
  | event (e : Event)
  | releaseAll
  deriving DecidableEq, Repr

namespace Keyboard

/-- The keyboard after an action. -/
def act (k : Keyboard) : KeyboardAction → Keyboard
  | .event e => (k.apply e).2
  | .releaseAll => k.releaseAll

/-- The keyboard after actions, one after another. -/
def run (k : Keyboard) (actions : List KeyboardAction) : Keyboard := actions.foldl act k

variable {k : Keyboard}

/-! ### What an event can do -/

/-- What an event does: nothing, with the reason, or it holds its key or lets it
go at all its crossings. -/
theorem apply_cases (k : Keyboard) (e : Event) :
    let cells := k.matrix.cellsFor e.key
    (cells = [] ∧ k.apply e = (.unmapped, k)) ∨
    (cells ≠ [] ∧ e.motion = .down ∧ e.key ∈ k.held ∧ k.apply e = (.repeated, k)) ∨
    (cells ≠ [] ∧ e.motion = .up ∧ e.key ∉ k.held ∧ k.apply e = (.unbalanced, k)) ∨
    (cells ≠ [] ∧ e.motion = .down ∧ e.key ∉ k.held ∧
      k.apply e = (.applied (k.hold e.key cells).status cells.length, k.hold e.key cells)) ∨
    (cells ≠ [] ∧ e.motion = .up ∧ e.key ∈ k.held ∧
      k.apply e = (.applied (k.letGo e.key cells).status cells.length, k.letGo e.key cells)) := by
  intro cells
  unfold apply
  cases hc : k.matrix.cellsFor e.key with
  | nil => simp [cells, hc]
  | cons c cs => cases hm : e.motion <;> by_cases hk : e.key ∈ k.held <;> simp [cells, hc, hk]

@[simp] theorem matrix_apply (k : Keyboard) (e : Event) : (k.apply e).2.matrix = k.matrix := by
  rcases apply_cases k e with ⟨-, h⟩ | ⟨-, -, -, h⟩ | ⟨-, -, -, h⟩ | ⟨-, -, -, h⟩ | ⟨-, -, -, h⟩ <;>
    rw [h] <;> rfl

@[simp] theorem matrix_act (k : Keyboard) (a : KeyboardAction) : (k.act a).matrix = k.matrix := by
  cases a with
  | event e => exact matrix_apply k e
  | releaseAll => rfl

@[simp] theorem matrix_run : ∀ (actions : List KeyboardAction) (k : Keyboard),
    (k.run actions).matrix = k.matrix
  | [], _ => rfl
  | a :: actions, k => (matrix_run actions (k.act a)).trans (matrix_act k a)

theorem apply_eq_self {e : Event} (h : ∀ status n, (k.apply e).1 ≠ .applied status n) :
    (k.apply e).2 = k := by
  rcases apply_cases k e with ⟨-, h'⟩ | ⟨-, -, -, h'⟩ | ⟨-, -, -, h'⟩ | ⟨-, -, -, h'⟩ | ⟨-, -, -, h'⟩
  · rw [h']
  · rw [h']
  · rw [h']
  · exact absurd (congrArg Prod.fst h') (h _ _)
  · exact absurd (congrArg Prod.fst h') (h _ _)

theorem eq_of_apply_applied {e : Event} {status : Status} {n : ℕ}
    (h : (k.apply e).1 = .applied status n) :
    status = (k.apply e).2.status ∧ n = (k.matrix.cellsFor e.key).length := by
  rcases apply_cases k e with ⟨-, h'⟩ | ⟨-, -, -, h'⟩ | ⟨-, -, -, h'⟩ | ⟨-, -, -, h'⟩ | ⟨-, -, -, h'⟩ <;>
    rw [h'] at h ⊢ <;> cases h
  · exact ⟨rfl, rfl⟩
  · exact ⟨rfl, rfl⟩

theorem counters_apply_down {e : Event} (hd : e.motion = .down) (hk : e.key ∉ k.held) :
    (k.apply e).2.counters = k.counters.pressEach (k.matrix.cellsFor e.key) := by
  rcases apply_cases k e with ⟨hc, h'⟩ | ⟨-, -, hk', -⟩ | ⟨-, hu, -, -⟩ | ⟨-, -, -, h'⟩ | ⟨-, -, hk', -⟩
  · rw [h', hc]; rfl
  · exact absurd hk' hk
  · rw [hd] at hu; cases hu
  · rw [h']; rfl
  · exact absurd hk' hk

theorem counters_apply_up {e : Event} (hu : e.motion = .up) (hk : e.key ∈ k.held) :
    (k.apply e).2.counters = k.counters.releaseEach (k.matrix.cellsFor e.key) := by
  rcases apply_cases k e with ⟨hc, h'⟩ | ⟨-, hd, -, -⟩ | ⟨-, -, hk', -⟩ | ⟨-, -, hk', -⟩ | ⟨-, -, -, h'⟩
  · rw [h', hc]; rfl
  · rw [hu] at hd; cases hd
  · exact absurd hk hk'
  · exact absurd hk hk'
  · rw [h']; rfl

/-! ### Held pairs -/

/-- The pairs of a held key and a crossing at which it sits. -/
def heldPairs (k : Keyboard) : Finset (Key × Cell) :=
  (k.held.flatMap fun key => (k.matrix.cellsFor key).map (Prod.mk key)).toFinset

theorem mem_heldPairs {p : Key × Cell} :
    p ∈ k.heldPairs ↔ p.1 ∈ k.held ∧ p.2 ∈ k.matrix.cellsFor p.1 := by
  obtain ⟨key, cell⟩ := p
  simp [heldPairs]

/-- How many entries of the matrix in a line are of held keys. -/
def heldIn (k : Keyboard) (line : Cell → Fin 8) (n : Fin 8) : ℕ :=
  k.matrix.entries.countP fun e => decide (e.2 ∈ k.held) && decide (line e.1 = n)

theorem card_heldPairs_filter (hm : k.matrix.Built) (line : Cell → Fin 8) (n : Fin 8) :
    (k.heldPairs.filter fun p => line p.2 = n).card = k.heldIn line n := by
  set es := k.matrix.entries.filter fun e => decide (e.2 ∈ k.held) && decide (line e.1 = n) with hes
  have hpairs : k.heldPairs.filter (fun p => line p.2 = n) = (es.map Prod.swap).toFinset := by
    ext ⟨key, cell⟩
    simp only [Finset.mem_filter, mem_heldPairs, Matrix.mem_cellsFor, List.mem_toFinset, List.mem_map,
      hes, List.mem_filter, Bool.and_eq_true, decide_eq_true_eq, Prod.exists, Prod.swap_prod_mk,
      Prod.mk.injEq]
    constructor
    · rintro ⟨⟨hk, he⟩, hl⟩
      exact ⟨cell, key, ⟨he, hk, hl⟩, rfl, rfl⟩
    · rintro ⟨c, x, ⟨he, hk, hl⟩, rfl, rfl⟩
      exact ⟨⟨hk, he⟩, hl⟩
  have hnd : (es.map Prod.swap).Nodup := (hm.nodup.filter _).map Prod.swap_injective
  rw [hpairs, List.toFinset_card_of_nodup hnd, List.length_map, heldIn, List.countP_eq_length_filter]

theorem heldIn_le (hm : k.matrix.Built) (line : Cell → Fin 8) (n : Fin 8) :
    k.heldIn line n ≤ 4928 :=
  List.countP_le_length.trans hm.size_le

theorem countP_cellsFor_le {key : Key} (hk : key ∈ k.held) (line : Cell → Fin 8) (n : Fin 8) :
    (k.matrix.cellsFor key).countP (line · = n) ≤ k.heldIn line n := by
  rw [Matrix.countP_cellsFor]
  refine List.countP_mono_left fun e _ he => ?_
  simp only [Bool.and_eq_true, decide_eq_true_eq] at he ⊢
  exact ⟨he.1 ▸ hk, he.2⟩

/-- If one more key is held, the counts grow by its crossings. -/
theorem heldIn_eq_add (k k' : Keyboard) {key : Key} (hm : k'.matrix = k.matrix)
    (hother : ∀ x, x ≠ key → (x ∈ k'.held ↔ x ∈ k.held)) (hnew : key ∈ k'.held) (hold : key ∉ k.held)
    (line : Cell → Fin 8) (n : Fin 8) :
    k'.heldIn line n = k.heldIn line n + (k.matrix.cellsFor key).countP (line · = n) := by
  rw [Matrix.countP_cellsFor, heldIn, heldIn, hm]
  generalize k.matrix.entries = es
  induction es with
  | nil => rfl
  | cons e es ih =>
    rw [List.countP_cons, List.countP_cons, List.countP_cons, ih]
    by_cases he : e.2 = key
    · by_cases hl : line e.1 = n <;> simp [he, hl, hnew, hold, Nat.add_assoc]
    · simp only [he, hother e.2 he, decide_false, Bool.false_and]
      simp only [Bool.false_eq_true, ↓reduceIte, Nat.add_zero]
      omega

/-! ### Keyboards whose counters count -/

/-- The matrix is one that can be built, each held key is held once and has a
crossing, and each counter counts the held pairs in its line. -/
structure Sound (k : Keyboard) : Prop where
  built : k.matrix.Built
  nodup : k.held.Nodup
  mapped : ∀ key ∈ k.held, k.matrix.cellsFor key ≠ []
  rows : ∀ n : Fin 8, (k.counters.rowCount n).toNat = k.heldIn (·.row) n
  cols : ∀ n : Fin 8, (k.counters.colCount n).toNat = k.heldIn (·.col) n

theorem sound_of_none_held (hm : k.matrix.Built) (hh : k.held = []) (hc : k.counters = .zero) :
    k.Sound where
  built := hm
  nodup := hh ▸ List.nodup_nil
  mapped := by simp [hh]
  rows n := by rw [hc, HoldCounters.rowCount_zero]; simp [heldIn, hh]
  cols n := by rw [hc, HoldCounters.colCount_zero]; simp [heldIn, hh]

theorem sound_idle {m : Matrix} (hm : m.Built) : (idle m).Sound :=
  sound_of_none_held hm rfl rfl

theorem Sound.releaseAll (h : k.Sound) : k.releaseAll.Sound :=
  sound_of_none_held h.built rfl rfl

theorem count_map_line (line : Cell → Fin 8) (cells : List Cell) (n : Fin 8) :
    (cells.map line).count n = cells.countP (line · = n) := by
  rw [List.count, List.countP_map]
  rfl

theorem heldIn_hold {key : Key} (hk : key ∉ k.held) (line : Cell → Fin 8) (n : Fin 8) :
    (k.hold key (k.matrix.cellsFor key)).heldIn line n =
      k.heldIn line n + ((k.matrix.cellsFor key).map line).count n := by
  rw [count_map_line]
  refine heldIn_eq_add k (k.hold key _) rfl (fun x hx => ?_) List.mem_cons_self hk line n
  simp [hold, hx]

theorem heldIn_letGo (hnd : k.held.Nodup) {key : Key} (hk : key ∈ k.held) (line : Cell → Fin 8)
    (n : Fin 8) :
    k.heldIn line n =
      (k.letGo key (k.matrix.cellsFor key)).heldIn line n +
        ((k.matrix.cellsFor key).map line).count n := by
  rw [count_map_line]
  refine heldIn_eq_add (k.letGo key (k.matrix.cellsFor key)) k rfl (fun x hx => ?_) hk ?_ line n
  · simp [letGo, hnd.mem_erase_iff, hx]
  · simp [letGo, hnd.mem_erase_iff]

theorem heldIn_add_count_lt (hm : k.matrix.Built) {key : Key} (hk : key ∉ k.held)
    (line : Cell → Fin 8) (n : Fin 8) :
    k.heldIn line n + ((k.matrix.cellsFor key).map line).count n < UInt32.size := by
  rw [← heldIn_hold hk]
  refine Nat.lt_of_le_of_lt (heldIn_le ?_ line n) (by decide : 4928 < UInt32.size)
  exact hm

theorem toNat_countUp_cellsFor (hm : k.matrix.Built) {key : Key} (hk : key ∉ k.held)
    (line : Cell → Fin 8) {n : Fin 8} {counts : Vector UInt32 8}
    (hc : (counts.get n).toNat = k.heldIn line n) :
    ((((k.matrix.cellsFor key).map line).foldl HoldCounters.countUp counts).get n).toNat =
      (k.hold key (k.matrix.cellsFor key)).heldIn line n := by
  rw [HoldCounters.countUp_foldl n _ _ (hc ▸ heldIn_add_count_lt hm hk line n), hc, heldIn_hold hk]

theorem toNat_countDown_cellsFor (hnd : k.held.Nodup) {key : Key} (hk : key ∈ k.held)
    (line : Cell → Fin 8) {n : Fin 8} {counts : Vector UInt32 8}
    (hc : (counts.get n).toNat = k.heldIn line n) :
    ((((k.matrix.cellsFor key).map line).foldl HoldCounters.countDown counts).get n).toNat =
      (k.letGo key (k.matrix.cellsFor key)).heldIn line n := by
  rw [HoldCounters.countDown_foldl, hc, heldIn_letGo hnd hk]
  exact Nat.add_sub_cancel _ _

theorem Sound.hold (h : k.Sound) {key : Key} (hc : k.matrix.cellsFor key ≠ []) (hk : key ∉ k.held) :
    (k.hold key (k.matrix.cellsFor key)).Sound where
  built := h.built
  nodup := List.nodup_cons.mpr ⟨hk, h.nodup⟩
  mapped x hx := by
    rcases List.mem_cons.mp hx with rfl | hx
    · exact hc
    · exact h.mapped x hx
  rows n := by
    rw [← toNat_countUp_cellsFor h.built hk (·.row) (h.rows n), ← HoldCounters.rows_pressEach]
    rfl
  cols n := by
    rw [← toNat_countUp_cellsFor h.built hk (·.col) (h.cols n), ← HoldCounters.cols_pressEach]
    rfl

theorem Sound.letGo (h : k.Sound) {key : Key} (hk : key ∈ k.held) :
    (k.letGo key (k.matrix.cellsFor key)).Sound where
  built := h.built
  nodup := h.nodup.erase _
  mapped x hx := h.mapped x (List.mem_of_mem_erase hx)
  rows n := by
    rw [← toNat_countDown_cellsFor h.nodup hk (·.row) (h.rows n), ← HoldCounters.rows_releaseEach]
    rfl
  cols n := by
    rw [← toNat_countDown_cellsFor h.nodup hk (·.col) (h.cols n), ← HoldCounters.cols_releaseEach]
    rfl

theorem Sound.apply (h : k.Sound) (e : Event) : (k.apply e).2.Sound := by
  rcases apply_cases k e with ⟨-, h'⟩ | ⟨-, -, -, h'⟩ | ⟨-, -, -, h'⟩ | ⟨hc, -, hk, h'⟩ | ⟨-, -, hk, h'⟩ <;>
    rw [h']
  · exact h
  · exact h
  · exact h
  · exact h.hold hc hk
  · exact h.letGo hk

theorem Sound.act (h : k.Sound) (a : KeyboardAction) : (k.act a).Sound := by
  cases a with
  | event e => exact h.apply e
  | releaseAll => exact h.releaseAll

/-- The counters count through every run. -/
theorem Sound.run : ∀ (actions : List KeyboardAction) {k : Keyboard}, k.Sound → (k.run actions).Sound
  | [], _, h => h
  | a :: actions, _, h => Sound.run actions (h.act a)

/-- An event decides about its key, if that has a crossing, and about no other. -/
theorem Sound.mem_held_apply (h : k.Sound) (e : Event) (key : Key) :
    key ∈ (k.apply e).2.held ↔
      if key = e.key ∧ k.matrix.cellsFor key ≠ [] then e.motion = .down else key ∈ k.held := by
  by_cases hx : key = e.key
  · subst hx
    rcases apply_cases k e with ⟨hc, h'⟩ | ⟨hc, hm, hk, h'⟩ | ⟨hc, hm, hk, h'⟩ | ⟨hc, hm, hk, h'⟩ |
      ⟨hc, hm, hk, h'⟩
    · simp [h', hc]
    · simp [h', hc, hm, hk]
    · simp [h', hc, hm, hk]
    · simp [h', hc, hm, Keyboard.hold]
    · simp [h', hc, hm, Keyboard.letGo, h.nodup.mem_erase_iff]
  · rcases apply_cases k e with ⟨-, h'⟩ | ⟨-, -, -, h'⟩ | ⟨-, -, -, h'⟩ | ⟨-, -, -, h'⟩ | ⟨-, -, -, h'⟩
    · simp [h', hx]
    · simp [h', hx]
    · simp [h', hx]
    · simp [h', hx, Keyboard.hold]
    · simp [h', hx, Keyboard.letGo, h.nodup.mem_erase_iff]

theorem Sound.applied_iff_held_ne (h : k.Sound) (e : Event) :
    (∃ status n, (k.apply e).1 = .applied status n) ↔
      ¬ ∀ key, key ∈ (k.apply e).2.held ↔ key ∈ k.held := by
  rcases apply_cases k e with ⟨-, h'⟩ | ⟨-, -, -, h'⟩ | ⟨-, -, -, h'⟩ | ⟨-, -, hk, h'⟩ | ⟨-, -, hk, h'⟩ <;>
    rw [h']
  · simp
  · simp
  · simp
  · refine iff_of_true ⟨_, _, rfl⟩ fun hall => hk ((hall e.key).mp List.mem_cons_self)
  · refine iff_of_true ⟨_, _, rfl⟩ fun hall => ?_
    exact h.nodup.not_mem_erase ((hall e.key).mpr hk)

theorem Sound.neverClamps (h : k.Sound) {key : Key} (hk : key ∈ k.held) :
    k.counters.NeverClamps (k.matrix.cellsFor key) := by
  apply HoldCounters.neverClamps_of_le
  · intro n
    rw [h.rows n, count_map_line]
    exact countP_cellsFor_le hk (·.row) n
  · intro n
    rw [h.cols n, count_map_line]
    exact countP_cellsFor_le hk (·.col) n

theorem Sound.neverWraps (h : k.Sound) {key : Key} (hk : key ∉ k.held) :
    k.counters.NeverWraps (k.matrix.cellsFor key) := by
  apply HoldCounters.neverWraps_of_lt
  · intro n
    rw [h.rows n]
    exact heldIn_add_count_lt h.built hk (·.row) n
  · intro n
    rw [h.cols n]
    exact heldIn_add_count_lt h.built hk (·.col) n

theorem Sound.sum_rows_eq_sum_cols (h : k.Sound) :
    ∑ n : Fin 8, (k.counters.rowCount n).toNat = ∑ n : Fin 8, (k.counters.colCount n).toNat := by
  have hsum : ∀ line : Cell → Fin 8, ∑ n : Fin 8, k.heldIn line n = k.heldPairs.card := by
    intro line
    rw [Finset.card_eq_sum_card_fiberwise (f := fun p => line p.2) (t := Finset.univ)
      fun p _ => Finset.mem_coe.mpr (Finset.mem_univ _)]
    exact Finset.sum_congr rfl fun n _ => (card_heldPairs_filter h.built line n).symm
  calc ∑ n : Fin 8, (k.counters.rowCount n).toNat = k.heldPairs.card := by
        rw [← hsum (·.row)]; exact Finset.sum_congr rfl fun n _ => h.rows n
    _ = ∑ n : Fin 8, (k.counters.colCount n).toNat := by
        rw [← hsum (·.col)]; exact Finset.sum_congr rfl fun n _ => (h.cols n).symm

/-! ### Status bits -/

theorem heldIn_pos {line : Cell → Fin 8} {n : Fin 8} :
    0 < k.heldIn line n ↔ ∃ key ∈ k.held, ∃ cell ∈ k.matrix.cellsFor key, line cell = n := by
  simp only [heldIn, List.countP_pos_iff, Bool.and_eq_true, decide_eq_true_eq, Matrix.mem_cellsFor,
    Prod.exists]
  constructor
  · rintro ⟨cell, key, he, hk, hl⟩
    exact ⟨key, hk, cell, he, hl⟩
  · rintro ⟨key, hk, cell, he, hl⟩
    exact ⟨cell, key, he, hk, hl⟩

/-- A bit of the row byte is set while a held key has a crossing in the row. -/
theorem Sound.testBit_row (h : k.Sound) (n : Fin 8) :
    k.status.row.toNat.testBit n = true ↔
      ∃ key ∈ k.held, ∃ cell ∈ k.matrix.cellsFor key, cell.row = n := by
  refine (testBit_packCounts _ n).trans ?_
  change 0 < k.counters.rowCount n ↔ _
  rw [UInt32.lt_iff_toNat_lt, h.rows n]
  exact heldIn_pos

theorem Sound.testBit_col (h : k.Sound) (n : Fin 8) :
    k.status.col.toNat.testBit n = true ↔
      ∃ key ∈ k.held, ∃ cell ∈ k.matrix.cellsFor key, cell.col = n := by
  refine (testBit_packCounts _ n).trans ?_
  change 0 < k.counters.colCount n ↔ _
  rw [UInt32.lt_iff_toNat_lt, h.cols n]
  exact heldIn_pos

/-! ### Every keyboard that can be reached -/

/-- **The counters count the held pairs.** After any run from a keyboard on
which no key is held, each counter is the number of pairs of a held key and one
of its crossings in the line, so rows and columns add up to the same, and the
status bits are those of the counters above zero. An event from there decides
about its own key only. It finds no counter at zero that it has to count down
and counts none beyond 32 bits. It is applied exactly when it changes which keys
are held, and any other leaves the held keys and the counters as they are. -/
theorem counters_count_heldPairs {m : Matrix} (hm : m.Built) (actions : List KeyboardAction) :
    let k := (idle m).run actions
    k.matrix = m ∧ k.held.Nodup ∧
    (∀ n : Fin 8, (k.counters.rowCount n).toNat = (k.heldPairs.filter fun p => p.2.row = n).card) ∧
    (∀ n : Fin 8, (k.counters.colCount n).toNat = (k.heldPairs.filter fun p => p.2.col = n).card) ∧
    ∑ n : Fin 8, (k.counters.rowCount n).toNat = ∑ n : Fin 8, (k.counters.colCount n).toNat ∧
    (∀ n : Fin 8, k.status.row.toNat.testBit n = true ↔ 0 < k.counters.rowCount n) ∧
    (∀ n : Fin 8, k.status.col.toNat.testBit n = true ↔ 0 < k.counters.colCount n) ∧
    ∀ e : Event,
      (∀ key, key ∈ (k.apply e).2.held ↔
        if key = e.key ∧ m.cellsFor key ≠ [] then e.motion = .down else key ∈ k.held) ∧
      (e.motion = .down → e.key ∉ k.held →
        (k.apply e).2.counters = k.counters.pressEach (m.cellsFor e.key) ∧
          k.counters.NeverWraps (m.cellsFor e.key)) ∧
      (e.motion = .up → e.key ∈ k.held →
        (k.apply e).2.counters = k.counters.releaseEach (m.cellsFor e.key) ∧
          k.counters.NeverClamps (m.cellsFor e.key)) ∧
      ((∃ status n, (k.apply e).1 = .applied status n) ↔
        ¬ ∀ key, key ∈ (k.apply e).2.held ↔ key ∈ k.held) ∧
      (∀ status n, (k.apply e).1 = .applied status n →
        status = (k.apply e).2.status ∧ n = (m.cellsFor e.key).length) ∧
      ((∀ status n, (k.apply e).1 ≠ .applied status n) →
        (k.apply e).2.held = k.held ∧ (k.apply e).2.counters = k.counters) := by
  intro k
  have h : k.Sound := (sound_idle hm).run actions
  have hkm : k.matrix = m := matrix_run actions (idle m)
  refine ⟨hkm, h.nodup, fun n => ?_, fun n => ?_, h.sum_rows_eq_sum_cols, testBit_packCounts _,
    testBit_packCounts _, fun e => ⟨hkm ▸ h.mem_held_apply e, fun hd hk => ?_, fun hu hk => ?_, h.applied_iff_held_ne e,
      fun status n ha => hkm ▸ eq_of_apply_applied ha, fun hne => ?_⟩⟩
  · rw [h.rows n, card_heldPairs_filter h.built]
  · rw [h.cols n, card_heldPairs_filter h.built]
  · exact hkm ▸ ⟨counters_apply_down hd hk, h.neverWraps hk⟩
  · exact hkm ▸ ⟨counters_apply_up hu hk, h.neverClamps hk⟩
  · rw [apply_eq_self hne]
    exact ⟨rfl, rfl⟩

/-- The cursor going up and the right shift key, both held, count twice in the
row they share. -/
theorem two_pairs_in_shared_row :
    Matrix.withCursorUp.Built ∧
    let k := (idle .withCursorUp).run [.event ⟨.down, .rightShift⟩, .event ⟨.down, .arrowUp⟩]
    (k.heldPairs.filter fun p => p.2.row = 6).card = 2 := by
  refine ⟨Matrix.built_withCursorUp, ?_⟩
  intro k
  rw [← (counters_count_heldPairs Matrix.built_withCursorUp _).2.2.1 6]
  rfl

end Keyboard
end ScreenBridge
