/-
# Counting lines up and down

Pressing a crossing counts its row and its column up, and releasing it counts
both down to zero at the least. Over a list of crossings the rows and the
columns are two folds of the same kind: a counter gains the number of crossings
in its line (`countUp_foldl`), if that still is a 32-bit number, or loses as
many (`countDown_foldl`). A packed byte shows which counters are above zero
(`testBit_packCounts`).

Key definitions: `HoldCounters.countUp`, `HoldCounters.countDown`,
`HoldCounters.pressEach`, `HoldCounters.releaseEach`,
`HoldCounters.NeverClamps`, `HoldCounters.NeverWraps`.
Key theorems: `HoldCounters.countUp_foldl`, `HoldCounters.countDown_foldl`,
`testBit_packCounts`.
-/
import Mathlib.Data.List.Count
import ScreenBridge.Matrix.Counters

namespace ScreenBridge

/-! ### Bits -/

theorem testBit_foldl_or {α : Type} (mask : α → UInt8) (n : ℕ) : ∀ (xs : List α) (byte : UInt8),
    (xs.foldl (fun byte x => byte ||| mask x) byte).toNat.testBit n = true ↔
      byte.toNat.testBit n = true ∨ ∃ x ∈ xs, (mask x).toNat.testBit n = true
  | [], byte => by simp
  | x :: xs, byte => by
    rw [List.foldl_cons, testBit_foldl_or mask n xs, UInt8.toNat_or, Nat.testBit_or,
      Bool.or_eq_true, or_assoc]
    simp only [List.mem_cons, exists_eq_or_imp]

theorem testBit_one_shiftLeft (bit n : Fin 8) :
    ((1 : UInt8) <<< UInt8.ofNat bit).toNat.testBit n = true ↔ n = bit := by
  revert bit n
  decide

/-- Bit `n` of a packed byte is set exactly when counter `n` is above zero. -/
theorem testBit_packCounts (counts : Vector UInt32 8) (n : Fin 8) :
    (packCounts counts).toNat.testBit n = true ↔ 0 < counts.get n := by
  have hmask : (fun (byte : UInt8) (n : Fin 8) =>
        if 0 < counts[n] then byte ||| (1 <<< UInt8.ofNat n.val) else byte) =
      fun byte (n : Fin 8) => byte ||| if 0 < counts[n] then (1 <<< UInt8.ofNat n.val) else 0 := by
    funext byte n
    split <;> simp
  rw [packCounts, hmask, testBit_foldl_or]
  constructor
  · rintro (h | ⟨bit, -, h⟩)
    · simp at h
    · split at h
      · rwa [(testBit_one_shiftLeft bit n).mp h]
      · simp at h
  · intro h
    refine Or.inr ⟨n, List.mem_finRange n, ?_⟩
    rw [if_pos (show 0 < counts[n] from h)]
    exact (testBit_one_shiftLeft n n).mpr rfl

/-! ### Counting a line -/

namespace HoldCounters

/-- The counter of a row. -/
def rowCount (c : HoldCounters) (row : Fin 8) : UInt32 := c.rows.get row

/-- The counter of a column. -/
def colCount (c : HoldCounters) (col : Fin 8) : UInt32 := c.cols.get col

/-- One more in a line. -/
def countUp {size : ℕ} (counts : Vector UInt32 size) (line : Fin size) : Vector UInt32 size :=
  counts.set line (counts.get line + 1)

/-- One less in a line, but not below zero. -/
def countDown {size : ℕ} (counts : Vector UInt32 size) (line : Fin size) : Vector UInt32 size :=
  counts.set line (decrement (counts.get line))

theorem get_countUp (counts : Vector UInt32 8) (line n : Fin 8) :
    (countUp counts line).get n = if line = n then counts.get n + 1 else counts.get n := by
  change (counts.set line _)[n.val] = _
  simp only [Vector.getElem_set, Fin.val_inj]
  split
  · rename_i h; rw [h]
  · rfl

theorem get_countDown (counts : Vector UInt32 8) (line n : Fin 8) :
    (countDown counts line).get n = if line = n then decrement (counts.get n) else counts.get n := by
  change (counts.set line _)[n.val] = _
  simp only [Vector.getElem_set, Fin.val_inj]
  split
  · rename_i h; rw [h]
  · rfl

theorem toNat_decrement (n : UInt32) : (decrement n).toNat = n.toNat - 1 := by
  unfold decrement
  split
  · rename_i h; rw [h]; rfl
  · rename_i h
    have hn : n.toNat ≠ 0 := fun h0 => h (UInt32.toNat_inj.mp h0)
    rw [UInt32.toNat_sub_of_le]
    · rfl
    · rw [UInt32.le_iff_toNat_le]
      exact Nat.one_le_iff_ne_zero.mpr hn

/-- A counter gains the number of times its line is counted. -/
theorem countUp_foldl (n : Fin 8) : ∀ (lines : List (Fin 8)) (counts : Vector UInt32 8),
    (counts.get n).toNat + lines.count n < UInt32.size →
    ((lines.foldl countUp counts).get n).toNat = (counts.get n).toNat + lines.count n
  | [], _, _ => rfl
  | line :: lines, counts, h => by
    rw [List.foldl_cons]
    rw [List.count_cons] at h ⊢
    by_cases hl : line = n
    · subst hl
      simp only [beq_self_eq_true, if_true] at h ⊢
      have hone : (counts.get line + 1).toNat = (counts.get line).toNat + 1 := by
        rw [UInt32.toNat_add]
        exact Nat.mod_eq_of_lt (by change _ + 1 < UInt32.size; omega)
      have hup : ((countUp counts line).get line).toNat = (counts.get line).toNat + 1 := by
        rw [get_countUp, if_pos rfl, hone]
      rw [countUp_foldl line lines _ (by omega), hup]
      omega
    · have hup : (countUp counts line).get n = counts.get n := by rw [get_countUp, if_neg hl]
      simp only [beq_iff_eq, hl, if_false, Nat.add_zero] at h ⊢
      rw [countUp_foldl n lines _ (by rwa [hup]), hup]

/-- A counter loses the number of times its line is counted, down to zero. -/
theorem countDown_foldl (n : Fin 8) : ∀ (lines : List (Fin 8)) (counts : Vector UInt32 8),
    ((lines.foldl countDown counts).get n).toNat = (counts.get n).toNat - lines.count n
  | [], _ => rfl
  | line :: lines, counts => by
    rw [List.foldl_cons, countDown_foldl n lines, get_countDown, List.count_cons]
    by_cases hl : line = n
    · subst hl
      simp only [if_true, toNat_decrement, beq_self_eq_true]
      omega
    · simp only [hl, beq_iff_eq, if_false, Nat.add_zero]

/-! ### Pressing and releasing crossings one after another -/

/-- Presses crossings one after another. -/
def pressEach (c : HoldCounters) (cells : List Cell) : HoldCounters := cells.foldl .press c

/-- Releases crossings one after another. -/
def releaseEach (c : HoldCounters) (cells : List Cell) : HoldCounters :=
  cells.foldl (fun c cell => (c.release cell).2) c

theorem rows_pressEach : ∀ (cells : List Cell) (c : HoldCounters),
    (c.pressEach cells).rows = (cells.map (·.row)).foldl countUp c.rows
  | [], _ => rfl
  | cell :: cells, c => rows_pressEach cells (c.press cell)

theorem cols_pressEach : ∀ (cells : List Cell) (c : HoldCounters),
    (c.pressEach cells).cols = (cells.map (·.col)).foldl countUp c.cols
  | [], _ => rfl
  | cell :: cells, c => cols_pressEach cells (c.press cell)

theorem rows_releaseEach : ∀ (cells : List Cell) (c : HoldCounters),
    (c.releaseEach cells).rows = (cells.map (·.row)).foldl countDown c.rows
  | [], _ => rfl
  | cell :: cells, c => rows_releaseEach cells (c.release cell).2

theorem cols_releaseEach : ∀ (cells : List Cell) (c : HoldCounters),
    (c.releaseEach cells).cols = (cells.map (·.col)).foldl countDown c.cols
  | [], _ => rfl
  | cell :: cells, c => cols_releaseEach cells (c.release cell).2

theorem fst_release (c : HoldCounters) (cell : Cell) :
    (c.release cell).1 = true ↔ 0 < c.rowCount cell.row ∧ 0 < c.colCount cell.col := by
  simp only [release, Bool.and_eq_true, decide_eq_true_eq]
  rfl

theorem rowCount_zero (n : Fin 8) : zero.rowCount n = 0 := Vector.getElem_replicate n.isLt

theorem colCount_zero (n : Fin 8) : zero.colCount n = 0 := Vector.getElem_replicate n.isLt

/-- No release of the crossings, one after another, finds a counter at zero. -/
def NeverClamps (c : HoldCounters) (cells : List Cell) : Prop :=
  ∀ before cell after, cells = before ++ cell :: after →
    ((c.releaseEach before).release cell).1 = true ∧
      0 < (c.releaseEach before).rowCount cell.row ∧ 0 < (c.releaseEach before).colCount cell.col

/-- No press of the crossings, one after another, goes beyond a 32-bit number. -/
def NeverWraps (c : HoldCounters) (cells : List Cell) : Prop :=
  ∀ before cell after, cells = before ++ cell :: after →
    ((c.pressEach before).rowCount cell.row).toNat + 1 < UInt32.size ∧
      ((c.pressEach before).colCount cell.col).toNat + 1 < UInt32.size

theorem count_before_lt (line : Cell → Fin 8) {cells before after : List Cell} {cell : Cell}
    (h : cells = before ++ cell :: after) :
    (before.map line).count (line cell) < (cells.map line).count (line cell) := by
  rw [h, List.map_append, List.map_cons, List.count_append, List.count_cons_self]
  omega

/-- Counters that hold as much as the crossings take are never clamped. -/
theorem neverClamps_of_le {c : HoldCounters} {cells : List Cell}
    (hr : ∀ n : Fin 8, (cells.map (·.row)).count n ≤ (c.rowCount n).toNat)
    (hc : ∀ n : Fin 8, (cells.map (·.col)).count n ≤ (c.colCount n).toNat) : c.NeverClamps cells := by
  intro before cell after h
  have hrow : 0 < (c.releaseEach before).rowCount cell.row := by
    rw [UInt32.lt_iff_toNat_lt, rowCount, rows_releaseEach, countDown_foldl]
    have := count_before_lt (·.row) h
    have hle : _ ≤ (c.rows.get cell.row).toNat := hr cell.row
    change 0 < _
    omega
  have hcol : 0 < (c.releaseEach before).colCount cell.col := by
    rw [UInt32.lt_iff_toNat_lt, colCount, cols_releaseEach, countDown_foldl]
    have := count_before_lt (·.col) h
    have hle : _ ≤ (c.cols.get cell.col).toNat := hc cell.col
    change 0 < _
    omega
  exact ⟨(fst_release _ _).mpr ⟨hrow, hcol⟩, hrow, hcol⟩

/-- Counters with room for all the crossings never wrap. -/
theorem neverWraps_of_lt {c : HoldCounters} {cells : List Cell}
    (hr : ∀ n : Fin 8, (c.rowCount n).toNat + (cells.map (·.row)).count n < UInt32.size)
    (hc : ∀ n : Fin 8, (c.colCount n).toNat + (cells.map (·.col)).count n < UInt32.size) :
    c.NeverWraps cells := by
  intro before cell after h
  have hrow := count_before_lt (·.row) h
  have hcol := count_before_lt (·.col) h
  have hr : (c.rows.get cell.row).toNat + _ < _ := hr cell.row
  have hc : (c.cols.get cell.col).toNat + _ < _ := hc cell.col
  rw [rowCount, colCount, rows_pressEach, cols_pressEach, countUp_foldl _ _ _ (by omega),
    countUp_foldl _ _ _ (by omega)]
  omega

end HoldCounters
end ScreenBridge
