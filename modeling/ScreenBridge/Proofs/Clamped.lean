/-
# Counters that are counted down too often

Counters may be counted up and down in any order, also below what they hold. As a
counter stays at zero then, it forgets what came before: it holds the greatest balance
of ups and downs that any end of the changes has, the empty end included
(`HoldCounters.isGreatest_balance`). One more change moves all these balances alike and
adds the empty end (`HoldCounters.balances_concat`), which is what counting down to zero
at the least does to a counter (`HoldCounters.toNat_countChange`).

If no release ever found a counter at zero, nothing was forgotten, and the counter holds
the balance of all changes (`HoldCounters.toNat_eq_balance`).

Key definitions: `HoldCounters.Change`, `HoldCounters.changeAll`,
`HoldCounters.sinceClear`, `HoldCounters.balance`, `HoldCounters.NeverShort`.
Key theorems: `HoldCounters.isGreatest_balance`, `HoldCounters.toNat_eq_balance`,
`HoldCounters.sum_balance`, `HoldCounters.isIdle_iff`,
`HoldCounters.counters_hold_greatest_balance`.
-/
import Mathlib.Algebra.BigOperators.Fin
import Mathlib.Data.List.DropRight
import Mathlib.Data.Set.Insert
import Mathlib.Order.Bounds.Image
import ScreenBridge.Proofs.Counters

namespace ScreenBridge
namespace HoldCounters

/-- What is done to counters. -/
inductive Change
  | press (cell : Cell)
  | release (cell : Cell)
  | clear
  deriving DecidableEq

namespace Change

def isPress : Change → Bool
  | press _ => true
  | _ => false

def isRelease : Change → Bool
  | release _ => true
  | _ => false

/-- A crossing in the line is pressed. -/
def presses (line : Cell → Fin 8) (n : Fin 8) : Change → Bool
  | press cell => line cell = n
  | _ => false

/-- A crossing in the line is released. -/
def releases (line : Cell → Fin 8) (n : Fin 8) : Change → Bool
  | release cell => line cell = n
  | _ => false

end Change

/-- The counters after a change. -/
def change (c : HoldCounters) : Change → HoldCounters
  | .press cell => c.press cell
  | .release cell => (c.release cell).2
  | .clear => zero

/-- The counters after changes. -/
def changeAll (c : HoldCounters) (changes : List Change) : HoldCounters := changes.foldl change c

/-- The changes that came after the last time the counters were cleared. -/
def sinceClear (changes : List Change) : List Change := changes.rtakeWhile (· ≠ .clear)

/-- The presses in a line less the releases in it. -/
def balance (line : Cell → Fin 8) (n : Fin 8) (changes : List Change) : ℤ :=
  changes.countP (Change.presses line n) - changes.countP (Change.releases line n)

/-- The balances of a line in all ends of the changes. -/
def balances (line : Cell → Fin 8) (n : Fin 8) (changes : List Change) : Set ℤ :=
  balance line n '' {tail | tail <:+ changes}

/-- Every release found both of its counters above zero. -/
def NeverShort (changes : List Change) : Prop :=
  ∀ before cell after, changes = before ++ .release cell :: after →
    ((zero.changeAll before).release cell).1 = true

/-! ### Balances -/

variable {line : Cell → Fin 8} {n : Fin 8} {changes : List Change} {ch : Change}

theorem balance_append (line : Cell → Fin 8) (n : Fin 8) (before after : List Change) :
    balance line n (before ++ after) = balance line n before + balance line n after := by
  unfold balance
  rw [List.countP_append, List.countP_append]
  omega

theorem balance_press (line : Cell → Fin 8) (n : Fin 8) (cell : Cell) :
    balance line n [.press cell] = if line cell = n then 1 else 0 := by
  by_cases h : line cell = n <;> simp [balance, Change.presses, Change.releases, h]

theorem balance_release (line : Cell → Fin 8) (n : Fin 8) (cell : Cell) :
    balance line n [.release cell] = if line cell = n then -1 else 0 := by
  by_cases h : line cell = n <;> simp [balance, Change.presses, Change.releases, h]

/-- One more change moves the balances of all ends, and the empty end is new. -/
theorem balances_concat (line : Cell → Fin 8) (n : Fin 8) (changes : List Change) (ch : Change) :
    balances line n (changes ++ [ch]) =
      insert 0 ((· + balance line n [ch]) '' balances line n changes) := by
  ext k
  simp only [balances, Set.mem_image, Set.mem_ofPred_eq, Set.mem_insert_iff,
    List.suffix_concat_iff]
  constructor
  · rintro ⟨tail, rfl | ⟨tail, rfl, htail⟩, rfl⟩
    · exact Or.inl rfl
    · exact Or.inr ⟨_, ⟨tail, htail, rfl⟩, (balance_append ..).symm⟩
  · rintro (rfl | ⟨_, ⟨tail, htail, rfl⟩, rfl⟩)
    · exact ⟨[], Or.inl rfl, rfl⟩
    · exact ⟨tail ++ [ch], Or.inr ⟨tail, rfl, htail⟩, balance_append ..⟩

theorem isGreatest_concat {k : ℤ} (h : IsGreatest (balances line n changes) k) (ch : Change) :
    IsGreatest (balances line n (changes ++ [ch])) (max 0 (k + balance line n [ch])) := by
  rw [balances_concat]
  have hmono : Monotone (· + balance line n [ch]) := fun _ _ hle => Int.add_le_add_right hle _
  exact (hmono.map_isGreatest h).insert 0

theorem isGreatest_nil (line : Cell → Fin 8) (n : Fin 8) :
    IsGreatest (balances line n []) 0 := by
  have hends : balances line n [] = {0} := by
    simp [balances, balance]
  rw [hends]
  exact isGreatest_singleton

/-! ### The changes since the last clearing -/

theorem sinceClear_clear (changes : List Change) : sinceClear (changes ++ [.clear]) = [] :=
  List.rtakeWhile_concat_neg _ _ _ (by simp)

theorem sinceClear_concat (changes : List Change) (h : ch ≠ .clear) :
    sinceClear (changes ++ [ch]) = sinceClear changes ++ [ch] :=
  List.rtakeWhile_concat_pos _ _ _ (by simpa using h)

/-! ### The counters of one direction -/

/-- The counters of the rows, or of the columns, after a change. -/
def countChange (line : Cell → Fin 8) (counts : Vector UInt32 8) : Change → Vector UInt32 8
  | .press cell => countUp counts (line cell)
  | .release cell => countDown counts (line cell)
  | .clear => Vector.replicate 8 0

/-- The counters of the rows, or of the columns, after changes from zero. -/
def countAll (line : Cell → Fin 8) (changes : List Change) : Vector UInt32 8 :=
  changes.foldl (countChange line) (Vector.replicate 8 0)

theorem countAll_concat (line : Cell → Fin 8) (changes : List Change) (ch : Change) :
    countAll line (changes ++ [ch]) = countChange line (countAll line changes) ch :=
  List.foldl_concat ..

theorem changeAll_concat (c : HoldCounters) (changes : List Change) (ch : Change) :
    c.changeAll (changes ++ [ch]) = (c.changeAll changes).change ch := List.foldl_concat ..

theorem rows_changeAll (changes : List Change) :
    (zero.changeAll changes).rows = countAll (·.row) changes := by
  induction changes using List.reverseRecOn with
  | nil => rfl
  | append_singleton changes ch ih =>
    rw [changeAll_concat, countAll_concat, ← ih]
    cases ch <;> rfl

theorem cols_changeAll (changes : List Change) :
    (zero.changeAll changes).cols = countAll (·.col) changes := by
  induction changes using List.reverseRecOn with
  | nil => rfl
  | append_singleton changes ch ih =>
    rw [changeAll_concat, countAll_concat, ← ih]
    cases ch <;> rfl

theorem get_zero (n : Fin 8) : (Vector.replicate 8 (0 : UInt32)).get n = 0 :=
  Vector.getElem_replicate n.isLt

/-- A press or a release moves a counter by its balance, but not below zero. -/
theorem toNat_countChange {counts : Vector UInt32 8} (hch : ch ≠ .clear)
    (hroom : (counts.get n).toNat + [ch].countP Change.isPress < UInt32.size) :
    (((countChange line counts ch).get n).toNat : ℤ) =
      max 0 ((counts.get n).toNat + balance line n [ch]) := by
  cases ch with
  | press cell =>
    have hone : (counts.get n).toNat + 1 < 4294967296 := hroom
    rw [countChange, get_countUp, balance_press]
    by_cases h : line cell = n
    · rw [if_pos h, if_pos h, UInt32.toNat_add]
      have hadd : ((counts.get n).toNat + (1 : UInt32).toNat) % 2 ^ 32 =
          (counts.get n).toNat + 1 := Nat.mod_eq_of_lt hone
      rw [hadd]
      omega
    · rw [if_neg h, if_neg h]
      omega
  | release cell =>
    rw [countChange, get_countDown, balance_release]
    by_cases h : line cell = n
    · rw [if_pos h, if_pos h, toNat_decrement]
      omega
    · rw [if_neg h, if_neg h]
      omega
  | clear => exact absurd rfl hch

/-- A counter is not more than the number of presses. -/
theorem toNat_countAll_le (line : Cell → Fin 8) (n : Fin 8) (changes : List Change) :
    ((countAll line changes).get n).toNat ≤ changes.countP Change.isPress := by
  induction changes using List.reverseRecOn with
  | nil => exact Nat.le_of_eq (congrArg UInt32.toNat (get_zero n))
  | append_singleton changes ch ih =>
    rw [countAll_concat, List.countP_append]
    cases ch with
    | press cell =>
      have hone : [Change.press cell].countP Change.isPress = 1 := rfl
      rw [countChange, get_countUp, hone]
      split
      · rw [UInt32.toNat_add]
        exact (Nat.mod_le ..).trans (Nat.add_le_add_right ih 1)
      · omega
    | release cell =>
      rw [countChange, get_countDown]
      split
      · rw [toNat_decrement]
        omega
      · omega
    | clear =>
      rw [countChange, get_zero]
      exact Nat.zero_le _

theorem room_of_concat (line : Cell → Fin 8) (n : Fin 8)
    (h : (changes ++ [ch]).countP Change.isPress < UInt32.size) :
    changes.countP Change.isPress < UInt32.size ∧
      ((countAll line changes).get n).toNat + [ch].countP Change.isPress < UInt32.size := by
  rw [List.countP_append] at h
  have hle := toNat_countAll_le line n changes
  omega

/-- **A counter holds the greatest balance** that an end of the changes since the last
clearing has in its line. -/
theorem isGreatest_balance (line : Cell → Fin 8) (n : Fin 8) {changes : List Change}
    (h : changes.countP Change.isPress < UInt32.size) :
    IsGreatest (balances line n (sinceClear changes)) ((countAll line changes).get n).toNat := by
  induction changes using List.reverseRecOn with
  | nil => exact (get_zero n).symm ▸ isGreatest_nil line n
  | append_singleton changes ch ih =>
    obtain ⟨hbefore, hroom⟩ := room_of_concat line n h
    rw [countAll_concat]
    by_cases hch : ch = .clear
    · rw [hch, sinceClear_clear, countChange, get_zero]
      exact isGreatest_nil line n
    · rw [sinceClear_concat _ hch, toNat_countChange hch hroom]
      exact isGreatest_concat (ih hbefore) ch

/-! ### Changes that never found a counter at zero -/

/-- No release found the counter of its line at zero. -/
def NeverShortIn (line : Cell → Fin 8) (changes : List Change) : Prop :=
  ∀ before cell after, changes = before ++ .release cell :: after →
    0 < (countAll line before).get (line cell)

theorem neverShort_iff :
    NeverShort changes ↔ NeverShortIn (·.row) changes ∧ NeverShortIn (·.col) changes := by
  have hrelease : ∀ (before : List Change) (cell : Cell),
      ((zero.changeAll before).release cell).1 = true ↔
        0 < (countAll (·.row) before).get cell.row ∧
          0 < (countAll (·.col) before).get cell.col := by
    intro before cell
    rw [fst_release, rowCount, colCount, rows_changeAll, cols_changeAll]
  constructor
  · intro h
    exact ⟨fun before cell after heq => ((hrelease before cell).mp (h before cell after heq)).1,
      fun before cell after heq => ((hrelease before cell).mp (h before cell after heq)).2⟩
  · rintro ⟨hrow, hcol⟩ before cell after heq
    exact (hrelease before cell).mpr ⟨hrow before cell after heq, hcol before cell after heq⟩

theorem NeverShortIn.of_concat (h : NeverShortIn line (changes ++ [ch])) :
    NeverShortIn line changes := fun before cell after heq =>
  h before cell (after ++ [ch]) (by rw [heq, List.append_assoc, List.cons_append])

/-- A change that finds enough does not go below zero. -/
theorem NeverShortIn.balance_nonneg (h : NeverShortIn line (changes ++ [ch])) (n : Fin 8) :
    0 ≤ (((countAll line changes).get n).toNat : ℤ) + balance line n [ch] := by
  cases ch with
  | press cell =>
    rw [balance_press]
    split <;> omega
  | release cell =>
    rw [balance_release]
    split
    · rename_i hn
      have hpos := UInt32.lt_iff_toNat_lt.mp (h changes cell [] rfl)
      rw [hn, UInt32.toNat_zero] at hpos
      omega
    · omega
  | clear => exact Int.natCast_nonneg _

/-- **Nothing is forgotten** by a counter that no release found at zero: it holds the
balance of all changes since the last clearing. -/
theorem toNat_eq_balance (line : Cell → Fin 8) (n : Fin 8) {changes : List Change}
    (h : changes.countP Change.isPress < UInt32.size) (hnever : NeverShortIn line changes) :
    (((countAll line changes).get n).toNat : ℤ) = balance line n (sinceClear changes) := by
  induction changes using List.reverseRecOn with
  | nil => exact congrArg (fun k : UInt32 => (k.toNat : ℤ)) (get_zero n)
  | append_singleton changes ch ih =>
    obtain ⟨hbefore, hroom⟩ := room_of_concat line n h
    rw [countAll_concat]
    by_cases hch : ch = .clear
    · rw [hch, sinceClear_clear, countChange, get_zero]
      rfl
    · rw [sinceClear_concat _ hch, balance_append, toNat_countChange hch hroom,
        max_eq_right (hnever.balance_nonneg n), ih hbefore hnever.of_concat]

/-- Each press lies in one line, and so does each release. -/
theorem sum_balance (line : Cell → Fin 8) : ∀ changes : List Change,
    ∑ n : Fin 8, balance line n changes =
      changes.countP Change.isPress - changes.countP Change.isRelease
  | [] => by simp [balance]
  | ch :: changes => by
    have hone : ∑ n : Fin 8, balance line n [ch] =
        [ch].countP Change.isPress - [ch].countP Change.isRelease := by
      cases ch with
      | press cell => simp [balance_press, Change.isPress, Change.isRelease]
      | release cell => simp [balance_release, Change.isPress, Change.isRelease]
      | clear => simp [balance, Change.presses, Change.releases, Change.isPress, Change.isRelease]
    have hsplit : ∀ n, balance line n (ch :: changes) =
        balance line n [ch] + balance line n changes := fun n => balance_append line n [ch] changes
    have hcount : ∀ p : Change → Bool,
        (ch :: changes).countP p = [ch].countP p + changes.countP p := fun p =>
      @List.countP_append _ p [ch] changes
    simp only [hsplit, Finset.sum_add_distrib, hone, sum_balance line changes, hcount]
    omega

/-! ### Idle counters -/

theorem packCounts_eq_zero_iff (counts : Vector UInt32 8) :
    packCounts counts = 0 ↔ ∀ n : Fin 8, counts.get n = 0 := by
  constructor
  · intro h n
    have hbit := testBit_packCounts counts n
    rw [h, UInt32.lt_iff_toNat_lt, UInt32.toNat_zero] at hbit
    simp only [UInt8.toNat_zero, Nat.zero_testBit, Bool.false_eq_true, false_iff, not_lt,
      Nat.le_zero] at hbit
    exact UInt32.toNat_inj.mp hbit
  · intro h
    have hzero : counts = Vector.replicate 8 0 :=
      Vector.ext fun i hi => (h ⟨i, hi⟩).trans (get_zero ⟨i, hi⟩).symm
    rw [hzero]
    decide

/-- No crossing is counted as held exactly when no bit is set. -/
theorem isIdle_iff (c : HoldCounters) : c.isIdle = true ↔ c.status = ⟨0, 0⟩ := by
  have hall : ∀ counts : Vector UInt32 8,
      (counts.all (· = 0)) = true ↔ packCounts counts = 0 := by
    intro counts
    rw [packCounts_eq_zero_iff, Vector.all_eq_true]
    simp only [decide_eq_true_eq]
    exact ⟨fun h n => h n.val n.isLt, fun h i hi => h ⟨i, hi⟩⟩
  rw [isIdle, Bool.and_eq_true, hall, hall, status, Status.mk.injEq]
  exact and_comm

/-! ### Any use of counters -/

/-- **Counters hold the greatest balance of an end.** Press, release and clear counters
in any order, pressing fewer times than there are 32-bit numbers. The counter of a row
is then the greatest number by which presses exceed releases of the row in the last
changes, however many of them are taken since the counters were cleared, also none; and
so for the columns. A release says whether it finds both of its counters above zero,
and no crossing counts as held exactly when both status bytes are zero. If every release
so far found its counters above zero, a counter is the number of presses less that of
releases since the counters were cleared, and rows and columns add up to the same. -/
theorem counters_hold_greatest_balance (changes : List Change)
    (h : changes.countP Change.isPress < UInt32.size) :
    let c := zero.changeAll changes
    let counted := sinceClear changes
    (∀ n, IsGreatest (balances (·.row) n counted) (c.rowCount n).toNat) ∧
    (∀ n, IsGreatest (balances (·.col) n counted) (c.colCount n).toNat) ∧
    (∀ cell, (c.release cell).1 = true ↔ 0 < c.rowCount cell.row ∧ 0 < c.colCount cell.col) ∧
    (c.isIdle = true ↔ c.status = ⟨0, 0⟩) ∧
    (NeverShort changes →
      (∀ n, ((c.rowCount n).toNat : ℤ) = balance (·.row) n counted) ∧
      (∀ n, ((c.colCount n).toNat : ℤ) = balance (·.col) n counted) ∧
      ∑ n, (c.rowCount n).toNat = ∑ n, (c.colCount n).toNat) := by
  intro c counted
  have hrow : ∀ n, c.rowCount n = (countAll (·.row) changes).get n := fun n => by
    rw [rowCount, rows_changeAll]
  have hcol : ∀ n, c.colCount n = (countAll (·.col) changes).get n := fun n => by
    rw [colCount, cols_changeAll]
  refine ⟨fun n => ?_, fun n => ?_, c.fst_release, c.isIdle_iff, fun hnever => ?_⟩
  · rw [hrow]
    exact isGreatest_balance _ n h
  · rw [hcol]
    exact isGreatest_balance _ n h
  · obtain ⟨hrows, hcols⟩ := neverShort_iff.mp hnever
    have hrow' : ∀ n, ((c.rowCount n).toNat : ℤ) = balance (·.row) n counted := fun n => by
      rw [hrow]
      exact toNat_eq_balance _ n h hrows
    have hcol' : ∀ n, ((c.colCount n).toNat : ℤ) = balance (·.col) n counted := fun n => by
      rw [hcol]
      exact toNat_eq_balance _ n h hcols
    refine ⟨hrow', hcol', ?_⟩
    have hsum : ∑ n, ((c.rowCount n).toNat : ℤ) = ∑ n, ((c.colCount n).toNat : ℤ) := by
      simp only [hrow', hcol', sum_balance]
    exact_mod_cast hsum

/-- A release in row 1 and column 3 while only the row counts a press is taken off the
row and forgotten by the column, so that rows and columns part: after one more press
there the column counts one, though its balance is zero. In the other changes each
release comes after its press. -/
theorem short_release_parts_rows_and_columns :
    let short : List Change := [.press ⟨1, 2⟩, .release ⟨1, 3⟩, .press ⟨1, 3⟩]
    let even : List Change := [.press ⟨5, 5⟩, .clear, .press ⟨1, 2⟩, .press ⟨1, 3⟩, .release ⟨1, 2⟩]
    short.countP Change.isPress < UInt32.size ∧ even.countP Change.isPress < UInt32.size ∧
    NeverShort even ∧
    IsGreatest (balances (·.row) 1 short) 1 ∧ IsGreatest (balances (·.col) 3 short) 1 ∧
    balance (·.col) 3 short = 0 ∧
    ((zero.changeAll even).rowCount 1).toNat = balance (·.row) 1 (sinceClear even) ∧
    ∑ n, ((zero.changeAll even).rowCount n).toNat =
      ∑ n, ((zero.changeAll even).colCount n).toNat := by
  intro short even
  have hshort : short.countP Change.isPress < UInt32.size := by decide
  have heven : even.countP Change.isPress < UInt32.size := by decide
  have hnever : NeverShort even := by
    -- the only release is the last change
    intro before cell after heq
    rcases before with _ | ⟨a, _ | ⟨b, _ | ⟨c, _ | ⟨d, _ | ⟨e, before⟩⟩⟩⟩⟩ <;>
      simp [even] at heq
    obtain ⟨rfl, rfl, rfl, rfl, rfl, -⟩ := heq
    decide
  obtain ⟨hrow, hcol, -⟩ := counters_hold_greatest_balance short hshort
  obtain ⟨-, -, -, -, hbalance⟩ := counters_hold_greatest_balance even heven
  obtain ⟨hrows, -, hsum⟩ := hbalance hnever
  exact ⟨hshort, heven, hnever, hrow 1, hcol 3, rfl, hrows 1, hsum⟩

end HoldCounters
end ScreenBridge
