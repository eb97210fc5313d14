/-
# A redraw is due once in so many ticks

A new schedule has counted fewer ticks than its divisor since a redraw was due,
and this outlives everything that is done to a schedule (`InCycle`). So the next
redraw is due at the tick that completes the divisor (`InCycle.tick_cases`), and
how many are due within some ticks is a quotient (`InCycle.redraws_tick`).

Key definitions: `Schedule.InCycle`, `Schedule.redraws`, `Schedule.ticksTo`,
`Schedule.SamePace`.
Key theorems: `Schedule.inCycle_new`, `Schedule.InCycle.tick`,
`Schedule.InCycle.redraws_tick`, `Schedule.InCycle.ticksTo_tick`,
`Schedule.InCycle.redraws_le_iff`, `Schedule.toWords_tick`, `Schedule.toWords_inj`.
-/
import Mathlib.Data.Nat.Notation
import ScreenBridge.Schedule

namespace ScreenBridge
namespace Schedule

variable {s : Schedule}

/-- The counter is below the divisor. -/
def InCycle (s : Schedule) : Prop := s.counter < s.cadence.divisor

/-- How many redraws are due within so many ticks from here. -/
def redraws (s : Schedule) (ticks : ℕ) : ℕ :=
  (s.counter.toNat + ticks) / s.cadence.divisor.toNat

/-- The number of ticks from here to the redraw with a number, counted from zero,
that one included. -/
def ticksTo (s : Schedule) (number : ℕ) : ℕ :=
  (number + 1) * s.cadence.divisor.toNat - s.counter.toNat

theorem inCycle_new {cadence : Cadence} (h : new cadence = some s) : s.InCycle := by
  unfold new at h
  split at h
  · cases h
  · rename_i hd
    obtain rfl := Option.some.inj h
    exact UInt32.pos_iff_ne_zero.mpr hd

theorem InCycle.toNat_lt (h : s.InCycle) : s.counter.toNat < s.cadence.divisor.toNat :=
  UInt32.lt_iff_toNat_lt.mp h

theorem InCycle.countEvents (h : s.InCycle) (n : ℕ) : (s.countEvents n).InCycle := h

theorem InCycle.countFrame (h : s.InCycle) : s.countFrame.InCycle := h

@[simp] theorem cadence_tick (s : Schedule) : s.tick.2.cadence = s.cadence := by
  unfold tick
  dsimp only
  split <;> rfl

@[simp] theorem totals_tick (s : Schedule) :
    s.tick.2.totals = { s.totals with ticks := s.totals.ticks + 1 } := by
  unfold tick
  dsimp only
  split <;> rfl

theorem tick_countEvents (s : Schedule) (n : ℕ) :
    (s.countEvents n).tick.1 = s.tick.1 ∧ (s.countEvents n).tick.2.counter = s.tick.2.counter := by
  unfold tick countEvents
  dsimp only
  split <;> exact ⟨rfl, rfl⟩

/-- A tick completes the divisor, and then a redraw is due and the counter begins
anew, or the counter moves on. -/
theorem InCycle.tick_cases (h : s.InCycle) :
    (s.tick.1 = true ∧ s.counter.toNat + 1 = s.cadence.divisor.toNat ∧ s.tick.2.counter.toNat = 0) ∨
    (s.tick.1 = false ∧ s.counter.toNat + 1 < s.cadence.divisor.toNat ∧
      s.tick.2.counter.toNat = s.counter.toNat + 1) := by
  have hlt := h.toNat_lt
  have hd : s.cadence.divisor.toNat < UInt32.size := s.cadence.divisor.toNat_lt
  -- the counter cannot wrap, since the divisor is a word
  have hnext : (s.counter + 1).toNat = s.counter.toNat + 1 := by
    rw [UInt32.toNat_add]
    exact Nat.mod_eq_of_lt (by change _ + 1 < UInt32.size; omega)
  unfold Schedule.tick
  dsimp only
  split
  · rename_i hc
    rw [UInt32.lt_iff_toNat_lt, hnext] at hc
    exact Or.inr ⟨rfl, hc, hnext⟩
  · rename_i hc
    rw [UInt32.lt_iff_toNat_lt, hnext] at hc
    exact Or.inl ⟨rfl, by omega, rfl⟩

theorem InCycle.tick (h : s.InCycle) : s.tick.2.InCycle := by
  have hlt := h.toNat_lt
  unfold InCycle
  rw [cadence_tick, UInt32.lt_iff_toNat_lt]
  rcases h.tick_cases with ⟨-, -, hc⟩ | ⟨-, hd, hc⟩ <;> omega

/-- A counter that is the remainder of the ticks so far stays so, and a redraw is due
at every multiple of the divisor. -/
theorem InCycle.tick_of_counted (h : s.InCycle) {n : ℕ}
    (hn : s.counter.toNat = n % s.cadence.divisor.toNat) :
    (s.tick.1 = true ↔ s.cadence.divisor.toNat ∣ n + 1) ∧
      s.tick.2.counter.toNat = (n + 1) % s.cadence.divisor.toNat := by
  have hmod : (n + 1) % s.cadence.divisor.toNat =
      (s.counter.toNat + 1) % s.cadence.divisor.toNat := by rw [hn, Nat.mod_add_mod]
  rw [Nat.dvd_iff_mod_eq_zero, hmod]
  rcases h.tick_cases with ⟨hdue, hd, hc⟩ | ⟨hdue, hd, hc⟩
  · simp [hdue, hc, hd]
  · simp [hdue, hc, Nat.mod_eq_of_lt hd]

/-- The redraws that are due from here are the one of the next tick, if one is due
then, and those that are due from there. -/
theorem InCycle.redraws_tick (h : s.InCycle) (ticks : ℕ) :
    s.redraws (ticks + 1) = (if s.tick.1 then 1 else 0) + s.tick.2.redraws ticks := by
  unfold redraws
  rw [cadence_tick]
  rcases h.tick_cases with ⟨hdue, hd, hc⟩ | ⟨hdue, -, hc⟩
  · have hpos : 0 < s.cadence.divisor.toNat := by omega
    have hsum : s.counter.toNat + (ticks + 1) = ticks + s.cadence.divisor.toNat := by omega
    rw [hdue, hc, hsum, Nat.add_div_right _ hpos, Nat.zero_add, if_pos rfl, Nat.add_comm]
  · have hsum : s.counter.toNat + (ticks + 1) = s.counter.toNat + 1 + ticks := by omega
    rw [hdue, hc, hsum, if_neg Bool.false_ne_true, Nat.zero_add]

theorem InCycle.redraws_zero (h : s.InCycle) : s.redraws 0 = 0 := Nat.div_eq_of_lt h.toNat_lt

theorem InCycle.ticksTo_pos (h : s.InCycle) (number : ℕ) : 0 < s.ticksTo number := by
  have hlt := h.toNat_lt
  have hle : s.cadence.divisor.toNat ≤ (number + 1) * s.cadence.divisor.toNat :=
    Nat.le_mul_of_pos_left _ (Nat.succ_pos number)
  unfold ticksTo
  omega

theorem InCycle.ticksTo_zero (h : s.InCycle) (hdue : s.tick.1 = true) : s.ticksTo 0 = 1 := by
  rcases h.tick_cases with ⟨-, hd, -⟩ | ⟨hnot, -⟩
  · unfold ticksTo
    omega
  · rw [hnot] at hdue
    cases hdue

/-- A tick brings every later redraw nearer by one, and if a redraw was due then,
that one no longer counts. -/
theorem InCycle.ticksTo_tick (h : s.InCycle) (number : ℕ) :
    s.ticksTo (if s.tick.1 then number + 1 else number) = s.tick.2.ticksTo number + 1 := by
  have hlt := h.toNat_lt
  unfold ticksTo
  rw [cadence_tick]
  rcases h.tick_cases with ⟨hdue, hd, hc⟩ | ⟨hdue, hd, hc⟩
  · rw [if_pos hdue, hc, Nat.succ_mul (number + 1)]
    omega
  · have hle : s.cadence.divisor.toNat ≤ (number + 1) * s.cadence.divisor.toNat :=
      Nat.le_mul_of_pos_left _ (Nat.succ_pos number)
    rw [if_neg (by rw [hdue]; exact Bool.false_ne_true), hc]
    omega

/-- A redraw is due at the tick that its number tells, and not before. -/
theorem InCycle.redraws_le_iff (h : s.InCycle) (ticks number : ℕ) :
    s.redraws ticks ≤ number ↔ ticks < s.ticksTo number := by
  have hlt := h.toNat_lt
  have hpos : 0 < s.cadence.divisor.toNat := by omega
  calc s.redraws ticks ≤ number
      ↔ s.counter.toNat + ticks < (number + 1) * s.cadence.divisor.toNat := by
        rw [← Nat.lt_succ_iff, redraws, Nat.div_lt_iff_lt_mul hpos]
    _ ↔ ticks < s.ticksTo number := by
        unfold ticksTo
        omega

/-! ### Totals in words

Each count is carried on in its word as it is without a bound, so the words are the
counts as long as these fit. -/

theorem toWords_tick (s : Schedule) : s.tick.2.totals.toWords =
    { s.totals.toWords with ticks := s.totals.toWords.ticks + 1 } := by
  rw [totals_tick]
  exact congrArg (WordTotals.mk · _ _) (UInt64.ofNat_add s.totals.ticks 1)

theorem toWords_countEvents (s : Schedule) (n : ℕ) : (s.countEvents n).totals.toWords =
    { s.totals.toWords with events := s.totals.toWords.events + n.toUInt64 } :=
  congrArg (WordTotals.mk _ · _) (UInt64.ofNat_add s.totals.events n)

theorem toWords_countFrame (s : Schedule) : s.countFrame.totals.toWords =
    { s.totals.toWords with frames := s.totals.toWords.frames + 1 } :=
  congrArg (WordTotals.mk _ _ ·) (UInt64.ofNat_add s.totals.frames 1)

/-- **Totals that fit are what their words say.** -/
theorem toWords_inj {t u : Totals} (ht : t.Fits) (hu : u.Fits) :
    t.toWords = u.toWords ↔ t = u := by
  have hword : ∀ n < UInt64.size, n.toUInt64.toNat = n := fun n hn => Nat.mod_eq_of_lt hn
  refine ⟨fun heq => ?_, fun heq => heq ▸ rfl⟩
  have hticks := congrArg (·.ticks.toNat) heq
  have hevents := congrArg (·.events.toNat) heq
  have hframes := congrArg (·.frames.toNat) heq
  simp only [Totals.toWords, hword _ ht.ticks, hword _ hu.ticks] at hticks
  simp only [Totals.toWords, hword _ ht.events, hword _ hu.events] at hevents
  simp only [Totals.toWords, hword _ ht.frames, hword _ hu.frames] at hframes
  obtain ⟨ticks, events, frames⟩ := t
  obtain ⟨ticks', events', frames'⟩ := u
  dsimp only at hticks hevents hframes
  rw [hticks, hevents, hframes]

/-! ### Two schedules -/

/-- The schedules redraw at the same ticks from here on. -/
structure SamePace (s t : Schedule) : Prop where
  counter_eq : t.counter = s.counter
  divisor_eq : t.cadence.divisor = s.cadence.divisor

theorem SamePace.tick {t : Schedule} (h : SamePace s t) :
    t.tick.1 = s.tick.1 ∧ SamePace s.tick.2 t.tick.2 := by
  unfold Schedule.tick
  dsimp only
  rw [h.counter_eq, h.divisor_eq]
  split
  · exact ⟨rfl, rfl, h.divisor_eq⟩
  · exact ⟨rfl, rfl, h.divisor_eq⟩

end Schedule
end ScreenBridge
