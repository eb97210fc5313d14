/-
# Redraws keep their cadence

Whatever a schedule is asked to do, and whatever fails meanwhile, the ticks of its
life can be counted (`Viewer.begun`). Its counter is what remains of their number
when it is divided by the divisor, and a redraw is attempted at the ticks whose
number the divisor divides (`Viewer.Paced`). Only a tick changes any of this
(`Viewer.Paced.tick`), so it holds of every life (`Viewer.paced_fulfilAll`).

Key definitions: `Viewer.OnTime`, `Viewer.Paced`.
Key theorems: `Viewer.Paced.tick`, `Viewer.paced_fulfilAll`,
`Viewer.redraws_at_multiples_of_divisor`.
-/
import ScreenBridge.Proofs.Phases
import ScreenBridge.Proofs.Schedule
import ScreenBridge.Store.Memory

namespace ScreenBridge
namespace Viewer

variable {σ ι κ : Type} [Store σ] [Sink κ]
variable {d n : ℕ} {ticks : List (Viewer σ ι κ)} {v w : Viewer σ ι κ}

/-- A viewer that has counted so many ticks attempts a redraw at the next one if its
number is a multiple of the divisor, and then the tick ends as the redraw does.
Otherwise the tick moves the schedule alone. -/
structure OnTime (d n : ℕ) (v : Viewer σ ι κ) : Prop where
  /-- The counter does not overflow. -/
  counter_add_one : (v.schedule.counter + 1).toNat = n % d + 1
  redraws : d ∣ n + 1 → v.tick =
    match v.refresh with
    | (.error e, w) => (.error (.refresh e), { w with schedule := v.schedule.tick.2 })
    | (.ok (), w) => (.ok true, { w with schedule := v.schedule.tick.2.countFrame })
  rests : ¬ d ∣ n + 1 → v.tick = (.ok false, { v with schedule := v.schedule.tick.2 })

/-- A viewer after ticks that all were on time. -/
structure Paced (d : ℕ) (ticks : List (Viewer σ ι κ)) (v : Viewer σ ι κ) : Prop where
  inCycle : v.schedule.InCycle
  divisor_eq : v.schedule.cadence.divisor.toNat = d
  counter_eq : v.schedule.counter.toNat = ticks.length % d
  ticks_eq : v.schedule.totals.ticks = ticks.length
  frames_eq : v.schedule.totals.frames = ticks.countP tickRedraws
  frames_le : v.schedule.totals.frames ≤ ticks.length / d
  onTime : ∀ i u, ticks[i]? = some u → OnTime d i u

/-! ### One tick -/

/-- A tick attempts a redraw if one is due, and succeeds as that does. -/
theorem tick_of_due (hdue : v.schedule.tick.1 = true) :
    v.tick =
      match v.refresh with
      | (.error e, w) => (.error (.refresh e), { w with schedule := v.schedule.tick.2 })
      | (.ok (), w) => (.ok true, { w with schedule := v.schedule.tick.2.countFrame }) := by
  rcases tick_cases v with ⟨hnot, -⟩ | ⟨-, ⟨e, hx, h⟩ | ⟨hx, h⟩⟩
  · rw [hdue] at hnot
    cases hnot
  · rw [h, refresh]
    dsimp only
    rw [hx]
  · rw [h, refresh]
    dsimp only
    rw [hx]

theorem tick_of_not_due (hdue : v.schedule.tick.1 = false) :
    v.tick = (.ok false, { v with schedule := v.schedule.tick.2 }) := by
  rcases tick_cases v with ⟨-, h⟩ | ⟨hyes, -⟩
  · exact h
  · rw [hdue] at hyes
    cases hyes

/-- A tick that is on time succeeds with a redraw exactly if its number is a multiple of
the divisor and the redraw succeeds. -/
theorem OnTime.eq_ok_true_iff (h : OnTime d n v) :
    v.tick.1 = .ok true ↔ d ∣ n + 1 ∧ v.refresh.1 = .ok () := by
  by_cases hd : d ∣ n + 1
  · rw [h.redraws hd]
    rcases v.refresh with ⟨e | _, w⟩ <;> simp [hd]
  · simp [h.rests hd, hd]

theorem tickRedraws_iff : v.tickRedraws = true ↔ v.tick.1 = .ok true := by
  unfold tickRedraws
  split <;> simp_all

theorem Paced.onTime_next (h : Paced d ticks v) : OnTime d ticks.length v := by
  have hlt := h.inCycle.toNat_lt
  have hd := v.schedule.cadence.divisor.toNat_lt
  obtain ⟨hdue, -⟩ := h.inCycle.tick_of_counted (h.divisor_eq ▸ h.counter_eq)
  rw [h.divisor_eq] at hdue
  refine ⟨?_, fun hdvd => tick_of_due (hdue.mpr hdvd), fun hdvd => tick_of_not_due ?_⟩
  · rw [UInt32.toNat_add, ← h.counter_eq]
    exact Nat.mod_eq_of_lt (by change _ + 1 < 2 ^ 32; omega)
  · exact eq_false_of_ne_true fun hyes => hdvd (hdue.mp hyes)

/-- **One tick.** It is on time, and so the viewer stays paced. -/
theorem Paced.tick (h : Paced d ticks v) : Paced d (ticks ++ [v]) v.tick.2 := by
  obtain ⟨hcounter, hcadence, hticks, -, hframes⟩ := schedule_tick_cases v
  have hnext := h.onTime_next
  have hcount := (h.inCycle.tick_of_counted (h.divisor_eq ▸ h.counter_eq)).2
  have hlen : (ticks ++ [v]).length = ticks.length + 1 := by simp
  refine ⟨?_, ?_, ?_, ?_, ?_, ?_, fun i u hu => ?_⟩
  · have hin := h.inCycle.tick
    unfold Schedule.InCycle at hin ⊢
    rwa [hcounter, hcadence, ← Schedule.cadence_tick]
  · rw [hcadence, h.divisor_eq]
  · rw [hcounter, hcount, h.divisor_eq, hlen]
  · rw [hticks, h.ticks_eq, hlen]
  · rw [hframes, h.frames_eq, List.countP_append, List.countP_singleton]
  · -- a redraw can only succeed where the quotient grows
    have hle := h.frames_le
    rw [hframes, hlen, Nat.succ_div]
    by_cases hr : v.tickRedraws = true
    · have hdvd := (hnext.eq_ok_true_iff.mp (tickRedraws_iff.mp hr)).1
      rw [if_pos hr, if_pos hdvd]
      omega
    · rw [if_neg hr]
      omega
  · rcases Nat.lt_or_ge i ticks.length with hi | hi
    · rw [List.getElem?_append_left hi] at hu
      exact h.onTime i u hu
    · rw [List.getElem?_append_right hi] at hu
      obtain ⟨hlt, rfl⟩ := List.getElem?_eq_some_iff.mp hu
      obtain rfl : i = ticks.length := by simp at hlt; omega
      simpa using hnext

theorem Paced.of_schedule (h : Paced d ticks v) {events : ℕ}
    (hw : w.schedule = { v.schedule with totals := { v.schedule.totals with events } }) :
    Paced d ticks w where
  inCycle := by rw [hw]; exact h.inCycle
  divisor_eq := by rw [hw]; exact h.divisor_eq
  counter_eq := by rw [hw]; exact h.counter_eq
  ticks_eq := by rw [hw]; exact h.ticks_eq
  frames_eq := by rw [hw]; exact h.frames_eq
  frames_le := by rw [hw]; exact h.frames_le
  onTime := h.onTime

/-! ### A whole life -/

theorem paced_of_new {cadence : Cadence} (h : Schedule.new cadence = some v.schedule) :
    Paced cadence.divisor.toNat [] v := by
  have hcycle := Schedule.inCycle_new h
  unfold Schedule.new at h
  split at h
  · cases h
  · obtain hs := (Option.some.inj h).symm
    exact
      { inCycle := hcycle
        divisor_eq := by rw [hs]
        counter_eq := by rw [hs]; simp
        ticks_eq := by rw [hs]; rfl
        frames_eq := by rw [hs]; rfl
        frames_le := by rw [hs]; exact Nat.zero_le _
        onTime := by simp }

variable [InputSource ι]

theorem Paced.service (h : Paced d ticks v) : Paced d ticks v.service.2 := by
  rcases schedule_service_cases v with hs | ⟨events, hs⟩
  · exact h.of_schedule hs
  · exact h.of_schedule hs

/-- **Any duties.** Every tick is on time. -/
theorem paced_fulfilAll {cadence : Cadence} (h : Schedule.new cadence = some v.schedule)
    (ds : List (Duty σ ι κ)) :
    Paced cadence.divisor.toNat (begun .tick (v.history ds)) (v.fulfilAll ds) := by
  refine fulfilAll_induction (P := fun t w => Paced cadence.divisor.toNat (begun .tick t) w)
    (fun t w p hw => ?_) (fun t w u hu hw => hw.of_schedule hu) ds [] v (paced_of_new h)
  cases p with
  | service =>
    rw [begun_concat_of_ne (by decide)]
    exact hw.service
  | tick =>
    rw [begun_concat_self]
    exact hw.tick

/-- **Redraws keep their cadence.** Take a viewer with a new schedule, and let it be asked
to service its input, to count ticks, to step and to run in any order, while all but
the schedule may change at will, and whatever fails. The schedule has counted the
ticks so far, its counter is what remains of their number on division by the
divisor, and it cannot overflow. A tick attempts a redraw exactly if its number is a
multiple of the divisor, also if earlier redraws failed, and yields that it redrew
exactly if the attempt succeeds. The frames counted are those that were redrawn, at
most one for each multiple. A step whose service fails counts no tick and leaves
schedule, display and sink as they were. -/
theorem redraws_at_multiples_of_divisor {cadence : Cadence}
    (h : Schedule.new cadence = some v.schedule) (ds : List (Duty σ ι κ)) :
    let d := cadence.divisor.toNat
    let ticks := begun .tick (v.history ds)
    let w := v.fulfilAll ds
    w.schedule.totals.ticks = ticks.length ∧
    w.schedule.counter.toNat = ticks.length % d ∧ ticks.length % d < d ∧
    (∀ i u, ticks[i]? = some u →
      (u.schedule.counter + 1).toNat = i % d + 1 ∧
      (d ∣ i + 1 → u.tick =
        match u.refresh with
        | (.error e, x) => (.error (.refresh e), { x with schedule := u.schedule.tick.2 })
        | (.ok (), x) => (.ok true, { x with schedule := u.schedule.tick.2.countFrame })) ∧
      (¬ d ∣ i + 1 → u.tick = (.ok false, { u with schedule := u.schedule.tick.2 })) ∧
      (u.tick.1 = .ok true ↔ d ∣ i + 1 ∧ u.refresh.1 = .ok ())) ∧
    w.schedule.totals.frames = ticks.countP (fun u => u.tick.1 matches .ok true) ∧
    w.schedule.totals.frames ≤ ticks.length / d ∧
    (∀ e x, w.service = (.error e, x) → w.step = (.error e, x) ∧ w.phases .step = [.service] ∧
      x.schedule = w.schedule ∧ x.display = w.display ∧ x.sink = w.sink) := by
  intro d ticks w
  have hw : Paced d ticks w := paced_fulfilAll h ds
  have hlt := hw.inCycle.toNat_lt
  rw [hw.counter_eq, hw.divisor_eq] at hlt
  refine ⟨hw.ticks_eq, hw.counter_eq, hlt, fun i u hu => ?_, hw.frames_eq, hw.frames_le, ?_⟩
  · have hu := hw.onTime i u hu
    exact ⟨hu.counter_add_one, hu.redraws, hu.rests, hu.eq_ok_true_iff⟩
  · intro e x hx
    have hstep : w.step = (.error e, x) := by rw [step, hx]
    have hphases : w.phases .step = [.service] := by simp only [phases, hx]
    rcases service_cases w with ⟨e', -, hs⟩ | ⟨-, hs⟩
    · rw [hx] at hs
      cases hs
      exact ⟨hstep, hphases, rfl, rfl, rfl⟩
    · rw [hx] at hs
      cases hs

/-- A sink refuses its first frame. The run that follows ends behind its first frame,
and the tick after it is the fifth. -/
theorem cadence_survives_refused_frame :
    let v : Viewer MemoryStore Script RecordingSink :=
      ⟨.zeroed 6, ⟨[[⟨.down, .space⟩]], 0⟩, ⟨[], true⟩,
        ⟨⟨2, 2⟩, .idle .standard, none⟩, .new ⟨⟨2, 2⟩, .standard⟩, ⟨⟨50, 2⟩, 0, ⟨0, 0, 0⟩⟩⟩
    let ds : List (Duty MemoryStore Script RecordingSink) :=
      [.step, .tick, .run ⟨.inPresentation 0, .raise⟩, .tick]
    let ticks := begun .tick (v.history ds)
    let w := v.fulfilAll ds
    Schedule.new ⟨50, 2⟩ = some v.schedule ∧ ticks.length = 5 ∧
      w.schedule.totals.ticks = ticks.length ∧ w.schedule.counter.toNat = 1 ∧
      w.schedule.totals.frames = 1 ∧ w.schedule.totals.frames ≤ 2 := by
  intro v ds ticks w
  have hnew : Schedule.new ⟨50, 2⟩ = some v.schedule := rfl
  have hlen : ticks.length = 5 := by decide +kernel
  have hone : w.schedule.totals.frames = 1 := by decide +kernel
  have hd : (⟨50, 2⟩ : Cadence).divisor.toNat = 2 := rfl
  have hpaced := redraws_at_multiples_of_divisor hnew ds
  dsimp only at hpaced
  rw [hd, show begun .tick (v.history ds) = ticks from rfl, show v.fulfilAll ds = w from rfl,
    hlen] at hpaced
  obtain ⟨hticks, hcounter, -, -, -, hframes, -⟩ := hpaced
  exact ⟨hnew, hlen, hticks.trans hlen.symm, hcounter, hone, hframes⟩

end Viewer
end ScreenBridge
