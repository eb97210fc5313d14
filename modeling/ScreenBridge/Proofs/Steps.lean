/-
# A run is its steps

A running viewer does nothing but step after step, and before it stops perhaps
one more service (`Viewer.run_eq_steps`). How many steps these are depends on the
moment at which the signal is given, and the last service is left out only where
the raised signal is seen before the next poll. What the steps report adds up to
the totals (`Viewer.totals_steps`), and the first of them that fails ends the run
(`Viewer.steps_eq_error_iff`).

Key definitions: `Viewer.steps`, `Viewer.andThen`, `Viewer.stop`,
`Viewer.serviceAndStop`, `Totals.add`.
Key theorems: `Viewer.runTurns_step`, `Viewer.runTurns_inPoll`,
`Viewer.runTurns_inPresentation`, `Viewer.run_eq_steps`.
-/
import Mathlib.Algebra.GroupWithZero.Nat
import ScreenBridge.Proofs.Schedule
import ScreenBridge.Proofs.Viewer
import ScreenBridge.Store.Memory
import ScreenBridge.Viewer.Run

namespace ScreenBridge

/-- The totals after steps that reported so. -/
def Totals.add (t : Totals) (reports : List StepReport) : Totals where
  ticks := t.ticks + reports.length
  events := t.events + (reports.map (·.events)).sum
  frames := t.frames + reports.countP (·.redrawn)

theorem Totals.add_cons (t : Totals) (report : StepReport) (reports : List StepReport) :
    t.add (report :: reports) = (t.add [report]).add reports := by
  simp only [add, List.length_cons, List.length_nil, List.map_cons, List.map_nil, List.sum_cons,
    List.sum_nil, List.countP_cons, List.countP_nil, Totals.mk.injEq]
  omega

namespace Viewer

variable {σ ι κ : Type} [Store σ] {v w : Viewer σ ι κ}

/-! ### What a step reports -/

theorem schedule_service [InputSource ι] {n : ℕ} (h : v.service = (.ok n, w)) :
    w.schedule = v.schedule.countEvents n := by
  rcases service_cases v with ⟨e, -, h'⟩ | ⟨-, h'⟩
  · rw [h'] at h
    cases h
  · rw [h'] at h
    cases h
    rfl

/-- A tick redraws exactly if a redraw is due, and what it redraws is counted. -/
theorem schedule_tick [Sink κ] {redrawn : Bool} (h : v.tick = (.ok redrawn, w)) :
    redrawn = v.schedule.tick.1 ∧
      w.schedule = if redrawn then v.schedule.tick.2.countFrame else v.schedule.tick.2 := by
  rcases tick_cases v with ⟨hdue, h'⟩ | ⟨hdue, ⟨e, -, h'⟩ | ⟨-, h'⟩⟩
  · rw [h'] at h
    cases h
    exact ⟨hdue.symm, rfl⟩
  · rw [h'] at h
    cases h
  · rw [h'] at h
    cases h
    exact ⟨hdue.symm, rfl⟩

variable [InputSource ι] [Sink κ]

/-- What a step reports is what it adds to the totals. It moves the counter as its
tick does and redraws if that is due. -/
theorem schedule_step {report : StepReport} (h : v.step = (.ok report, w)) :
    report.redrawn = v.schedule.tick.1 ∧ w.schedule.counter = v.schedule.tick.2.counter ∧
      w.schedule.cadence = v.schedule.cadence ∧
      w.schedule.totals = v.schedule.totals.add [report] := by
  rcases step_cases v with ⟨e, u, -, h'⟩ | ⟨n, u, e, u', -, -, h'⟩ | ⟨n, u, redrawn, u', hs, ht, h'⟩
  · rw [h'] at h
    cases h
  · rw [h'] at h
    cases h
  · rw [h'] at h
    cases h
    have hu := schedule_service hs
    obtain ⟨hdue, hcount⟩ := schedule_tick ht
    obtain ⟨hsame, hcounter⟩ := v.schedule.tick_countEvents n
    rw [hu] at hdue hcount
    refine ⟨hdue.trans hsame, ?_, ?_, ?_⟩
    · rw [hcount, ← hcounter]
      split <;> rfl
    · rw [hcount]
      split <;> exact Schedule.cadence_tick _
    · rw [hcount]
      cases redrawn <;> simp [Totals.add, Schedule.countFrame, Schedule.countEvents]

/-! ### Steps -/

/-- So many steps, one after another, until one fails. Yields what they report. -/
def steps : ℕ → Viewer σ ι κ → Except ViewerError (List StepReport) × Viewer σ ι κ
  | 0, v => (.ok [], v)
  | n + 1, v =>
    match v.step with
    | (.error e, v) => (.error e, v)
    | (.ok report, v) =>
      match steps n v with
      | (.error e, v) => (.error e, v)
      | (.ok reports, v) => (.ok (report :: reports), v)

/-- Goes on where steps led, if none of them failed. -/
def andThen (x : Except ViewerError (List StepReport) × Viewer σ ι κ)
    (next : Viewer σ ι κ → Except ViewerError Totals × Viewer σ ι κ) :
    Except ViewerError Totals × Viewer σ ι κ :=
  match x with
  | (.error e, v) => (.error e, v)
  | (.ok _, v) => next v

/-- Yields the totals and does nothing more. -/
def stop (v : Viewer σ ι κ) : Except ViewerError Totals × Viewer σ ι κ :=
  (.ok v.schedule.totals, v)

/-- Applies the events that arrived, and counts no tick any more. -/
def serviceAndStop (v : Viewer σ ι κ) : Except ViewerError Totals × Viewer σ ι κ :=
  match v.service with
  | (.error e, v) => (.error e, v)
  | (.ok _, v) => v.stop

/-- The end of a run that was signalled outside of a poll. -/
def lastTurn (signal : Signal) (v : Viewer σ ι κ) : Except ViewerError Totals × Viewer σ ι κ :=
  if signal = .raise then v.stop else v.serviceAndStop

theorem steps_succ_of_error {n : ℕ} {e : ViewerError} (h : v.step = (.error e, w)) :
    v.steps (n + 1) = (.error e, w) := by
  rw [steps, h]

theorem steps_succ_of_ok {n : ℕ} {report : StepReport} (h : v.step = (.ok report, w)) :
    v.steps (n + 1) =
      match w.steps n with
      | (.error e, u) => (.error e, u)
      | (.ok reports, u) => (.ok (report :: reports), u) := by
  rw [steps, h]

/-- Steps that succeed begin with one that does. -/
theorem steps_succ_eq_ok {n : ℕ} {reports : List StepReport} (h : v.steps (n + 1) = (.ok reports, w)) :
    ∃ report rest u, v.step = (.ok report, u) ∧ u.steps n = (.ok rest, w) ∧
      reports = report :: rest := by
  rcases hstep : v.step with ⟨_ | report, u⟩
  · rw [steps_succ_of_error hstep] at h
    cases h
  · rw [steps_succ_of_ok hstep] at h
    rcases hrest : u.steps n with ⟨_ | rest, u'⟩
    · rw [hrest] at h
      cases h
    · rw [hrest] at h
      cases h
      exact ⟨report, rest, u, rfl, hrest, rfl⟩

/-- What goes on after steps goes on after the first of them. -/
theorem andThen_steps_succ (n : ℕ)
    (next : Viewer σ ι κ → Except ViewerError Totals × Viewer σ ι κ) :
    andThen (v.steps (n + 1)) next =
      match v.step with
      | (.error e, w) => (.error e, w)
      | (.ok _, w) => andThen (w.steps n) next := by
  rcases hstep : v.step with ⟨_ | report, w⟩
  · rw [steps_succ_of_error hstep]
    rfl
  · rw [steps_succ_of_ok hstep]
    dsimp only
    rcases w.steps n with ⟨_ | reports, u⟩ <;> rfl

theorem totals_steps : ∀ (n : ℕ) {v w : Viewer σ ι κ} {reports : List StepReport},
    v.steps n = (.ok reports, w) →
    reports.length = n ∧ w.schedule.totals = v.schedule.totals.add reports
  | 0, _, _, _, h => by
    cases h
    exact ⟨rfl, rfl⟩
  | n + 1, _, _, _, h => by
    obtain ⟨report, rest, u, hstep, hrest, rfl⟩ := steps_succ_eq_ok h
    obtain ⟨hlen, htotals⟩ := totals_steps n hrest
    obtain ⟨-, -, -, hu⟩ := schedule_step hstep
    exact ⟨congrArg (· + 1) hlen, by rw [htotals, hu, ← Totals.add_cons]⟩

/-- A viewer in its cycle redraws when a redraw is due. -/
theorem redraws_steps : ∀ (n : ℕ) {v w : Viewer σ ι κ} {reports : List StepReport},
    v.schedule.InCycle → v.steps n = (.ok reports, w) →
    reports.countP (·.redrawn) = v.schedule.redraws n
  | 0, _, _, _, hc, h => by
    cases h
    exact hc.redraws_zero.symm
  | n + 1, v, _, _, hc, h => by
    obtain ⟨report, rest, u, hstep, hrest, rfl⟩ := steps_succ_eq_ok h
    obtain ⟨hdue, hcounter, hcadence, -⟩ := schedule_step hstep
    have htick := Schedule.cadence_tick v.schedule
    have hu : u.schedule.InCycle := by
      unfold Schedule.InCycle
      rw [hcounter, hcadence, ← htick]
      exact hc.tick
    have hsame : u.schedule.redraws n = v.schedule.tick.2.redraws n := by
      rw [Schedule.redraws, Schedule.redraws, hcounter, hcadence, htick]
    rw [List.countP_cons, redraws_steps n hu hrest, hc.redraws_tick, hdue, hsame, Nat.add_comm]

/-- Steps fail where the first of them does, and leave what that left. -/
theorem steps_eq_error_iff : ∀ (n : ℕ) {v w : Viewer σ ι κ} {e : ViewerError},
    v.steps n = (.error e, w) ↔
      ∃ j < n, ∃ reports u, v.steps j = (.ok reports, u) ∧ u.step = (.error e, w)
  | 0, v, w, e => by
    constructor
    · intro h
      cases h
    · rintro ⟨j, hj, -⟩
      cases hj
  | n + 1, v, w, e => by
    rcases hstep : v.step with ⟨e' | report, u⟩
    · rw [steps_succ_of_error hstep]
      constructor
      · intro h
        cases h
        exact ⟨0, Nat.succ_pos n, [], v, rfl, hstep⟩
      · rintro ⟨j, -, reports, u', hj, hfail⟩
        cases j with
        | zero =>
          cases hj
          rw [hstep] at hfail
          cases hfail
          rfl
        | succ j =>
          rw [steps_succ_of_error hstep] at hj
          cases hj
    · have ih := steps_eq_error_iff n (v := u) (w := w) (e := e)
      rw [steps_succ_of_ok hstep]
      constructor
      · intro h
        rcases hrest : u.steps n with ⟨e' | rest, u'⟩
        · rw [hrest] at h
          cases h
          obtain ⟨j, hj, reports, w', hok, hfail⟩ := ih.mp hrest
          refine ⟨j + 1, Nat.succ_lt_succ hj, report :: reports, w', ?_, hfail⟩
          rw [steps_succ_of_ok hstep, hok]
        · rw [hrest] at h
          cases h
      · rintro ⟨j, hj, reports, w', hok, hfail⟩
        cases j with
        | zero =>
          cases hok
          rw [hstep] at hfail
          cases hfail
        | succ j =>
          obtain ⟨report', rest, u', hstep', hok', -⟩ := steps_succ_eq_ok hok
          rw [hstep] at hstep'
          cases hstep'
          rw [ih.mpr ⟨j, Nat.lt_of_succ_lt_succ hj, rest, w', hok', hfail⟩]

/-! ### Turns -/

variable {s : Shutdown} {r : RunState}

/-- A turn in which no signal is seen is a step. -/
theorem runTurns_step (hr : r.signalled = false) (hp : (r.countPoll s).signalled = false) (n : ℕ)
    (v : Viewer σ ι κ) :
    runTurns s (n + 1) r v =
      match v.step with
      | (.error e, w) => (.error e, w)
      | (.ok report, w) =>
        runTurns s n
          (if report.redrawn then (r.countPoll s).countPresentation s else r.countPoll s) w := by
  rw [runTurns, if_neg (fun h => by rw [hr] at h; cases h.1), step]
  rcases v.service with ⟨_ | events, u⟩
  · rfl
  · simp only [hp, Bool.false_eq_true, if_false]
    rcases u.tick with ⟨_ | redrawn, u'⟩ <;> rfl

theorem runTurns_service (hr : ¬ (r.signalled = true ∧ s.signal = .raise))
    (hp : (r.countPoll s).signalled = true) (n : ℕ) (v : Viewer σ ι κ) :
    runTurns s (n + 1) r v = v.serviceAndStop := by
  rw [runTurns, if_neg hr, serviceAndStop]
  rcases v.service with ⟨_ | events, u⟩
  · rfl
  · simp only [hp, if_true]
    rfl

theorem runTurns_signalled (hr : r.signalled = true) (n : ℕ) (v : Viewer σ ι κ) :
    runTurns s (n + 1) r v = v.lastTurn s.signal := by
  unfold lastTurn
  by_cases hs : s.signal = .raise
  · rw [if_pos hs, runTurns, if_pos ⟨hr, hs⟩]
    rfl
  · have hp : (r.countPoll s).signalled = true := by simp [RunState.countPoll, hr]
    rw [if_neg hs, runTurns_service (fun h => hs h.2) hp]

/-- Until the poll in which the signal is given every turn is a step, and that turn
is the last service. -/
theorem runTurns_inPoll : ∀ (k n : ℕ) (r : RunState) (v : Viewer σ ι κ),
    s.moment = .inPoll (r.polls + k) → r.signalled = false → k < n →
    runTurns s n r v = andThen (v.steps k) serviceAndStop
  | 0, n + 1, r, v, hm, hr, _ => by
    have hp : (r.countPoll s).signalled = true := by simp [RunState.countPoll, hm]
    exact runTurns_service (fun h => by rw [hr] at h; cases h.1) hp n v
  | k + 1, n + 1, r, v, hm, hr, hn => by
    have hp : (r.countPoll s).signalled = false := by simp [RunState.countPoll, hm, hr]
    have hm' : s.moment = .inPoll (r.polls + 1 + k) := by rw [hm, Nat.add_right_comm, Nat.add_assoc]
    have hrest : ∀ r' : RunState, r'.polls = r.polls + 1 → r'.signalled = false →
        ∀ w : Viewer σ ι κ, runTurns s n r' w = andThen (w.steps k) serviceAndStop :=
      fun r' hpolls hr' w => runTurns_inPoll k n r' w (hpolls ▸ hm') hr' (Nat.lt_of_succ_lt_succ hn)
    rw [runTurns_step hr hp, andThen_steps_succ]
    rcases v.step with ⟨_ | report, w⟩
    · rfl
    · refine hrest _ ?_ ?_ w
      · split <;> rfl
      · -- a presentation gives no signal that is given in a poll
        split <;> simp [RunState.countPresentation, hm, hp]

/-- Until the presentation in which the signal is given every turn is a step, and
one turn follows. -/
theorem runTurns_inPresentation : ∀ (k n m : ℕ) (r : RunState) (v : Viewer σ ι κ),
    v.schedule.InCycle → s.moment = .inPresentation (r.presentations + m) → r.signalled = false →
    v.schedule.ticksTo m = k + 1 → k + 1 < n →
    runTurns s n r v = andThen (v.steps (k + 1)) (lastTurn s.signal)
  | _, 0, _, _, _, _, _, _, _, hn => absurd hn (Nat.not_lt_zero _)
  | k, n + 1, m, r, v, hc, hm, hr, hk, hn => by
    have hp : (r.countPoll s).signalled = false := by simp [RunState.countPoll, hm, hr]
    rw [runTurns_step hr hp, andThen_steps_succ]
    rcases hstep : v.step with ⟨_ | report, w⟩
    · rfl
    dsimp only
    obtain ⟨hdue, hcounter, hcadence, -⟩ := schedule_step hstep
    have hw : w.schedule.InCycle := by
      unfold Schedule.InCycle
      rw [hcounter, hcadence, ← Schedule.cadence_tick v.schedule]
      exact hc.tick
    have hticks : ∀ m', w.schedule.ticksTo m' = v.schedule.tick.2.ticksTo m' := fun m' => by
      rw [Schedule.ticksTo, Schedule.ticksTo, hcounter, hcadence, Schedule.cadence_tick]
    -- as long as the presentation lies ahead, so does a step
    have hrest : ∀ (m' : ℕ) (r' : RunState), s.moment = .inPresentation (r'.presentations + m') →
        r'.signalled = false → w.schedule.ticksTo m' = k →
        runTurns s n r' w = andThen (w.steps k) (lastTurn s.signal) := by
      intro m' r' hm' hr' hk'
      obtain ⟨j, rfl⟩ : ∃ j, k = j + 1 := ⟨k - 1, by have := hw.ticksTo_pos m'; omega⟩
      exact runTurns_inPresentation j n m' r' w hw hm' hr' hk' (Nat.lt_of_succ_lt_succ hn)
    cases hred : report.redrawn with
    | false =>
      rw [if_neg Bool.false_ne_true]
      refine hrest m _ hm hp ?_
      have htick := hc.ticksTo_tick m
      rw [← hdue, hred, if_neg Bool.false_ne_true, hk] at htick
      rw [hticks]
      omega
    | true =>
      rw [if_pos rfl]
      cases m with
      | zero =>
        have hone := hc.ticksTo_zero (hdue.symm.trans hred)
        obtain rfl : k = 0 := by omega
        obtain ⟨n, rfl⟩ : ∃ n', n = n' + 1 := ⟨n - 1, by omega⟩
        have hsignalled : ((r.countPoll s).countPresentation s).signalled = true := by
          simp [RunState.countPoll, RunState.countPresentation, hm]
        exact runTurns_signalled hsignalled n w
      | succ m =>
        refine hrest m _ ?_ ?_ ?_
        · rw [hm, RunState.countPresentation, RunState.countPoll]
          dsimp only
          rw [Nat.add_right_comm, Nat.add_assoc]
        · simp [RunState.countPoll, RunState.countPresentation, hm, hr]
        · have htick := hc.ticksTo_tick m
          rw [← hdue, hred, if_pos rfl, hk] at htick
          rw [hticks]
          omega

/-! ### Runs -/

/-- **A run is its steps.** If the signal is given inside a poll, a run is the steps
before that poll and one more service. If it is given inside a presentation, a
run is the steps up to the one that makes it, and one more service follows
unless the signal is raised; if it is given before the run, there is at most
that service. A run yields the totals, to which each step that succeeded adds what
it reports, one tick and no more, and the last service only its events. The number
of steps to a presentation is that within which so many of them redraw. Whatever
fails first is what the run yields, with what it left. A schedule is in its cycle
from its beginning on (`Schedule.inCycle_new`, `Schedule.InCycle.tick`). -/
theorem run_eq_steps (v : Viewer σ ι κ) (hc : v.schedule.InCycle) (signal : Signal) :
    (∀ n, v.run ⟨.inPoll n, signal⟩ = andThen (v.steps n) serviceAndStop) ∧
    (∀ n, v.run ⟨.inPresentation n, signal⟩ =
      andThen (v.steps (v.schedule.ticksTo n))
        (if signal = .raise then stop else serviceAndStop)) ∧
    v.run ⟨.beforeRun, signal⟩ = (if signal = .raise then v.stop else v.serviceAndStop) ∧
    (∀ k reports w, v.steps k = (.ok reports, w) →
      reports.length = k ∧ w.schedule.totals = v.schedule.totals.add reports ∧
        ∀ n, reports.countP (·.redrawn) ≤ n ↔ k < v.schedule.ticksTo n) ∧
    (∀ k e w, v.steps k = (.error e, w) ↔
      ∃ j < k, ∃ reports u, v.steps j = (.ok reports, u) ∧ u.step = (.error e, w)) ∧
    (∀ (u : Viewer σ ι κ) n w, u.service = (.ok n, w) →
      w.schedule.totals = { u.schedule.totals with events := u.schedule.totals.events + n }) := by
  refine ⟨fun n => ?_, fun n => ?_, ?_, fun k reports w h => ?_, fun k e w => ?_, ?_⟩
  · have hm : (⟨.inPoll n, signal⟩ : Shutdown).moment = .inPoll (0 + n) := by rw [Nat.zero_add]
    exact runTurns_inPoll n _ (.start ⟨.inPoll n, signal⟩) v hm rfl (Nat.lt_succ_self n)
  · obtain ⟨k, hk⟩ : ∃ k, v.schedule.ticksTo n = k + 1 :=
      ⟨v.schedule.ticksTo n - 1, by have := hc.ticksTo_pos n; omega⟩
    have hm : (⟨.inPresentation n, signal⟩ : Shutdown).moment = .inPresentation (0 + n) := by
      rw [Nat.zero_add]
    have hfuel : k + 1 < (n + 1) * v.schedule.cadence.divisor.toNat + 1 := by
      rw [← hk, Schedule.ticksTo]
      omega
    rw [hk]
    refine (runTurns_inPresentation k _ n (.start _) v hc hm rfl hk hfuel).trans ?_
    unfold lastTurn
    split <;> rfl
  · exact runTurns_signalled (s := ⟨.beforeRun, signal⟩) rfl 0 v
  · obtain ⟨hlen, htotals⟩ := totals_steps k h
    refine ⟨hlen, htotals, fun n => ?_⟩
    rw [redraws_steps k hc h]
    exact hc.redraws_le_iff k n
  · exact steps_eq_error_iff k
  · intro u n w h
    rw [schedule_service h]
    rfl

/-- A run of a viewer that redraws at every other tick, told to stop while it shows
its first frame: two steps, of which the second shows it, and one more service. -/
theorem run_stops_behind_first_frame :
    let v : Viewer MemoryStore Script RecordingSink :=
      ⟨.zeroed 8, ⟨[[⟨.down, .space⟩], [], [⟨.up, .space⟩], [⟨.down, .tab⟩]], 0⟩, .empty,
        ⟨⟨2, 2⟩, .idle .standard, none⟩, .new ⟨⟨2, 2⟩, .standard⟩, ⟨⟨50, 2⟩, 0, ⟨0, 0, 0⟩⟩⟩
    v.schedule.InCycle ∧
      v.run ⟨.inPresentation 0, .touch⟩ = andThen (v.steps 2) serviceAndStop ∧
      (v.run ⟨.inPresentation 0, .touch⟩).1.toOption = some ⟨2, 2, 1⟩ := by
  intro v
  have hc : v.schedule.InCycle := by
    change (0 : UInt32) < 2
    decide
  have hrun := (run_eq_steps v hc .touch).2.1 0
  rw [show v.schedule.ticksTo 0 = 2 from rfl, if_neg (by decide)] at hrun
  refine ⟨hc, hrun, ?_⟩
  decide +kernel

end Viewer
end ScreenBridge
