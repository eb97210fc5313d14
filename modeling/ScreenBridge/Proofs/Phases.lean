/-
# Services and ticks

A schedule can be asked to service the input, to count a tick, to take a step and
to run. A step and a run consist of services and ticks, one after another, and
leave the viewer as these do (`Viewer.step_eq_undergoAll`,
`Viewer.run_eq_undergoAll`). So all services and ticks of a viewer's life can be
listed, each with the viewer it began with (`Viewer.history`), and what every
service and every tick keeps holds after whatever was asked
(`Viewer.fulfilAll_induction`).

Key definitions: `Phase`, `Duty`, `Viewer.undergo`, `Viewer.phases`,
`Viewer.fulfil`, `Viewer.history`, `Viewer.begun`.
Key theorems: `Viewer.runTurns_eq_undergoAll`, `Viewer.fulfil_eq`,
`Viewer.fulfilAll_induction`.
-/
import Mathlib.Data.Nat.Notation
import ScreenBridge.Proofs.Viewer
import ScreenBridge.Viewer.Run

namespace ScreenBridge

/-- What steps and runs are made of. -/
inductive Phase
  | service
  | tick
  deriving DecidableEq, Repr

/-- What is asked of a schedule, and what happens around it meanwhile. -/
inductive Duty (σ ι κ : Type)
  | service
  | tick
  | step
  | run (s : Shutdown)
  /-- Something happens to the input. -/
  | input (change : ι → ι)
  /-- All else but the schedule is replaced. -/
  | others (store : σ) (sink : κ) (bridge : Bridge) (display : Display)

namespace Viewer

/-! ### Histories -/

section History

variable {α : Type} {p q : Phase} {t : List (Phase × α)}

/-- What the services of a history began with, or its ticks. -/
def begun (p : Phase) (t : List (Phase × α)) : List α := (t.filter (·.1 = p)).map (·.2)

@[simp] theorem begun_concat_self (a : α) : begun p (t ++ [(p, a)]) = begun p t ++ [a] := by
  simp [begun]

theorem begun_concat_of_ne (h : q ≠ p) (a : α) : begun p (t ++ [(q, a)]) = begun p t := by
  simp [begun, h]

theorem begun_append (p : Phase) (t later : List (Phase × α)) :
    begun p (t ++ later) = begun p t ++ begun p later := by
  simp [begun]

end History

/-! ### Duties -/

variable {σ ι κ : Type}

/-- What a duty exchanges apart from its services and ticks. -/
def exchange (v : Viewer σ ι κ) : Duty σ ι κ → Viewer σ ι κ
  | .input change => { v with input := change v.input }
  | .others store sink bridge display => { v with store, sink, bridge, display }
  | _ => v

theorem schedule_exchange (v : Viewer σ ι κ) (d : Duty σ ι κ) :
    (v.exchange d).schedule = v.schedule := by
  cases d <;> rfl

variable [Store σ] [InputSource ι] [Sink κ]

/-- The viewer after a service or a tick, whether or not that fails. -/
def undergo (v : Viewer σ ι κ) : Phase → Viewer σ ι κ
  | .service => v.service.2
  | .tick => v.tick.2

/-- The viewer after services and ticks, one after another. -/
def undergoAll (v : Viewer σ ι κ) (ps : List Phase) : Viewer σ ι κ := ps.foldl undergo v

/-- The services and ticks of so many turns. -/
def turnPhases (s : Shutdown) : ℕ → RunState → Viewer σ ι κ → List Phase
  | 0, _, _ => []
  | n + 1, r, v =>
    if r.signalled ∧ s.signal = .raise then []
    else
      match v.service with
      | (.error _, _) => [.service]
      | (.ok _, v) =>
        let r := r.countPoll s
        if r.signalled then [.service]
        else
          match v.tick with
          | (.error _, _) => [.service, .tick]
          | (.ok redrawn, v) =>
            .service :: .tick :: turnPhases s n (if redrawn then r.countPresentation s else r) v

/-- The services and ticks that a duty consists of. -/
def phases (v : Viewer σ ι κ) : Duty σ ι κ → List Phase
  | .service => [.service]
  | .tick => [.tick]
  | .step =>
    match v.service.1 with
    | .error _ => [.service]
    | .ok _ => [.service, .tick]
  | .run s => turnPhases s (s.turns v.schedule.cadence.divisor.toNat) (.start s) v
  | .input _ => []
  | .others .. => []

/-- The viewer after a duty, whether or not that fails. -/
def fulfil (v : Viewer σ ι κ) : Duty σ ι κ → Viewer σ ι κ
  | .service => v.service.2
  | .tick => v.tick.2
  | .step => v.step.2
  | .run s => (v.run s).2
  | .input change => { v with input := change v.input }
  | .others store sink bridge display => { v with store, sink, bridge, display }

/-- The viewer after duties, one after another. -/
def fulfilAll (v : Viewer σ ι κ) (ds : List (Duty σ ι κ)) : Viewer σ ι κ := ds.foldl fulfil v

/-- Services and ticks, each with the viewer it begins with. -/
def began (v : Viewer σ ι κ) : List Phase → List (Phase × Viewer σ ι κ)
  | [] => []
  | p :: ps => (p, v) :: began (v.undergo p) ps

/-- All services and ticks of some duties, each with the viewer it began with. -/
def history (v : Viewer σ ι κ) : List (Duty σ ι κ) → List (Phase × Viewer σ ι κ)
  | [] => []
  | d :: ds => v.began (v.phases d) ++ history (v.fulfil d) ds

/-! ### Steps and runs -/

theorem step_eq_undergoAll (v : Viewer σ ι κ) : v.step.2 = v.undergoAll (v.phases .step) := by
  rcases step_cases v with ⟨e, w, hs, h⟩ | ⟨n, u, e, w, hs, ht, h⟩ | ⟨n, u, redrawn, w, hs, ht, h⟩
  · simp [h, phases, hs, undergoAll, undergo]
  · simp [h, phases, hs, ht, undergoAll, undergo]
  · simp [h, phases, hs, ht, undergoAll, undergo]

/-- So do turns, wherever they end. -/
theorem runTurns_eq_undergoAll (s : Shutdown) : ∀ (n : ℕ) (r : RunState) (v : Viewer σ ι κ),
    (runTurns s n r v).2 = v.undergoAll (turnPhases s n r v)
  | 0, _, _ => rfl
  | n + 1, r, v => by
    unfold runTurns turnPhases
    split
    · rfl
    · rcases hs : v.service with ⟨e | events, u⟩
      · simp [undergoAll, undergo, hs]
      · dsimp only
        split
        · simp [undergoAll, undergo, hs]
        · rcases ht : u.tick with ⟨e | redrawn, w⟩
          · simp [undergoAll, undergo, hs, ht]
          · simp [runTurns_eq_undergoAll s n, undergoAll, undergo, hs, ht]

theorem run_eq_undergoAll (v : Viewer σ ι κ) (s : Shutdown) :
    (v.run s).2 = v.undergoAll (v.phases (.run s)) := runTurns_eq_undergoAll s _ _ v

/-- A duty consists of its services and ticks and of what it exchanges. -/
theorem fulfil_eq (v : Viewer σ ι κ) (d : Duty σ ι κ) :
    v.fulfil d = (v.undergoAll (v.phases d)).exchange d := by
  cases d with
  | step => exact step_eq_undergoAll v
  | run s => exact run_eq_undergoAll v s
  | _ => rfl

/-! ### What is kept -/

section Induction

variable {P : List (Phase × Viewer σ ι κ) → Viewer σ ι κ → Prop}

theorem undergoAll_induction (hphase : ∀ t v p, P t v → P (t ++ [(p, v)]) (v.undergo p)) :
    ∀ (ps : List Phase) (t : List (Phase × Viewer σ ι κ)) (v : Viewer σ ι κ), P t v →
      P (t ++ v.began ps) (v.undergoAll ps)
  | [], t, _, h => by rwa [began, List.append_nil]
  | p :: ps, t, v, h => by
    have hps := undergoAll_induction hphase ps _ _ (hphase t v p h)
    rwa [List.append_assoc, List.singleton_append] at hps

/-- **What services and ticks keep is kept.** A property of a viewer and its history
outlives all that is asked if it outlives each service and each tick, and does not
depend on anything but the schedule. -/
theorem fulfilAll_induction (hphase : ∀ t v p, P t v → P (t ++ [(p, v)]) (v.undergo p))
    (hschedule : ∀ t v w, w.schedule = v.schedule → P t v → P t w) :
    ∀ (ds : List (Duty σ ι κ)) (t : List (Phase × Viewer σ ι κ)) (v : Viewer σ ι κ), P t v →
      P (t ++ v.history ds) (v.fulfilAll ds)
  | [], t, _, h => by rwa [history, List.append_nil]
  | d :: ds, t, v, h => by
    have hd : P (t ++ v.began (v.phases d)) (v.fulfil d) := by
      rw [fulfil_eq]
      exact hschedule _ _ _ (schedule_exchange _ d) (undergoAll_induction hphase (v.phases d) t v h)
    have hds := fulfilAll_induction hphase hschedule ds _ _ hd
    rwa [List.append_assoc] at hds

end Induction

end Viewer
end ScreenBridge
