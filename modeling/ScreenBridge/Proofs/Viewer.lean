/-
# What a viewer's step can do

Servicing a viewer polls the input and applies the batch to the bridge and the
store (`Viewer.service_cases`). A tick moves the schedule and, if a redraw is
due, the display and the sink (`Viewer.tick_cases`), so it touches neither bridge
nor store. A step is a service and then, if that did not fail, a tick
(`Viewer.step_cases`).

Key theorems: `Viewer.service_cases`, `Viewer.tick_cases`, `Viewer.step_cases`.
-/
import ScreenBridge.Proofs.Schedule
import ScreenBridge.Viewer

namespace ScreenBridge
namespace Viewer

variable {σ ι κ : Type}

/-- A viewer at its beginning holds no key, has shown nothing and counted nothing. -/
theorem eq_of_new {store : σ} {input : ι} {sink : κ} {decoder : Decoder} {matrix : Matrix}
    {port : Option Port} {cadence : Cadence} {v : Viewer σ ι κ}
    (h : new store input sink decoder matrix port cadence = .ok v) :
    v = ⟨store, input, sink, ⟨decoder.layout, .idle matrix, port.map .idle⟩, .new decoder,
      ⟨cadence, 0, ⟨0, 0, 0⟩⟩⟩ := by
  unfold new Schedule.new at h
  split at h
  · cases h
  · rename_i schedule hs
    split at hs
    · cases hs
    · obtain rfl := Option.some.inj hs
      exact (Except.ok.inj h).symm

variable [Store σ]

/-- Servicing applies the batch. If an event fails the batch is not counted. -/
theorem service_cases [InputSource ι] (v : Viewer σ ι κ) :
    let batch := (InputSource.poll v.input).1
    let x := v.bridge.applyAll v.store batch
    let w := { v with input := (InputSource.poll v.input).2, bridge := x.2.1, store := x.2.2 }
    (∃ e, x.1 = .error e ∧ v.service = (.error (.keyboard e), w)) ∨
    (x.1 = .ok () ∧
      v.service = (.ok batch.length, { w with schedule := v.schedule.countEvents batch.length })) := by
  intro batch x w
  have hx : v.bridge.applyAll v.store batch = x := rfl
  unfold service applyEvents
  dsimp only
  rw [hx]
  rcases x with ⟨_ | _, b, s⟩
  · exact Or.inl ⟨_, rfl, rfl⟩
  · exact Or.inr ⟨rfl, rfl⟩

/-- Servicing does to the bridge and the store what the batch does, whether or not that
fails. -/
theorem bridge_store_input_service [InputSource ι] (v : Viewer σ ι κ) :
    let x := v.bridge.applyAll v.store (InputSource.poll v.input).1
    v.service.2.bridge = x.2.1 ∧ v.service.2.store = x.2.2 ∧
      v.service.2.input = (InputSource.poll v.input).2 := by
  intro x
  rcases service_cases v with ⟨e, -, h⟩ | ⟨-, h⟩ <;> rw [h] <;> exact ⟨rfl, rfl, rfl⟩

/-- Counting a tick redraws if a redraw is due, and counts the frame if that was
taken. -/
theorem tick_cases [Sink κ] (v : Viewer σ ι κ) :
    let x := v.display.refresh v.store v.sink
    let w := { v with display := x.2.1, sink := x.2.2, schedule := v.schedule.tick.2 }
    (v.schedule.tick.1 = false ∧ v.tick = (.ok false, { v with schedule := v.schedule.tick.2 })) ∨
    (v.schedule.tick.1 = true ∧
      ((∃ e, x.1 = .error e ∧ v.tick = (.error (.refresh e), w)) ∨
        (x.1 = .ok () ∧ v.tick = (.ok true, { w with schedule := v.schedule.tick.2.countFrame })))) := by
  intro x w
  have hx : v.display.refresh v.store v.sink = x := rfl
  unfold tick refresh
  dsimp only
  rw [hx]
  by_cases hdue : v.schedule.tick.1 = true
  · rw [if_pos hdue]
    rcases x with ⟨_ | _, d, k⟩
    · exact Or.inr ⟨hdue, Or.inl ⟨_, rfl, rfl⟩⟩
    · exact Or.inr ⟨hdue, Or.inr ⟨rfl, rfl⟩⟩
  · rw [if_neg hdue]
    exact Or.inl ⟨eq_false_of_ne_true hdue, rfl⟩

/-! ### What the schedule counts -/

/-- Does the next tick succeed and redraw? -/
def tickRedraws [Sink κ] (v : Viewer σ ι κ) : Bool := v.tick.1 matches .ok true

theorem schedule_service_cases [InputSource ι] (v : Viewer σ ι κ) :
    v.service.2.schedule = v.schedule ∨
      ∃ events, v.service.2.schedule = v.schedule.countEvents events := by
  rcases service_cases v with ⟨e, -, h⟩ | ⟨-, h⟩
  · exact Or.inl (by rw [h])
  · exact Or.inr ⟨_, by rw [h]⟩

theorem schedule_tick_cases [Sink κ] (v : Viewer σ ι κ) :
    v.tick.2.schedule.counter = v.schedule.tick.2.counter ∧
      v.tick.2.schedule.cadence = v.schedule.cadence ∧
      v.tick.2.schedule.totals.ticks = v.schedule.totals.ticks + 1 ∧
      v.tick.2.schedule.totals.events = v.schedule.totals.events ∧
      v.tick.2.schedule.totals.frames =
        v.schedule.totals.frames + if v.tickRedraws then 1 else 0 := by
  unfold tickRedraws
  rcases tick_cases v with ⟨-, h⟩ | ⟨-, ⟨e, -, h⟩ | ⟨-, h⟩⟩ <;> rw [h] <;>
    simp [Schedule.countFrame]

/-! ### Steps -/

/-- A step services and then counts a tick, as far as nothing fails. -/
theorem step_cases [InputSource ι] [Sink κ] (v : Viewer σ ι κ) :
    (∃ e w, v.service = (.error e, w) ∧ v.step = (.error e, w)) ∨
    (∃ n u e w, v.service = (.ok n, u) ∧ u.tick = (.error e, w) ∧ v.step = (.error e, w)) ∨
    (∃ n u redrawn w, v.service = (.ok n, u) ∧ u.tick = (.ok redrawn, w) ∧
      v.step = (.ok ⟨n, redrawn⟩, w)) := by
  unfold step
  rcases v.service with ⟨e | n, u⟩
  · exact Or.inl ⟨e, u, rfl, rfl⟩
  · rcases htick : u.tick with ⟨e | redrawn, w⟩
    · refine Or.inr (Or.inl ⟨n, u, e, w, rfl, htick, ?_⟩)
      dsimp only
      rw [htick]
    · refine Or.inr (Or.inr ⟨n, u, redrawn, w, rfl, htick, ?_⟩)
      dsimp only
      rw [htick]

theorem bridge_store_input_tick [Sink κ] (v : Viewer σ ι κ) :
    v.tick.2.bridge = v.bridge ∧ v.tick.2.store = v.store ∧ v.tick.2.input = v.input := by
  rcases tick_cases v with ⟨-, h⟩ | ⟨-, ⟨e, -, h⟩ | ⟨-, h⟩⟩ <;> rw [h] <;> exact ⟨rfl, rfl, rfl⟩

/-- A step does to the bridge, the store and the input what its service does. -/
theorem bridge_store_input_step [InputSource ι] [Sink κ] (v : Viewer σ ι κ) :
    v.step.2.bridge = v.service.2.bridge ∧ v.step.2.store = v.service.2.store ∧
      v.step.2.input = v.service.2.input := by
  rcases step_cases v with ⟨e, w, hs, h⟩ | ⟨n, u, e, w, hs, ht, h⟩ | ⟨n, u, redrawn, w, hs, ht, h⟩
  · rw [hs, h]
    exact ⟨rfl, rfl, rfl⟩
  · rw [hs, h]
    have htick := bridge_store_input_tick u
    rw [ht] at htick
    exact htick
  · rw [hs, h]
    have htick := bridge_store_input_tick u
    rw [ht] at htick
    exact htick

end Viewer
end ScreenBridge
