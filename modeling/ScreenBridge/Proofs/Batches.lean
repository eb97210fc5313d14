/-
# What becomes of a batch

The events of a batch are published one after another up to the first whose
bytes the store does not take (`Bridge.applyAll_cases`). That one the bridge has
taken in and the store in part (`Bridge.refusedWithin_of_apply_error`), and the events
behind it are lost: what was polled is not polled again
(`Viewer.polled_append_waiting`). A batch is counted only as a whole
(`Viewer.events_eq_sum`).

Key definitions: `InputQueue`, `Store.RefusedWithin`, `Bridge.AllPublished`,
`Bridge.FailsAt`, `Viewer.polled`, `Viewer.arrived`.
Key theorems: `Bridge.applyAll_cases`, `Viewer.polled_append_waiting`,
`Viewer.events_eq_sum`, `Viewer.batch_ends_at_first_failure`.
-/
import ScreenBridge.Proofs.Channel
import ScreenBridge.Proofs.HonestStore
import ScreenBridge.Proofs.Phases

namespace ScreenBridge

/-! ### What waits in an input -/

/-- A source of events that hands out what waits in it, from the front. -/
class InputQueue (ι : Type) [InputSource ι] where
  waiting : ι → List Event
  poll_append_waiting (i : ι) :
    (InputSource.poll i).1 ++ waiting (InputSource.poll i).2 = waiting i

namespace InputQueue

instance : InputQueue Channel where
  waiting := Channel.waiting
  poll_append_waiting := Channel.poll_append_waiting

instance : InputQueue Script where
  waiting s := s.batches.flatten
  poll_append_waiting s := by
    obtain ⟨batches, polls⟩ := s
    cases batches <;> rfl

variable {ι : Type} [InputSource ι] [InputQueue ι]

/-- What happens to the input makes events wait behind those that wait already. -/
def Sends (change : ι → ι) : Prop := ∀ i, waiting i <+: waiting (change i)

theorem sends_send (e : Event) : Sends fun c : Channel => (c.send e).2 := by
  intro c
  change c.waiting <+: (c.send e).2.waiting
  unfold Channel.send
  split
  · exact ⟨[e], List.append_assoc ..⟩
  · exact List.prefix_rfl

theorem sends_push (batch : List Event) : Sends fun s : Script => s.push batch := fun s =>
  ⟨batch, by simp [waiting, Script.push]⟩

end InputQueue

/-! ### Lists of bytes that are taken in part -/

/-- The store took the first bytes of a list and refused the next one. -/
def Store.RefusedWithin {σ : Type} [Store σ] (s : σ) (writes : List (UInt64 × UInt8))
    (cause : StoreError) (t : σ) : Prop :=
  ∃ done w rest mid, writes = done ++ w :: rest ∧ Store.writeAll s done = (.ok (), mid) ∧
    Store.write mid w.1 w.2 = (.error cause, t)

/-- A list of bytes is taken as a whole or up to the first that is refused. -/
theorem Store.writeAll_cases {σ : Type} [Store σ] : ∀ (writes : List (UInt64 × UInt8)) (s : σ),
    (∃ t, Store.writeAll s writes = (.ok (), t)) ∨
      ∃ cause t, Store.writeAll s writes = (.error cause, t) ∧ RefusedWithin s writes cause t
  | [], s => Or.inl ⟨s, rfl⟩
  | w :: writes, s => by
    rcases hw : Store.write s w.1 w.2 with ⟨cause | _, t⟩
    · exact Or.inr ⟨cause, t, by rw [writeAll, hw], [], w, writes, s, rfl, rfl, hw⟩
    · rw [writeAll, hw]
      rcases writeAll_cases writes t with hok | ⟨cause, u, hfail, done, w', rest, mid, rfl, hdone, hw'⟩
      · exact Or.inl hok
      · exact Or.inr ⟨cause, u, hfail, w :: done, w', rest, mid, rfl, by rw [writeAll, hw]; exact hdone,
          hw'⟩

namespace Bridge

variable {σ : Type} [Store σ]

/-! ### The first event that fails -/

/-- The bridge takes in one event after another, and the store all bytes that publish
it. -/
def AllPublished : Bridge × σ → List Event → Bridge × σ → Prop
  | x, [], y => y = x
  | x, e :: es, y => ∃ s, Store.writeAll x.2 (x.1.route e (Store.size x.2)).1 = (.ok (), s) ∧
      AllPublished (x.1.after (.event e), s) es y

/-- Of a batch, an event is the first to fail. -/
structure FailsAt (x : Bridge × σ) (batch before : List Event) (e : Event) (after : List Event)
    (u : Bridge × σ) (err : BridgeError) (y : Bridge × σ) : Prop where
  batch_eq : batch = before ++ e :: after
  applied : x.1.applyAll x.2 before = (.ok (), u)
  fails : u.1.apply u.2 e = (.error err, y)

variable {x u y : Bridge × σ} {batch before after : List Event} {e : Event} {err : BridgeError}

theorem writeAll_of_apply_ok (h : x.1.apply x.2 e = (.ok (), y)) :
    Store.writeAll x.2 (x.1.route e (Store.size x.2)).1 = (.ok (), y.2) ∧
      y.1 = x.1.after (.event e) := by
  rw [apply_eq, publish] at h
  rcases hw : Store.writeAll x.2 (x.1.route e (Store.size x.2)).1 with ⟨_ | _, t⟩
  · rw [hw] at h
    cases h
  · rw [hw] at h
    obtain rfl := (Prod.mk.inj h).2
    exact ⟨rfl, rfl⟩

/-- An event that fails is taken in, and published in part. -/
theorem refusedWithin_of_apply_error (h : x.1.apply x.2 e = (.error err, y)) :
    y.1 = x.1.after (.event e) ∧
      ∃ cause, err = .store cause ∧
        Store.RefusedWithin x.2 (x.1.route e (Store.size x.2)).1 cause y.2 := by
  rw [apply_eq, publish] at h
  rcases Store.writeAll_cases (x.1.route e (Store.size x.2)).1 x.2 with
    ⟨t, hw⟩ | ⟨cause, t, hw, hrefused⟩
  · rw [hw] at h
    cases h
  · rw [hw] at h
    cases h
    exact ⟨rfl, cause, rfl, hrefused⟩

/-- Events that succeed are published. -/
theorem allPublished_of_applyAll_ok : ∀ (es : List Event) {x : Bridge × σ},
    x.1.applyAll x.2 es = (.ok (), y) → AllPublished x es y
  | [], x, h => (Prod.mk.inj h).2.symm
  | e :: es, x, h => by
    rw [applyAll] at h
    rcases he : x.1.apply x.2 e with ⟨_ | _, z⟩
    · rw [he] at h
      cases h
    · rw [he] at h
      obtain ⟨hw, hz⟩ := writeAll_of_apply_ok he
      refine ⟨z.2, hw, ?_⟩
      rw [← hz]
      exact allPublished_of_applyAll_ok es h

/-- **A batch succeeds, or some event is the first to fail.** -/
theorem applyAll_cases : ∀ (batch : List Event) (x : Bridge × σ),
    (∃ y, x.1.applyAll x.2 batch = (.ok (), y)) ∨
      ∃ before e after u err y, FailsAt x batch before e after u err y
  | [], x => Or.inl ⟨x, rfl⟩
  | e :: es, x => by
    rcases he : x.1.apply x.2 e with ⟨err | _, z⟩
    · exact Or.inr ⟨[], e, es, x, err, z, rfl, rfl, he⟩
    · rcases applyAll_cases es z with ⟨y, hy⟩ | ⟨before, e', after, u, err, y, h⟩
      · exact Or.inl ⟨y, by rw [applyAll, he]; exact hy⟩
      · exact Or.inr ⟨e :: before, e', after, u, err, y, congrArg (e :: ·) h.batch_eq,
          by rw [applyAll, he]; exact h.applied, h.fails⟩

theorem FailsAt.applyAll_eq (h : FailsAt x batch before e after u err y) :
    x.1.applyAll x.2 batch = (.error err, y) := by
  rw [h.batch_eq, applyAll_append, h.applied]
  dsimp only
  rw [applyAll, h.fails]

theorem FailsAt.applyAll_upTo (h : FailsAt x batch before e after u err y) :
    x.1.applyAll x.2 (before ++ [e]) = (.error err, y) :=
  (FailsAt.mk rfl h.applied h.fails : FailsAt x (before ++ [e]) before e [] u err y).applyAll_eq

end Bridge

namespace Viewer

open InputQueue

variable {σ ι κ : Type} [InputSource ι]

/-- The batch that the next service polls. -/
def batch (v : Viewer σ ι κ) : List Event := (InputSource.poll v.input).1

variable [Store σ]

/-! ### What is counted -/

/-- Does the next batch succeed? -/
def appliesBatch (v : Viewer σ ι κ) : Bool :=
  (v.bridge.applyAll v.store v.batch).1 matches .ok ()

theorem events_service (v : Viewer σ ι κ) :
    v.service.2.schedule.totals.events =
      v.schedule.totals.events + if v.appliesBatch then v.batch.length else 0 := by
  unfold appliesBatch batch
  rcases service_cases v with ⟨e, hx, h⟩ | ⟨hx, h⟩ <;> rw [h, hx] <;> rfl

/-- The events of the batches that succeeded, among all services that began. -/
def eventsApplied (t : List (Phase × Viewer σ ι κ)) : ℕ :=
  (((begun .service t).filter appliesBatch).map (·.batch.length)).sum

theorem eventsApplied_service (t : List (Phase × Viewer σ ι κ)) (v : Viewer σ ι κ) :
    eventsApplied (t ++ [(.service, v)]) =
      eventsApplied t + if v.appliesBatch then v.batch.length else 0 := by
  unfold eventsApplied
  rw [begun_concat_self, List.filter_append, List.map_append, List.sum_append]
  cases h : v.appliesBatch <;> simp [h]

/-! ### How a service ends -/

/-- A service ends at the first event of its batch that fails. -/
theorem service_of_failsAt {v : Viewer σ ι κ} {before after : List Event} {e : Event}
    {u y : Bridge × σ} {err : BridgeError}
    (h : Bridge.FailsAt (v.bridge, v.store) v.batch before e after u err y) :
    v.service = (.error (.keyboard err),
      { v with input := (InputSource.poll v.input).2, bridge := y.1, store := y.2 }) := by
  have hall : v.bridge.applyAll v.store (InputSource.poll v.input).1 = (.error err, y) :=
    h.applyAll_eq
  rcases service_cases v with ⟨err', hx, hs⟩ | ⟨hx, -⟩
  · rw [hall] at hx hs
    obtain rfl := Except.error.inj hx
    exact hs
  · rw [hall] at hx
    cases hx

/-- A service counts a batch that succeeds. -/
theorem service_of_applyAll_ok {v : Viewer σ ι κ} {y : Bridge × σ}
    (h : v.bridge.applyAll v.store v.batch = (.ok (), y)) :
    v.service = (.ok v.batch.length,
      { v with
        input := (InputSource.poll v.input).2, bridge := y.1, store := y.2
        schedule := v.schedule.countEvents v.batch.length }) := by
  have hall : v.bridge.applyAll v.store (InputSource.poll v.input).1 = (.ok (), y) := h
  rcases service_cases v with ⟨err, hx, -⟩ | ⟨-, hs⟩
  · rw [hall] at hx
    cases hx
  · rw [hall] at hs
    exact hs

variable [Sink κ]

theorem step_of_service_error {v w : Viewer σ ι κ} {e : ViewerError} (h : v.service = (.error e, w)) :
    v.step = (.error e, w) := by
  rw [step, h]

/-- The events counted are those of the batches that succeeded. -/
theorem events_eq_sum (v : Viewer σ ι κ) (ds : List (Duty σ ι κ)) :
    (v.fulfilAll ds).schedule.totals.events =
      v.schedule.totals.events + eventsApplied (v.history ds) := by
  refine fulfilAll_induction
    (P := fun t w => w.schedule.totals.events = v.schedule.totals.events + eventsApplied t)
    (fun t w p hw => ?_) (fun t w u hu hw => by rw [hu, hw]) ds [] v rfl
  cases p with
  | service =>
    rw [eventsApplied_service, ← Nat.add_assoc, ← hw]
    exact events_service w
  | tick =>
    unfold eventsApplied
    rw [begun_concat_of_ne (by decide)]
    exact (schedule_tick_cases w).2.2.2.1.trans hw

/-! ### What is polled -/

/-- The batches that were polled, one for each service that began. -/
def polled (t : List (Phase × Viewer σ ι κ)) : List (List Event) := (begun .service t).map (·.batch)

variable [InputQueue ι]

/-- What a duty makes wait. -/
def arrivedIn (v : Viewer σ ι κ) : Duty σ ι κ → List Event
  | .input change => (waiting (change v.input)).drop (waiting v.input).length
  | _ => []

/-- What duties make wait, one after another. -/
def arrived (v : Viewer σ ι κ) : List (Duty σ ι κ) → List Event
  | [] => []
  | d :: ds => v.arrivedIn d ++ (v.fulfil d).arrived ds

/-- Services poll from the front of what waits, and ticks poll nothing. -/
theorem polled_undergoAll (v : Viewer σ ι κ) (ps : List Phase) :
    (polled (v.began ps)).flatten ++ waiting (v.undergoAll ps).input = waiting v.input := by
  refine undergoAll_induction
    (P := fun t w => (polled t).flatten ++ waiting w.input = waiting v.input)
    (fun t w p hw => ?_) ps [] v rfl
  cases p with
  | service =>
    have hinput : (w.undergo .service).input = (InputSource.poll w.input).2 :=
      (bridge_store_input_service w).2.2
    rw [polled, begun_concat_self, List.map_append, List.flatten_append, List.append_assoc, hinput]
    refine Eq.trans (congrArg ((polled t).flatten ++ ·) ?_) hw
    simpa [batch] using poll_append_waiting w.input
  | tick =>
    have hinput : (w.undergo .tick).input = w.input := (bridge_store_input_tick w).2.2
    rw [polled, begun_concat_of_ne (by decide), hinput]
    exact hw

/-- What a duty polls and what waits behind it are what waited before it and what it
makes wait. -/
theorem polled_fulfil (v : Viewer σ ι κ) {d : Duty σ ι κ}
    (hd : ∀ change, d = .input change → Sends change) :
    (polled (v.began (v.phases d))).flatten ++ waiting (v.fulfil d).input =
      waiting v.input ++ v.arrivedIn d := by
  have hps := polled_undergoAll v (v.phases d)
  rw [← List.append_nil (waiting v.input)] at hps
  rw [fulfil_eq]
  cases d with
  | input change => exact (List.prefix_iff_eq_append.mp (hd change rfl v.input)).symm
  | _ => exact hps

/-- **What was polled is not polled again.** The batches polled and what waits then are
what waited before and what arrived. -/
theorem polled_append_waiting : ∀ (ds : List (Duty σ ι κ)) (v : Viewer σ ι κ),
    (∀ change, .input change ∈ ds → Sends change) →
    (polled (v.history ds)).flatten ++ waiting (v.fulfilAll ds).input =
      waiting v.input ++ v.arrived ds
  | [], v, _ => (List.append_nil _).symm
  | d :: ds, v, hs => by
    have hd := polled_fulfil v (d := d) fun change hc => hs change (hc ▸ List.mem_cons_self)
    have hds := polled_append_waiting ds (v.fulfil d) fun change hc =>
      hs change (List.mem_cons_of_mem _ hc)
    have hsplit : polled (v.history (d :: ds)) =
        polled (v.began (v.phases d)) ++ polled ((v.fulfil d).history ds) := by
      rw [history, polled, begun_append, List.map_append]
      rfl
    calc (polled (v.history (d :: ds))).flatten ++ waiting (v.fulfilAll (d :: ds)).input
        = (polled (v.began (v.phases d))).flatten ++
            ((polled ((v.fulfil d).history ds)).flatten ++
              waiting ((v.fulfil d).fulfilAll ds).input) := by
          rw [hsplit, List.flatten_append, List.append_assoc]
          rfl
      _ = (polled (v.began (v.phases d))).flatten ++ waiting (v.fulfil d).input ++
            (v.fulfil d).arrived ds := by
          rw [hds, List.append_assoc]
      _ = waiting v.input ++ v.arrived (d :: ds) := by
          rw [hd, List.append_assoc]
          rfl

/-! ### Batches that fail -/

/-- **A batch ends at its first event that fails.** Take a viewer with any store, any
input that hands out what waits in it, and any sink. Its next batch succeeds, or
some event of it is the first to fail. In that case a service, and so a step,
yields that failure, and the viewer is as before but for the input, which was
polled, and for bridge and store, which are as after the events up to that one:
the events before it were published completely, and it was taken into the bridge
while the store took only the first of its bytes. If the batch succeeds, a service
yields its length. What was polled, the events behind the failure too, is not
polled again, whatever is asked of the viewer later and whatever arrives. And over
any duties the events counted are those of the batches that succeeded. -/
theorem batch_ends_at_first_failure (v : Viewer σ ι κ) :
    let x := (v.bridge, v.store)
    let polledInput := (InputSource.poll v.input).2
    ((∃ y, x.1.applyAll x.2 v.batch = (.ok (), y)) ∨
      ∃ before e after u err y, Bridge.FailsAt x v.batch before e after u err y) ∧
    (∀ before e after u err y, Bridge.FailsAt x v.batch before e after u err y →
      let w := { v with input := polledInput, bridge := y.1, store := y.2 }
      v.service = (.error (.keyboard err), w) ∧ v.step = (.error (.keyboard err), w) ∧
      v.bridge.applyAll v.store (before ++ [e]) = (.error err, y) ∧
      Bridge.AllPublished x before u ∧ y.1 = u.1.after (.event e) ∧
      ∃ cause, err = .store cause ∧
        Store.RefusedWithin u.2 (u.1.route e (Store.size u.2)).1 cause y.2) ∧
    (∀ y, x.1.applyAll x.2 v.batch = (.ok (), y) →
      v.service = (.ok v.batch.length,
        { v with
          input := polledInput, bridge := y.1, store := y.2
          schedule := v.schedule.countEvents v.batch.length }) ∧
      Bridge.AllPublished x v.batch y) ∧
    waiting v.input = v.batch ++ waiting polledInput ∧
    (∀ ds, (∀ change, .input change ∈ ds → Sends change) →
      (polled (v.service.2.history ds)).flatten ++ waiting (v.service.2.fulfilAll ds).input =
        waiting polledInput ++ v.service.2.arrived ds) ∧
    (∀ ds, (v.fulfilAll ds).schedule.totals.events = v.schedule.totals.events +
      (((begun .service (v.history ds)).filter fun u =>
        (u.bridge.applyAll u.store u.batch).1 matches .ok ()).map (·.batch.length)).sum) := by
  intro x polledInput
  have hinput : v.service.2.input = polledInput := (bridge_store_input_service v).2.2
  refine ⟨Bridge.applyAll_cases v.batch x, ?_, ?_, (poll_append_waiting v.input).symm, ?_,
    events_eq_sum v⟩
  · intro before e after u err y h w
    have hservice : v.service = (.error (.keyboard err), w) := service_of_failsAt h
    obtain ⟨hy, hrefused⟩ := Bridge.refusedWithin_of_apply_error h.fails
    exact ⟨hservice, step_of_service_error hservice, h.applyAll_upTo,
      Bridge.allPublished_of_applyAll_ok before h.applied, hy, hrefused⟩
  · intro y hy
    exact ⟨service_of_applyAll_ok hy, Bridge.allPublished_of_applyAll_ok v.batch hy⟩
  · intro ds hds
    rw [polled_append_waiting ds v.service.2 hds, hinput]

/-- The row byte of the second press is refused. The release behind it is lost, and no
event is counted. -/
theorem release_lost_behind_refused_press :
    let v : Viewer FlakyStore Script RecordingSink :=
      ⟨⟨.zeroed 6, [false, false, false, true]⟩,
        ⟨[[⟨.down, .space⟩, ⟨.down, .tab⟩, ⟨.up, .space⟩]], 0⟩, .empty,
        ⟨⟨2, 2⟩, .idle .standard, none⟩, .new ⟨⟨2, 2⟩, .standard⟩, ⟨⟨50, 2⟩, 0, ⟨0, 0, 0⟩⟩⟩
    let x := (v.bridge, v.store)
    let u := (v.bridge.applyAll v.store [⟨.down, .space⟩]).2
    ∃ err y, Bridge.FailsAt x v.batch [⟨.down, .space⟩] ⟨.down, .tab⟩ [⟨.up, .space⟩] u err y ∧
      v.step.1 = .error (.keyboard err) ∧ Bridge.AllPublished x [⟨.down, .space⟩] u ∧
      y.1.keyboard.held = [.tab, .space] ∧
      (polled (v.service.2.history [.step])).flatten = [] ∧
      (v.fulfilAll [.step, .step]).schedule.totals.events = 0 := by
  intro v x u
  have hbefore : v.bridge.applyAll v.store [⟨.down, .space⟩] = (.ok (), u) := rfl
  rcases hfails : u.1.apply u.2 ⟨.down, .tab⟩ with ⟨err | _, y⟩
  · have h : Bridge.FailsAt x v.batch [⟨.down, .space⟩] ⟨.down, .tab⟩ [⟨.up, .space⟩] u err y :=
      ⟨rfl, hbefore, hfails⟩
    obtain ⟨-, hstops, -, -, hpolled, hcounted⟩ := batch_ends_at_first_failure v
    obtain ⟨-, hstep, -, hpublished, hy, -⟩ := hstops _ _ _ _ _ _ h
    have hrest : waiting (v.service.2.fulfilAll [.step]).input = [] := by decide +kernel
    have hlost := hpolled [.step] (by simp)
    rw [hrest, List.append_nil] at hlost
    exact ⟨err, y, h, by rw [hstep], hpublished, by rw [hy]; decide +kernel, hlost.trans rfl,
      (hcounted [.step, .step]).trans (by decide +kernel)⟩
  · have hfirst : (u.1.apply u.2 ⟨.down, .tab⟩).1.toOption = none := by decide +kernel
    rw [hfails] at hfirst
    cases hfirst

end Viewer
end ScreenBridge
