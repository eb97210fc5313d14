/-
# Every press is seen

A batch ends before the first release of a key that it presses
(`Channel.lastMotionFrom_splitBatch`). So each key that goes down in a batch is
down at the end of it, and its bits are in the store until the next batch or
until all keys are let go.

What a viewer does to its bridge and its store is a run of the bridge
(`Viewer.bridgeAndStore_actAll`), so that what holds of bridges holds here: which keys are held,
and that the published bytes show them.

Key definitions: `ViewerAction`, `Viewer.act`, `Viewer.actAll`, `Viewer.trace`.
Key theorems: `Channel.lastMotionFrom_splitBatch`, `Viewer.bridgeAndStore_actAll`,
`Viewer.press_visible_until_next_service`.
-/
import ScreenBridge.Proofs.Channel
import ScreenBridge.Proofs.Published

namespace ScreenBridge

/-! ### What a batch ends with -/

theorem lastMotionFrom_append (key : Key) : ∀ (actions later : List BridgeAction)
    (before : Option Motion), lastMotionFrom key before (actions ++ later) =
      lastMotionFrom key (lastMotionFrom key before actions) later
  | [], _, _ => rfl
  | .event _ :: actions, later, _ => lastMotionFrom_append key actions later _
  | .releaseAll :: actions, later, _ => lastMotionFrom_append key actions later _
  | .poke .. :: actions, later, _ => lastMotionFrom_append key actions later _

theorem lastMotionFrom_pokes (key : Key) : ∀ (actions : List BridgeAction) (before : Option Motion),
    (∀ a ∈ actions, ∃ offset value, a = .poke offset value) →
    lastMotionFrom key before actions = before
  | [], _, _ => rfl
  | a :: actions, before, h => by
    obtain ⟨offset, value, rfl⟩ := h a List.mem_cons_self
    exact lastMotionFrom_pokes key actions before fun a' ha' => h a' (List.mem_cons_of_mem _ ha')

/-- A key that goes down in a batch is down at its end, and so is one that went
down before and whose releases are kept back. -/
theorem Channel.lastMotionFrom_splitBatch (key : Key) : ∀ (es : List Event) (pressed : List Key)
    (before : Option Motion),
    (key ∈ pressed ∧ before = some .down) ∨
      (∃ e ∈ (splitBatch pressed es).1, e.key = key ∧ e.motion = .down) →
    lastMotionFrom key before ((splitBatch pressed es).1.map .event) = some .down
  | [], _, _, h => by
    rcases h with ⟨-, h⟩ | ⟨e, he, -⟩
    · exact h
    · cases he
  | e :: es, pressed, before, h => by
    cases hm : e.motion with
    | down =>
      rw [splitBatch_down hm] at h ⊢
      refine lastMotionFrom_splitBatch key es (e.key :: pressed) _ ?_
      by_cases hkey : e.key = key
      · exact Or.inl ⟨hkey ▸ List.mem_cons_self, by rw [if_pos hkey, hm]⟩
      · rw [if_neg hkey]
        rcases h with ⟨hp, hb⟩ | ⟨d, hd, hdk⟩
        · exact Or.inl ⟨List.mem_cons_of_mem _ hp, hb⟩
        · rcases List.mem_cons.mp hd with rfl | hd
          · exact absurd hdk.1 hkey
          · exact Or.inr ⟨d, hd, hdk⟩
    | up =>
      by_cases hk : e.key ∈ pressed
      -- the release that would undo a press stays behind, so the batch ends here
      · rw [splitBatch_up_of_mem hm hk] at h ⊢
        rcases h with ⟨-, h⟩ | ⟨d, hd, -⟩
        · exact h
        · cases hd
      · rw [splitBatch_up_of_not_mem hm hk] at h ⊢
        refine lastMotionFrom_splitBatch key es pressed _ ?_
        rcases h with ⟨hp, hb⟩ | ⟨d, hd, hdk⟩
        · have hkey : e.key ≠ key := fun hkey => hk (hkey ▸ hp)
          exact Or.inl ⟨hp, by rw [if_neg hkey, hb]⟩
        · rcases List.mem_cons.mp hd with rfl | hd
          · rw [hm] at hdk
            cases hdk.2
          · exact Or.inr ⟨d, hd, hdk⟩

/-! ### A viewer's run is a run of its bridge -/

/-- What happens to a viewer with a channel: something happens to the channel, it
takes a step, counts a tick, redraws or lets all keys go, or the machine puts a
byte into the store. -/
inductive ViewerAction
  | channel (a : ChannelAction)
  | step
  | tick
  | refresh
  | releaseAll
  | poke (offset : UInt64) (value : UInt8)
  deriving DecidableEq, Repr

namespace ViewerAction

/-- The machine writes only into the grid. -/
def InGrid (l : Layout) : ViewerAction → Prop
  | poke offset _ => offset < l.gridLen
  | _ => True

/-- The viewer polls its channel and applies the batch. -/
def Services : ViewerAction → Prop
  | channel .poll => True
  | step => True
  | _ => False

end ViewerAction

namespace Viewer

open ByteStore

variable {σ κ : Type} {l : Layout} {size : ℕ}

/-- The bridge of a viewer, with its store. -/
def bridgeAndStore (v : Viewer σ Channel κ) : Bridge × σ := (v.bridge, v.store)

/-- What an action does to the bridge and the store. -/
def bridgeActions (v : Viewer σ Channel κ) : ViewerAction → List BridgeAction
  | .channel (.send _) => []
  | .channel .close => []
  | .channel .poll => v.input.poll.1.map .event
  | .step => v.input.poll.1.map .event
  | .tick => []
  | .refresh => []
  | .releaseAll => [.releaseAll]
  | .poke offset value => [.poke offset value]

theorem inGrid_bridgeActions (v : Viewer σ Channel κ) {a : ViewerAction} (ha : a.InGrid l) :
    ∀ b ∈ v.bridgeActions a, b.InGrid l := by
  have hevents : ∀ b ∈ v.input.poll.1.map BridgeAction.event, b.InGrid l := by
    intro b hb
    obtain ⟨e, -, rfl⟩ := List.mem_map.mp hb
    trivial
  intro b hb
  cases a with
  | channel a =>
    cases a with
    | send e => cases hb
    | close => cases hb
    | poll => exact hevents b hb
  | step => exact hevents b hb
  | tick => cases hb
  | refresh => cases hb
  | releaseAll => rw [List.mem_singleton.mp hb]; trivial
  | poke offset value => rw [List.mem_singleton.mp hb]; exact ha

theorem bridgeActions_of_services (v : Viewer σ Channel κ) {a : ViewerAction} (ha : a.Services) :
    v.bridgeActions a = v.input.poll.1.map .event := by
  cases a with
  | channel a =>
    cases a with
    | poll => rfl
    | _ => exact ha.elim
  | step => rfl
  | _ => exact ha.elim

variable [Store σ]

theorem bridgeAndStore_tick [Sink κ] (v : Viewer σ Channel κ) :
    v.tick.2.bridgeAndStore = v.bridgeAndStore := by
  obtain ⟨hb, hs, -⟩ := bridge_store_input_tick v
  exact Prod.ext hb hs

theorem bridgeAndStore_step [Sink κ] (v : Viewer σ Channel κ) :
    v.step.2.bridgeAndStore = v.service.2.bridgeAndStore := by
  obtain ⟨hb, hs, -⟩ := bridge_store_input_step v
  exact Prod.ext hb hs

theorem bridgeAndStore_service [ByteStore σ] {v : Viewer σ Channel κ}
    (h : Bridge.Ready l size v.bridgeAndStore) :
    v.service.2.bridgeAndStore = Bridge.run v.bridgeAndStore (v.input.poll.1.map .event) := by
  refine (service_eq v).2.trans ?_
  rw [show v.bridge.applyAll v.store v.input.poll.1 = _ from h.applyAll_eq v.input.poll.1]

variable [ByteStore σ] [Sink κ]

/-- The viewer after an action, whether or not that fails. -/
def act (v : Viewer σ Channel κ) : ViewerAction → Viewer σ Channel κ
  | .channel a => v.handle a
  | .step => v.step.2
  | .tick => v.tick.2
  | .refresh => v.refresh.2
  | .releaseAll => v.releaseAll.2
  | .poke offset value => { v with store := ByteStore.poke v.store offset value }

/-- The viewer after actions, one after another. -/
def actAll (v : Viewer σ Channel κ) (actions : List ViewerAction) : Viewer σ Channel κ :=
  actions.foldl act v

/-- What actions do to the bridge and the store, one after another. -/
def trace (v : Viewer σ Channel κ) : List ViewerAction → List BridgeAction
  | [] => []
  | a :: actions => v.bridgeActions a ++ trace (v.act a) actions

/-- **A viewer's action does to its bridge what its trace tells.** -/
theorem bridgeAndStore_act {v : Viewer σ Channel κ} (h : Bridge.Ready l size v.bridgeAndStore)
    (a : ViewerAction) :
    (v.act a).bridgeAndStore = Bridge.run v.bridgeAndStore (v.bridgeActions a) := by
  cases a with
  | channel a =>
    cases a with
    | send e => rfl
    | close => rfl
    | poll => exact bridgeAndStore_service h
  | step => exact (bridgeAndStore_step v).trans (bridgeAndStore_service h)
  | tick => exact bridgeAndStore_tick v
  | refresh => rfl
  | releaseAll => rfl
  | poke offset value => rfl

theorem ready_act {v : Viewer σ Channel κ} (h : Bridge.Ready l size v.bridgeAndStore)
    {a : ViewerAction} (ha : a.InGrid l) : Bridge.Ready l size (v.act a).bridgeAndStore := by
  rw [bridgeAndStore_act h a]
  exact h.run _ (inGrid_bridgeActions v ha)

theorem inGrid_trace : ∀ (actions : List ViewerAction) (v : Viewer σ Channel κ),
    (∀ a ∈ actions, a.InGrid l) → ∀ b ∈ v.trace actions, b.InGrid l
  | [], _, _, _, hb => by cases hb
  | a :: actions, v, hg, b, hb => by
    rcases List.mem_append.mp hb with hb | hb
    · exact inGrid_bridgeActions v (hg a List.mem_cons_self) b hb
    · exact inGrid_trace actions (v.act a) (fun a' ha' => hg a' (List.mem_cons_of_mem _ ha')) b hb

/-- **A viewer's run is a run of its bridge.** -/
theorem bridgeAndStore_actAll : ∀ (actions : List ViewerAction) {v : Viewer σ Channel κ},
    Bridge.Ready l size v.bridgeAndStore → (∀ a ∈ actions, a.InGrid l) →
    (v.actAll actions).bridgeAndStore = Bridge.run v.bridgeAndStore (v.trace actions)
  | [], _, _, _ => rfl
  | a :: actions, v, h, hg => by
    have hact := ready_act h (hg a List.mem_cons_self)
    have hrest := bridgeAndStore_actAll actions hact fun a' ha' =>
      hg a' (List.mem_cons_of_mem _ ha')
    rw [bridgeAndStore_act h a, ← Bridge.run_append] at hrest
    exact hrest

theorem trace_append : ∀ (actions later : List ViewerAction) (v : Viewer σ Channel κ),
    v.trace (actions ++ later) = v.trace actions ++ (v.actAll actions).trace later
  | [], _, _ => rfl
  | a :: actions, later, v => by
    rw [List.cons_append, trace, trace, trace_append actions later, List.append_assoc]
    rfl

/-- Without servicing and letting all keys go, only the machine touches the store. -/
theorem trace_pokes : ∀ (actions : List ViewerAction) (v : Viewer σ Channel κ),
    (∀ a ∈ actions, ¬ a.Services ∧ a ≠ .releaseAll) →
    ∀ b ∈ v.trace actions, ∃ offset value, b = .poke offset value
  | [], _, _, _, hb => by cases hb
  | a :: actions, v, h, b, hb => by
    rcases List.mem_append.mp hb with hb | hb
    · obtain ⟨hs, hr⟩ := h a List.mem_cons_self
      cases a with
      | channel a =>
        cases a with
        | send e => cases hb
        | close => cases hb
        | poll => exact absurd trivial hs
      | step => exact absurd trivial hs
      | tick => cases hb
      | refresh => cases hb
      | releaseAll => exact absurd rfl hr
      | poke offset value => exact ⟨offset, value, List.mem_singleton.mp hb⟩
    · exact trace_pokes actions (v.act a) (fun a' ha' => h a' (List.mem_cons_of_mem _ ha')) b hb

/-! ### Presses -/

theorem lastMotion_trace {v : Viewer σ Channel κ} {actions later : List ViewerAction}
    {a : ViewerAction} (ha : a.Services) (hlater : ∀ a ∈ later, ¬ a.Services ∧ a ≠ .releaseAll)
    {e : Event} (he : e ∈ (v.actAll actions).input.poll.1) (hd : e.motion = .down) :
    lastMotion e.key (v.trace (actions ++ a :: later)) = some .down := by
  rw [lastMotion, trace_append, trace, bridgeActions_of_services _ ha, lastMotionFrom_append,
    lastMotionFrom_append, lastMotionFrom_pokes _ _ _ (trace_pokes later _ hlater)]
  exact Channel.lastMotionFrom_splitBatch e.key _ [] _ (Or.inr ⟨e, he, rfl, hd⟩)

/-- **Every press is visible until the next service.** In any run of a viewer
that starts with its bridge idle and its channel empty, over a store with room
for the keyboard bytes, a key that goes down in a batch is held when the batch
was applied, by the joystick if that takes it and by the keyboard if it has a
crossing. All its bits are then set in the store. Both stay so until the viewer
applies the next batch or lets all keys go, whatever else was in the batch and
whatever is sent, shown and painted meanwhile. -/
theorem press_visible_until_next_service {decoder : Decoder} (hl : decoder.layout.Valid)
    {m : Matrix} (hm : m.Built) {port : Option Port} {cadence : Cadence} {s : σ} {sink : κ}
    (hw : Writable s) (hs : decoder.layout.minLen.toNat ≤ (bytes s).size) {v : Viewer σ Channel κ}
    (hv : Viewer.new s Channel.empty sink decoder m port cadence = .ok v)
    {actions later : List ViewerAction} {a : ViewerAction} (ha : a.Services)
    (hlater : ∀ a ∈ later, ¬ a.Services ∧ a ≠ .releaseAll)
    (hg : ∀ b ∈ actions ++ a :: later, b.InGrid decoder.layout) :
    let y := v.actAll (actions ++ a :: later)
    ∀ e ∈ (v.actAll actions).input.poll.1, e.motion = .down →
      (port = none ∨ Joystick.isKey e.key = false → m.cellsFor e.key ≠ [] →
        e.key ∈ y.bridge.keyboard.held ∧
        ∃ col row, byteAt y.store decoder.layout.colOffset = some col ∧
          byteAt y.store decoder.layout.rowOffset = some row ∧
          ∀ cell ∈ m.cellsFor e.key, col.toNat.testBit cell.col = true ∧
            row.toNat.testBit cell.row = true) ∧
      (∀ p, port = some p → Joystick.isKey e.key = true →
        e.key ∈ y.bridge.joystickHeld ∧
        ∀ offset bit, decoder.layout.joystickOffset p.number = some offset →
          offset.toNat < (bytes s).size → Joystick.bit? e.key = some bit →
          ∃ byte, byteAt y.store offset = some byte ∧ byte.toNat.testBit bit.toNat = true) := by
  intro y e he hd
  have hstart : v.bridgeAndStore = (Bridge.idle decoder.layout m port, s) := by
    unfold Viewer.new at hv
    split at hv
    · cases hv
    · cases hv
      rfl
  have h := Bridge.ready_idle hl hm port hw hs
  have hlast := lastMotion_trace ha hlater he hd
  have htrace := inGrid_trace (actions ++ a :: later) v hg
  have hend : y.bridgeAndStore = Bridge.run (Bridge.idle decoder.layout m port, s)
      (v.trace (actions ++ a :: later)) := by
    rw [← hstart] at h ⊢
    exact bridgeAndStore_actAll _ h hg
  obtain ⟨hbridge, hstore⟩ := Prod.mk.inj hend
  rw [hbridge, hstore]
  refine ⟨fun hkey hc => ?_, ?_⟩
  · exact Bridge.pressed_key_shown h htrace (Bridge.has_idle_keyboard.mpr ⟨hkey, hc⟩) hlast
  · rintro p rfl hj
    obtain ⟨hk, hshown⟩ := Bridge.pressed_direction_shown h htrace hj hlast
    refine ⟨hk, fun offset bit ho hlt hbit => ?_⟩
    rw [Layout.joystickOffset_number, Option.some.injEq] at ho
    subst ho
    exact hshown bit hlt hbit

/-- A tap of the space key, sent as a whole, is seen after the step and while the
machine paints and a tick goes by. -/
theorem tap_visible_after_step :
    let decoder : Decoder := ⟨⟨2, 2⟩, .standard⟩
    let s := MemoryStore.zeroed 8
    let v : Viewer MemoryStore Channel RecordingSink :=
      ⟨s, .empty, .empty, .idle ⟨2, 2⟩ .standard none, .new decoder, ⟨.standard, 0, ⟨0, 0, 0⟩⟩⟩
    let actions : List ViewerAction :=
      [.channel (.send ⟨.down, .space⟩), .channel (.send ⟨.up, .space⟩)]
    let later : List ViewerAction := [.poke 1 6, .tick]
    let y := v.actAll (actions ++ .step :: later)
    Viewer.new s Channel.empty RecordingSink.empty decoder .standard none .standard = .ok v ∧
      decoder.layout.Valid ∧ Matrix.standard.Built ∧ s.failWrites = false ∧
      decoder.layout.minLen.toNat ≤ s.bytes.size ∧
      (∀ a ∈ later, ¬ a.Services ∧ a ≠ .releaseAll) ∧
      (∀ b ∈ actions ++ .step :: later, b.InGrid decoder.layout) ∧
      Key.space ∈ y.bridge.keyboard.held := by
  intro decoder s v actions later
  have hv : Viewer.new s Channel.empty RecordingSink.empty decoder .standard none .standard =
      .ok v := rfl
  have hl : decoder.layout.Valid := rfl
  have hs : decoder.layout.minLen.toNat ≤ s.bytes.size := by decide
  have hlater : ∀ a ∈ later, ¬ a.Services ∧ a ≠ .releaseAll := by
    simp [later, ViewerAction.Services]
  have hg : ∀ b ∈ actions ++ .step :: later, b.InGrid decoder.layout := by
    simp [actions, later, ViewerAction.InGrid]
    decide
  have hbatch : (⟨.down, .space⟩ : Event) ∈ (v.actAll actions).input.poll.1 := List.mem_cons_self
  have hvisible := press_visible_until_next_service hl .standard rfl hs hv
    (a := .step) trivial hlater hg ⟨.down, .space⟩ hbatch rfl
  refine ⟨hv, hl, .standard, rfl, hs, hlater, hg, ?_⟩
  exact (hvisible.1 (Or.inl rfl) (by decide)).1

end Viewer
end ScreenBridge
