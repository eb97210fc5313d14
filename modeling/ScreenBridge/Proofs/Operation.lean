/-
# A viewer loses no update of the machine

Viewer and machine write into one store in any order. Whatever the viewer does,
and whether or not its reads, its writes and its sink fail, every byte that its
bridge does not own holds what the machine put there last
(`Viewer.byteAt_performAll`). While writes succeed, the log of the store tells
what each operation wrote: the bytes of the part that it changed, and nothing
where it changed none.

Key definitions: `Operation`, `Viewer.perform`, `Viewer.performAll`,
`Operation.latestPoke`, `Viewer.Logs`.
Key theorems: `Viewer.confined_perform`, `Viewer.byteAt_performAll`,
`Viewer.only_own_bytes_are_written`.
-/
import ScreenBridge.Proofs.Footprint
import ScreenBridge.Proofs.Viewer

namespace ScreenBridge

/-- What is done with a viewer over a store in memory. -/
inductive Operation (ι κ : Type)
  /-- An event is applied outside of any poll. -/
  | event (e : Event)
  | releaseAll
  | service
  | tick
  | step
  | decode
  | refresh
  /-- Something happens to the input, such as the arrival of events. -/
  | input (change : ι → ι)
  /-- Something happens to the sink, such as that it is told to refuse a frame. -/
  | sink (change : κ → κ)
  /-- The machine puts a byte into the store. -/
  | poke (offset : UInt64) (value : UInt8)
  | failReads (on : Bool)
  | failWrites (on : Bool)

namespace Operation

variable {ι κ : Type}

/-- What a byte of the store holds after operations if nobody but the machine writes
it. A byte outside the store stays outside. -/
def latestPoke (offset : UInt64) (before : Option UInt8) : List (Operation ι κ) → Option UInt8
  | [] => before
  | .poke place value :: ops =>
    latestPoke offset (if place = offset then before.map fun _ => value else before) ops
  | _ :: ops => latestPoke offset before ops

/-- The operation is done to the store past the viewer. -/
def IsOutside : Operation ι κ → Prop
  | poke .. => True
  | failReads _ => True
  | failWrites _ => True
  | _ => False

/-- The operation shows the grid, or would if a redraw were due. -/
def IsRedraw : Operation ι κ → Prop
  | tick => True
  | decode => True
  | refresh => True
  | _ => False

theorem latestPoke_cons (offset : UInt64) (before : Option UInt8) (op : Operation ι κ)
    (ops : List (Operation ι κ)) :
    latestPoke offset before (op :: ops) = latestPoke offset (latestPoke offset before [op]) ops := by
  cases op <;> rfl

theorem latestPoke_of_not_outside {op : Operation ι κ} (h : ¬ op.IsOutside) (offset : UInt64)
    (before : Option UInt8) : latestPoke offset before [op] = before := by
  cases op with
  | poke place value => exact absurd trivial h
  | _ => rfl

end Operation

namespace Viewer

open ByteStore
open Operation (latestPoke latestPoke_cons latestPoke_of_not_outside)

variable {ι κ : Type} [InputSource ι] [Sink κ]

/-- What an operation yields, and the viewer after it. -/
def perform (v : Viewer MemoryStore ι κ) :
    Operation ι κ → Except ViewerError Unit × Viewer MemoryStore ι κ
  | .event e =>
    let (result, v) := v.applyEvents [e]
    (result.mapError .keyboard, v)
  | .releaseAll =>
    let (result, v) := v.releaseAll
    (result.mapError .keyboard, v)
  | .service =>
    let (result, v) := v.service
    (result.map fun _ => (), v)
  | .tick =>
    let (result, v) := v.tick
    (result.map fun _ => (), v)
  | .step =>
    let (result, v) := v.step
    (result.map fun _ => (), v)
  | .decode =>
    let (result, v) := v.decode
    ((result.map fun _ => ()).mapError .refresh, v)
  | .refresh =>
    let (result, v) := v.refresh
    (result.mapError .refresh, v)
  | .input change => (.ok (), { v with input := change v.input })
  | .sink change => (.ok (), { v with sink := change v.sink })
  | .poke offset value => (.ok (), { v with store := ByteStore.poke v.store offset value })
  | .failReads on => (.ok (), { v with store := { v.store with failReads := on } })
  | .failWrites on => (.ok (), { v with store := { v.store with failWrites := on } })

/-- The viewer after operations, one after another, whether or not they fail. -/
def performAll (v : Viewer MemoryStore ι κ) (ops : List (Operation ι κ)) :
    Viewer MemoryStore ι κ :=
  ops.foldl (fun v op => (v.perform op).2) v

variable {v : Viewer MemoryStore ι κ} {op : Operation ι κ}

theorem perform_event (v : Viewer MemoryStore ι κ) (e : Event) :
    v.perform (.event e) =
      ((v.bridge.apply v.store e).1.mapError .keyboard,
        { v with
          bridge := (v.bridge.apply v.store e).2.1
          store := (v.bridge.apply v.store e).2.2 }) := by
  change ((v.bridge.applyAll v.store [e]).1.mapError _, _) = _
  rw [Bridge.applyAll_singleton]
  change (_, { v with
    bridge := (v.bridge.applyAll v.store [e]).2.1, store := (v.bridge.applyAll v.store [e]).2.2 }) = _
  rw [Bridge.applyAll_singleton]

/-! ### Bytes -/

/-- What a viewer does leaves the store alone but for the bytes of its bridge. -/
theorem confined_perform (v : Viewer MemoryStore ι κ) (h : ¬ op.IsOutside) :
    Bridge.Confined (v.bridge, v.store) ((v.perform op).2.bridge, (v.perform op).2.store) := by
  have hservice : Bridge.Confined (v.bridge, v.store) (v.service.2.bridge, v.service.2.store) := by
    obtain ⟨hb, hs, -⟩ := bridge_store_input_service v
    rw [hb, hs]
    exact Bridge.confined_applyAll (InputSource.poll v.input).1 v.bridge v.store
  cases op with
  | event e =>
    rw [perform_event]
    exact Bridge.confined_apply v.bridge v.store e
  | releaseAll => exact Bridge.confined_releaseAll v.bridge v.store
  | service => exact hservice
  | tick =>
    obtain ⟨hb, hs, -⟩ := bridge_store_input_tick v
    change Bridge.Confined _ (v.tick.2.bridge, v.tick.2.store)
    rw [hb, hs]
    exact Bridge.Confined.refl _
  | step =>
    obtain ⟨hb, hs, -⟩ := bridge_store_input_step v
    change Bridge.Confined _ (v.step.2.bridge, v.step.2.store)
    rw [hb, hs]
    exact hservice
  | decode => exact Bridge.Confined.refl _
  | refresh => exact Bridge.Confined.refl _
  | input change => exact Bridge.Confined.refl _
  | sink change => exact Bridge.Confined.refl _
  | poke offset value => exact absurd trivial h
  | failReads on => exact absurd trivial h
  | failWrites on => exact absurd trivial h

/-- Two viewers own the same bytes of stores of one size. -/
structure Alike (v w : Viewer MemoryStore ι κ) : Prop where
  layout_eq : w.bridge.layout = v.bridge.layout
  port_eq : w.bridge.joystick.map (·.port) = v.bridge.joystick.map (·.port)
  size_eq : w.store.bytes.size = v.store.bytes.size

theorem alike_perform (v : Viewer MemoryStore ι κ) (op : Operation ι κ) :
    Alike v (v.perform op).2 := by
  by_cases h : op.IsOutside
  · cases op with
    | poke place value => exact ⟨rfl, rfl, MemoryStore.size_poke v.store place value⟩
    | failReads on => exact ⟨rfl, rfl, rfl⟩
    | failWrites on => exact ⟨rfl, rfl, rfl⟩
    | _ => exact h.elim
  · obtain ⟨hl, hp, hw⟩ := confined_perform v h
    exact ⟨hl, hp, hw.size_eq⟩

theorem alike_performAll : ∀ (ops : List (Operation ι κ)) (v : Viewer MemoryStore ι κ),
    Alike v (v.performAll ops)
  | [], _ => ⟨rfl, rfl, rfl⟩
  | op :: ops, v => by
    have hop := alike_perform v op
    have hops := alike_performAll ops (v.perform op).2
    exact
      ⟨hops.layout_eq.trans hop.layout_eq, hops.port_eq.trans hop.port_eq,
        hops.size_eq.trans hop.size_eq⟩

variable {offset : UInt64}

/-- An operation other than of the machine leaves a byte alone that the bridge does
not own. -/
theorem byteAt_perform (op : Operation ι κ) (ho : ¬ v.bridge.Owns offset) :
    byteAt (v.perform op).2.store offset = latestPoke offset (byteAt v.store offset) [op] := by
  by_cases h : op.IsOutside
  · cases op with
    | poke place value => exact MemoryStore.byteAt_poke v.store place offset value
    | failReads on => rfl
    | failWrites on => rfl
    | _ => exact h.elim
  · rw [latestPoke_of_not_outside h]
    exact (confined_perform v h).wrote.byteAt_eq offset ho

/-- **No update of the machine is lost.** Whatever is done, and whether or not it
fails, a byte that the bridge does not own holds what the machine put there last. -/
theorem byteAt_performAll : ∀ (ops : List (Operation ι κ)) {v : Viewer MemoryStore ι κ},
    ¬ v.bridge.Owns offset →
    byteAt (v.performAll ops).store offset = latestPoke offset (byteAt v.store offset) ops
  | [], _, _ => rfl
  | op :: ops, v, ho => by
    obtain ⟨hl, hp, -⟩ := alike_perform v op
    have ho' : ¬ (v.perform op).2.bridge.Owns offset := by rwa [Bridge.owns_congr hl hp]
    calc byteAt (v.performAll (op :: ops)).store offset
        = latestPoke offset (byteAt (v.perform op).2.store offset) ops := byteAt_performAll ops ho'
      _ = latestPoke offset (latestPoke offset (byteAt v.store offset) [op]) ops := by
        rw [byteAt_perform op ho]
      _ = latestPoke offset (byteAt v.store offset) (op :: ops) := (latestPoke_cons ..).symm

/-! ### The log -/

/-- An operation writes at these offsets, in this order. -/
def Logs (v : Viewer MemoryStore ι κ) (op : Operation ι κ) (offsets : List UInt64) : Prop :=
  (v.perform op).2.store.log.toList = v.store.log.toList ++ offsets

theorem logs_event (hv : v.bridge.layout.Valid)
    (hfits : v.bridge.layout.minLen.toNat ≤ v.store.bytes.size) (hf : v.store.failWrites = false)
    (e : Event) : v.Logs (.event e) ((v.bridge.route e v.store.bytes.size).1.map (·.1)) := by
  unfold Logs
  rw [perform_event]
  exact (Bridge.log_apply hv hfits hf e).2

theorem store_perform_of_isRedraw (v : Viewer MemoryStore ι κ) (h : op.IsRedraw) :
    (v.perform op).2.store = v.store := by
  cases op with
  | tick => exact (bridge_store_input_tick v).2.1
  | decode => rfl
  | refresh => rfl
  | _ => exact h.elim

theorem performAll_events : ∀ (es : List Event) (v : Viewer MemoryStore ι κ),
    ((v.performAll (es.map .event)).bridge, (v.performAll (es.map .event)).store) =
      es.foldl (fun x e => (x.1.apply x.2 e).2) (v.bridge, v.store)
  | [], _ => rfl
  | e :: es, v => by
    have hrest := performAll_events es (v.perform (.event e)).2
    rw [perform_event] at hrest
    rw [List.foldl_cons]
    refine Eq.trans ?_ hrest
    rw [List.map_cons, performAll, List.foldl_cons, perform_event]
    rfl

theorem bridge_store_service (hv : v.bridge.layout.Valid)
    (hfits : v.bridge.layout.minLen.toNat ≤ v.store.bytes.size) (hf : v.store.failWrites = false) :
    let w := v.performAll ((InputSource.poll v.input).1.map .event)
    v.service.2.bridge = w.bridge ∧ v.service.2.store = w.store := by
  intro w
  have hall := Bridge.applyAll_eq_foldl (InputSource.poll v.input).1 hv hfits hf
  have hw : (w.bridge, w.store) = _ := performAll_events (InputSource.poll v.input).1 v
  have hsame : (v.bridge.applyAll v.store (InputSource.poll v.input).1).2 = (w.bridge, w.store) := by
    rw [hall, hw]
  obtain ⟨hb, hs, -⟩ := bridge_store_input_service v
  exact ⟨hb.trans (congrArg Prod.fst hsame), hs.trans (congrArg Prod.snd hsame)⟩

/-! ### Viewers and machines -/

/-- **A viewer loses no update of the machine and writes only its own bytes.** Take
any viewer over a store in memory of any length, and do anything with it, while
the machine puts bytes anywhere and reads, writes and the sink are made to fail
at will. A byte of the store that is neither a keyboard byte nor that of the
joystick's port holds what the machine put there last, and redrawing changes
none. If then the layout is sound, the store has room for the keyboard bytes and
its writes do not fail, an event that changes the keyboard writes the column byte
and then the row byte, one that changes the joystick writes its byte if that lies
in the store, and any other event writes nothing. Letting all keys go writes the
keyboard bytes and then the byte of the joystick, and a service, and a step, what
the events of the batch write one after another. -/
theorem only_own_bytes_are_written (v : Viewer MemoryStore ι κ) (ops : List (Operation ι κ)) :
    let l := v.bridge.layout
    let y := v.performAll ops
    (∀ offset, ¬ v.bridge.Owns offset →
      byteAt y.store offset = latestPoke offset (byteAt v.store offset) ops) ∧
    (∀ op, op.IsRedraw → (y.perform op).2.store = y.store) ∧
    (l.Valid → l.minLen.toNat ≤ v.store.bytes.size → y.store.failWrites = false →
      (∀ e, y.bridge.AppliesToKeyboard e → y.Logs (.event e) [l.colOffset, l.rowOffset]) ∧
      (∀ e, y.bridge.AppliesToJoystick e →
        y.Logs (.event e) (v.bridge.joystickBytes v.store.bytes.size)) ∧
      (∀ e, ¬ y.bridge.AppliesToKeyboard e → ¬ y.bridge.AppliesToJoystick e →
        y.Logs (.event e) []) ∧
      y.Logs .releaseAll ([l.colOffset, l.rowOffset] ++ v.bridge.joystickBytes v.store.bytes.size) ∧
      (∀ op, op = .service ∨ op = .step →
        let w := y.performAll ((InputSource.poll y.input).1.map .event)
        (y.perform op).2.bridge = w.bridge ∧ (y.perform op).2.store = w.store)) := by
  intro l y
  refine ⟨fun offset ho => byteAt_performAll ops ho, fun op h => store_perform_of_isRedraw y h, ?_⟩
  intro hv hfits hf
  obtain ⟨hlayout, hport, hsize⟩ : Alike v y := alike_performAll ops v
  have hv' : y.bridge.layout.Valid := hlayout ▸ hv
  have hfits' : y.bridge.layout.minLen.toNat ≤ y.store.bytes.size := by
    rw [hlayout, hsize]
    exact hfits
  have hbytes : y.bridge.joystickBytes y.store.bytes.size =
      v.bridge.joystickBytes v.store.bytes.size := by
    unfold Bridge.joystickBytes
    rw [hlayout, hport, hsize]
  have hevent := logs_event hv' hfits' hf
  refine ⟨fun e hk => ?_, fun e hj => ?_, fun e hk hj => ?_, ?_, fun op hop => ?_⟩
  · have h := hevent e
    rw [Bridge.fst_route_of_keyboard _ hk, hlayout] at h
    exact h
  · have h := hevent e
    rw [Bridge.fst_route_of_joystick _ hj, Bridge.map_fst_joystickWrites,
      Bridge.joystickBytes_after, hbytes] at h
    exact h
  · have h := hevent e
    rw [Bridge.fst_route_of_neither _ hk hj] at h
    exact h
  · have h := (Bridge.log_releaseAll hv' hfits' hf).2
    rw [hbytes, hlayout, List.append_assoc] at h
    exact h
  · have hservice := bridge_store_service hv' hfits' hf
    rcases hop with rfl | rfl
    · exact hservice
    · obtain ⟨hb, hs, -⟩ := bridge_store_input_step y
      exact ⟨hb.trans hservice.1, hs.trans hservice.2⟩

/-- A press that cannot be published, a pixel that the machine paints then, and the
bytes that are written after writes succeed again. -/
theorem pixel_outlives_failed_press :
    let v : Viewer MemoryStore Script RecordingSink :=
      ⟨.zeroed 7, ⟨[], 0⟩, .empty, ⟨⟨2, 2⟩, .idle .standard, some (.idle .one)⟩,
        .new ⟨⟨2, 2⟩, .standard⟩, ⟨⟨50, 2⟩, 0, ⟨0, 0, 0⟩⟩⟩
    let ops := [.failWrites true, .event ⟨.down, .space⟩, .poke 1 9, .failWrites false, .tick]
    let y := v.performAll ops
    ¬ v.bridge.Owns 1 ∧ byteAt y.store 1 = some 9 ∧
    v.bridge.layout.Valid ∧ v.bridge.layout.minLen.toNat ≤ v.store.bytes.size ∧
    y.store.failWrites = false ∧ y.bridge.AppliesToKeyboard ⟨.up, .space⟩ ∧
    y.Logs (.event ⟨.up, .space⟩) [4, 5] ∧ y.Logs .releaseAll [4, 5, 6] ∧ y.Logs .service [] := by
  intro v ops y
  have howns : ¬ v.bridge.Owns 1 := by
    rintro (h | h | ⟨p, hp, ho⟩)
    · exact absurd h (by decide)
    · exact absurd h (by decide)
    · obtain rfl := Option.some.inj hp
      exact absurd ho (by decide)
  have hv : v.bridge.layout.Valid := rfl
  have hfits : v.bridge.layout.minLen.toNat ≤ v.store.bytes.size := by decide
  have hf : y.store.failWrites = false := by decide +kernel
  have happlies : y.bridge.AppliesToKeyboard ⟨.up, .space⟩ :=
    ⟨by decide +kernel, ⟨0, 0⟩, 1, by decide +kernel⟩
  obtain ⟨hbytes, -, hlog⟩ := only_own_bytes_are_written v ops
  obtain ⟨hkeyboard, -, -, hrelease, hservice⟩ := hlog hv hfits hf
  refine ⟨howns, hbytes 1 howns, hv, hfits, hf, happlies, hkeyboard _ happlies, hrelease, ?_⟩
  change (y.perform .service).2.store.log.toList = _
  rw [(hservice .service (Or.inl rfl)).2]
  exact (List.append_nil _).symm

end Viewer
end ScreenBridge
