/-
# A viewer on a long enough store never fails

A viewer is sturdy if its store has room for the grid and the keyboard bytes, is
read and written, and its sink takes every frame. Whatever is called, it succeeds
and leaves the viewer sturdy (`Viewer.Sturdy.call`), also a run that is stopped at
any moment (`Viewer.Sturdy.run`). While a viewer is sturdy nothing it could reach
for is missing (`Viewer.Sturdy.inBounds`): no byte of the store, no cell, no color,
and no counter overflows.

Key definitions: `Sink.Accepting`, `Viewer.Call`, `Viewer.call`, `Viewer.Sturdy`,
`Viewer.EndsWell`, `Viewer.InBounds`.
Key theorems: `Viewer.sturdy_new`, `Viewer.Sturdy.tick`, `Viewer.Sturdy.service`,
`Viewer.Sturdy.run`, `Viewer.Sturdy.call`, `Viewer.Sturdy.inBounds`,
`Viewer.long_enough_store_is_enough`.
-/
import ScreenBridge.Proofs.Bounds
import ScreenBridge.Proofs.Bridge
import ScreenBridge.Proofs.Schedule
import ScreenBridge.Proofs.Segment
import ScreenBridge.Proofs.Viewer
import ScreenBridge.Viewer.Run

namespace ScreenBridge

namespace Sink

variable {κ : Type} [Sink κ]

/-- The sink after frames were presented to it. -/
def presentAll (k : κ) (frames : List Frame) : κ :=
  frames.foldl (fun k frame => (Sink.present k frame).2) k

/-- The sink takes every frame, whatever it took before. -/
def Accepting (k : κ) : Prop :=
  ∀ (earlier : List Frame) (frame : Frame), (Sink.present (presentAll k earlier) frame).1 = .ok ()

theorem Accepting.present {k : κ} (h : Accepting k) (frame : Frame) :
    (Sink.present k frame).1 = .ok () ∧ Accepting (Sink.present k frame).2 :=
  ⟨h [] frame, fun earlier => h (frame :: earlier)⟩

end Sink

/-- A sink that keeps frames takes them all, unless it is told to refuse one. -/
theorem RecordingSink.accepting_of_not_failing {k : RecordingSink} (hk : k.failNext = false) :
    Sink.Accepting k := by
  have hpresent : ∀ {k : RecordingSink} (frame : Frame), k.failNext = false →
      Sink.present k frame = (.ok (), { k with frames := frame :: k.frames }) := by
    intro k frame hk
    change k.present frame = _
    rw [RecordingSink.present, hk, if_neg Bool.false_ne_true]
  intro earlier
  induction earlier generalizing k with
  | nil =>
    intro frame
    exact congrArg Prod.fst (hpresent frame hk)
  | cons first earlier ih =>
    have hnext : (Sink.present k first).2.failNext = false := by rw [hpresent first hk]; exact hk
    exact ih hnext

open ByteStore PlainStore

namespace Bridge

variable {σ : Type} [Store σ] [PlainStore σ]

theorem readable_publish {s : σ} (h : Readable s) (writes : List (UInt64 × UInt8)) :
    Readable (publish s writes).2 := by
  have hall := readable_writeAll writes s h
  unfold publish
  split
  · rename_i heq
    rw [heq] at hall
    exact hall
  · rename_i heq
    rw [heq] at hall
    exact hall

/-- A store that can be read can be read after every action. -/
theorem readable_act {x : Bridge × σ} (h : Readable x.2) (a : BridgeAction) :
    Readable (act x a).2 := by
  cases a with
  | event e =>
    change Readable (x.1.apply x.2 e).2.2
    rw [apply_eq]
    exact readable_publish h _
  | releaseAll =>
    change Readable (x.1.releaseAll x.2).2.2
    rcases releaseAll_cases x.1 x.2 with ⟨err, -, heq⟩ | ⟨-, heq⟩
    · rw [heq]
      exact readable_publish h _
    · rw [heq]
      exact readable_publish (readable_publish h _) _
  | poke offset value => exact readable_poke offset value h

theorem readable_run : ∀ (actions : List BridgeAction) {x : Bridge × σ}, Readable x.2 →
    Readable (run x actions).2
  | [], _, h => h
  | a :: actions, _, h => readable_run actions (readable_act h a)

end Bridge

namespace Viewer

/-! ### Sturdy viewers -/

section Sturdy

variable {σ ι κ α : Type} [Store σ] [PlainStore σ] [Sink κ]
variable {decoder : Decoder} {size : ℕ} {v : Viewer σ ι κ}

/-- A viewer with a decoder, before a store of some size that has room for the grid
and the keyboard bytes, with nothing in its way. -/
structure Sturdy (decoder : Decoder) (size : ℕ) (v : Viewer σ ι κ) : Prop where
  ready : Bridge.Ready decoder.layout size (v.bridge, v.store)
  readable : Readable v.store
  decoder_eq : v.display.decoder = decoder
  frame_fits : decoder.Fits v.display.frame
  inCycle : v.schedule.InCycle
  accepting : Sink.Accepting v.sink

/-- Something succeeded and left a sturdy viewer. -/
structure EndsWell (decoder : Decoder) (size : ℕ) (x : Except ViewerError α × Viewer σ ι κ) :
    Prop where
  ok : ∃ a, x.1 = .ok a
  sturdy : Sturdy decoder size x.2

theorem EndsWell.eq_ok {x : Except ViewerError α × Viewer σ ι κ} (h : EndsWell decoder size x) :
    ∃ a, x = (.ok a, x.2) := by
  obtain ⟨a, ha⟩ := h.ok
  exact ⟨a, Prod.ext ha rfl⟩

theorem EndsWell.map {x : Except ViewerError α × Viewer σ ι κ} (h : EndsWell decoder size x) :
    (x.1.map fun _ => ()) = .ok () ∧ Sturdy decoder size x.2 := by
  obtain ⟨a, ha⟩ := h.ok
  exact ⟨by rw [ha]; rfl, h.sturdy⟩

theorem sturdy_new (hv : decoder.layout.Valid) {matrix : Matrix} (hm : matrix.Built)
    (port : Option Port) {cadence : Cadence} (hd : cadence.divisor ≠ 0) {store : σ}
    (hr : Readable store) (hw : Writable store)
    (hlen : decoder.layout.minLen.toNat ≤ (bytes store).size) (input : ι) {sink : κ}
    (hk : Sink.Accepting sink) :
    ∃ v, new store input sink decoder matrix port cadence = .ok v ∧
      Sturdy decoder (bytes store).size v := by
  obtain ⟨schedule, hs⟩ : ∃ schedule, Schedule.new cadence = some schedule := by
    simp [Schedule.new, hd]
  refine ⟨⟨store, input, sink, ⟨decoder.layout, .idle matrix, port.map .idle⟩, .new decoder,
    schedule⟩, by simp [new, hs], ?_⟩
  exact
    { ready := Bridge.ready_idle hv hm port hw hlen
      readable := hr
      decoder_eq := rfl
      frame_fits := decoder.fits_blank
      inCycle := Schedule.inCycle_new hs
      accepting := hk }

theorem Sturdy.gridLen_le (h : Sturdy decoder size v) : decoder.layout.gridLen.toNat ≤ size := by
  have hmin := h.ready.valid.toNat_minLen
  have hcol : decoder.layout.colOffset.toNat = decoder.layout.gridLen.toNat := rfl
  have hfits := h.ready.fits
  omega

theorem Sturdy.of_ready (h : Sturdy decoder size v) {x : Bridge × σ}
    (hx : Bridge.Ready decoder.layout size x) (hr : Readable x.2) :
    Sturdy decoder size { v with bridge := x.1, store := x.2 } :=
  { h with
    ready := hx
    readable := hr }

theorem Sturdy.act (h : Sturdy decoder size v) {a : BridgeAction} (ha : a.InGrid decoder.layout) :
    let x := Bridge.act (v.bridge, v.store) a
    (Bridge.perform (v.bridge, v.store) a).1 = .ok () ∧
      Sturdy decoder size { v with bridge := x.1, store := x.2 } :=
  ⟨(h.ready.act_eq ha).1, h.of_ready (h.ready.act ha) (Bridge.readable_act h.readable a)⟩

theorem Sturdy.applyEvents (h : Sturdy decoder size v) (events : List Event) :
    (v.applyEvents events).1 = .ok () ∧ Sturdy decoder size (v.applyEvents events).2 := by
  have hall := h.ready.applyAll_eq events
  have hready := h.ready.run (events.map .event) fun a ha => by
    obtain ⟨e, -, rfl⟩ := List.mem_map.mp ha
    exact trivial
  unfold Viewer.applyEvents
  rw [hall]
  exact ⟨rfl, h.of_ready hready (Bridge.readable_run _ h.readable)⟩

/-! ### Redraws -/

theorem Sturdy.read_eq (h : Sturdy decoder size v) :
    Store.read v.store 0 decoder.layout.gridLen =
      .ok ((bytes v.store).extract 0 decoder.layout.gridLen.toNat) := by
  rw [PlainStore.read_eq _ _ h.readable]
  refine Store.readBytes_prefix ?_
  rw [h.ready.size_eq]
  exact h.gridLen_le

theorem Sturdy.size_gridBytes (h : Sturdy decoder size v) :
    ((bytes v.store).extract 0 decoder.layout.gridLen.toNat).size =
      decoder.layout.gridLen.toNat := by
  have hsize : (bytes v.store).size = size := h.ready.size_eq
  have hle := h.gridLen_le
  rw [Array.size_extract]
  omega

/-- They are decoded into the frame of the display. -/
theorem Sturdy.display_decode_eq (h : Sturdy decoder size v) :
    ∃ shown, v.display.decode v.store = (.ok (), { v.display with frame := shown }) ∧
      decoder.Fits shown := by
  obtain ⟨shown, -, hinto, hfits⟩ :=
    h.frame_fits.decodeInto_eq h.ready.valid h.size_gridBytes.ge
  refine ⟨shown, ?_, hfits⟩
  have hread := h.read_eq
  obtain rfl := h.decoder_eq
  unfold Display.decode
  rw [hread]
  dsimp only
  rw [hinto]

/-- And the sink takes the frame. -/
theorem Sturdy.display_refresh_eq (h : Sturdy decoder size v) :
    ∃ shown, v.display.refresh v.store v.sink =
        (.ok (), { v.display with frame := shown, presented := v.display.presented + 1 },
          (Sink.present v.sink shown).2) ∧ decoder.Fits shown := by
  obtain ⟨shown, hdecode, hfits⟩ := h.display_decode_eq
  have hpresent : Sink.present v.sink shown = (.ok (), (Sink.present v.sink shown).2) :=
    Prod.ext (h.accepting.present shown).1 rfl
  refine ⟨shown, ?_, hfits⟩
  unfold Display.refresh
  rw [hdecode]
  dsimp only
  rw [hpresent]

theorem Sturdy.showing (h : Sturdy decoder size v) {shown : Frame} (hs : decoder.Fits shown)
    (presented : ℕ) :
    Sturdy decoder size { v with display := { v.display with frame := shown, presented } } :=
  { h with frame_fits := hs }

theorem Sturdy.decode (h : Sturdy decoder size v) :
    (∃ frame, v.decode.1 = .ok frame) ∧ Sturdy decoder size v.decode.2 := by
  obtain ⟨shown, hdecode, hfits⟩ := h.display_decode_eq
  unfold Viewer.decode
  rw [hdecode]
  exact ⟨⟨shown, rfl⟩, h.showing hfits _⟩

theorem Sturdy.refresh (h : Sturdy decoder size v) :
    v.refresh.1 = .ok () ∧ Sturdy decoder size v.refresh.2 := by
  obtain ⟨shown, hrefresh, hfits⟩ := h.display_refresh_eq
  unfold Viewer.refresh
  rw [hrefresh]
  exact ⟨rfl, { h.showing hfits _ with accepting := (h.accepting.present shown).2 }⟩

/-- **A tick succeeds**, whether or not a redraw is due. -/
theorem Sturdy.tick (h : Sturdy decoder size v) : EndsWell decoder size v.tick := by
  obtain ⟨shown, hrefresh, hfits⟩ := h.display_refresh_eq
  rcases tick_cases v with ⟨-, htick⟩ | ⟨-, ⟨e, hfail, -⟩ | ⟨-, htick⟩⟩
  · rw [htick]
    exact ⟨⟨false, rfl⟩, { h with inCycle := h.inCycle.tick }⟩
  · rw [hrefresh] at hfail
    cases hfail
  · rw [hrefresh] at htick
    rw [htick]
    exact ⟨⟨true, rfl⟩, { h.showing hfits _ with
      inCycle := h.inCycle.tick.countFrame
      accepting := (h.accepting.present shown).2 }⟩

/-! ### Nothing is missing -/

/-- Whatever the viewer does next, it reaches only for what is there, and no counter
overflows. -/
structure InBounds (v : Viewer σ ι κ) : Prop where
  /-- The bytes that are published lie in the store. -/
  publish : ∀ a : BridgeAction, a.InGrid v.bridge.layout →
    ∀ w ∈ v.bridge.puts (Store.size v.store) a, w.1.toNat < (bytes v.store).size
  /-- The grid bytes lie in the store, and painting them misses no byte, no color and
  no cell. -/
  paint : ∃ raw frame, Store.read v.store 0 v.display.decoder.layout.gridLen = .ok raw ∧
    raw.size = v.display.decoder.layout.gridLen.toNat ∧
    v.display.decoder.paintStrictly raw v.display.frame = some frame
  /-- A key that goes down finds room in its counters. -/
  press : ∀ key, key ∉ v.bridge.keyboard.held →
    v.bridge.keyboard.counters.NeverWraps (v.bridge.keyboard.matrix.cellsFor key)
  /-- A key that goes up was counted. -/
  release : ∀ key ∈ v.bridge.keyboard.held,
    v.bridge.keyboard.counters.NeverClamps (v.bridge.keyboard.matrix.cellsFor key)
  tick : v.schedule.counter.toNat + 1 < UInt32.size

/-- **A sturdy viewer reaches only for what is there.** -/
theorem Sturdy.inBounds (h : Sturdy decoder size v) : v.InBounds where
  publish a ha w hw := by
    have hsize : (bytes v.store).size = size := h.ready.size_eq
    have hstore : Store.size v.store = size := (ByteStore.size_eq h.ready.writable).trans hsize
    rw [h.ready.layout] at ha
    rw [hstore] at hw
    rw [hsize]
    exact (h.ready.inside ha hw).1
  paint := by
    have hlen := h.size_gridBytes
    have hread := h.read_eq
    have hpaint := h.frame_fits.paintStrictly_eq h.ready.valid hlen.ge
    obtain rfl := h.decoder_eq
    exact ⟨_, _, hread, hlen, hpaint⟩
  press key hkey := h.ready.sound.keyboard.neverWraps hkey
  release key hkey := h.ready.sound.keyboard.neverClamps hkey
  tick := by
    have hlt := h.inCycle.toNat_lt
    have hword := v.schedule.cadence.divisor.toNat_lt
    change _ < 2 ^ 32
    omega

end Sturdy

/-! ### Everything that is called -/

section Calls

variable {σ ι κ : Type} [Store σ] [PlainStore σ] [InputSource ι] [Sink κ]
variable {decoder : Decoder} {size : ℕ} {v : Viewer σ ι κ}

/-- **Servicing succeeds**, whatever the input sends. -/
theorem Sturdy.service (h : Sturdy decoder size v) : EndsWell decoder size v.service := by
  have hpolled : Sturdy decoder size { v with input := (InputSource.poll v.input).2 } := { h with }
  obtain ⟨hok, hsturdy⟩ := hpolled.applyEvents (InputSource.poll v.input).1
  unfold Viewer.service
  dsimp only
  split
  · rename_i e w heq
    rw [heq] at hok
    cases hok
  · rename_i w heq
    rw [heq] at hsturdy
    exact ⟨⟨_, rfl⟩, { hsturdy with inCycle := hsturdy.inCycle.countEvents _ }⟩

theorem Sturdy.step (h : Sturdy decoder size v) : EndsWell decoder size v.step := by
  obtain ⟨n, hservice⟩ := h.service.eq_ok
  obtain ⟨redrawn, htick⟩ := h.service.sturdy.tick.eq_ok
  unfold Viewer.step
  rw [hservice]
  dsimp only
  rw [htick]
  exact ⟨⟨_, rfl⟩, h.service.sturdy.tick.sturdy⟩

/-- So many turns succeed, wherever the run stops within them. -/
theorem Sturdy.runTurns (s : Shutdown) : ∀ (n : ℕ) (r : RunState) {v : Viewer σ ι κ},
    Sturdy decoder size v → EndsWell decoder size (runTurns s n r v)
  | 0, _, _, h => ⟨⟨_, rfl⟩, h⟩
  | n + 1, r, v, h => by
    obtain ⟨events, hservice⟩ := h.service.eq_ok
    obtain ⟨redrawn, htick⟩ := h.service.sturdy.tick.eq_ok
    unfold Viewer.runTurns
    split
    · exact ⟨⟨_, rfl⟩, h⟩
    · rw [hservice]
      dsimp only
      split
      · exact ⟨⟨_, rfl⟩, h.service.sturdy⟩
      · rw [htick]
        exact Sturdy.runTurns s n _ h.service.sturdy.tick.sturdy

/-- **A run succeeds**, however it is stopped. -/
theorem Sturdy.run (h : Sturdy decoder size v) (s : Shutdown) :
    EndsWell decoder size (v.run s) := Sturdy.runTurns s _ _ h

/-- What a viewer is asked to do, and what happens around it. -/
inductive Call (ι : Type)
  | event (e : Event)
  | releaseAll
  | decode
  | refresh
  | service
  | tick
  | step
  | run (s : Shutdown)
  /-- Something happens to the input. -/
  | input (change : ι → ι)
  /-- The machine writes a byte. -/
  | poke (offset : UInt64) (value : UInt8)

/-- The machine writes only into the grid. -/
def Call.InGrid (l : Layout) : Call ι → Prop
  | poke offset _ => offset < l.gridLen
  | _ => True

/-- What a call yields, and the viewer after it. -/
def call (v : Viewer σ ι κ) : Call ι → Except ViewerError Unit × Viewer σ ι κ
  | .event e => ((v.applyEvents [e]).1.mapError .keyboard, (v.applyEvents [e]).2)
  | .releaseAll => (v.releaseAll.1.mapError .keyboard, v.releaseAll.2)
  | .decode => ((v.decode.1.map fun _ => ()).mapError .refresh, v.decode.2)
  | .refresh => (v.refresh.1.mapError .refresh, v.refresh.2)
  | .service => (v.service.1.map fun _ => (), v.service.2)
  | .tick => (v.tick.1.map fun _ => (), v.tick.2)
  | .step => (v.step.1.map fun _ => (), v.step.2)
  | .run s => ((v.run s).1.map fun _ => (), (v.run s).2)
  | .input change => (.ok (), { v with input := change v.input })
  | .poke offset value => (.ok (), { v with store := ByteStore.poke v.store offset value })

/-- The viewer after calls, one after another. -/
def callAll (v : Viewer σ ι κ) (calls : List (Call ι)) : Viewer σ ι κ :=
  calls.foldl (fun v c => (v.call c).2) v

/-- **One call.** It succeeds and leaves the viewer sturdy. -/
theorem Sturdy.call (h : Sturdy decoder size v) {c : Call ι} (hc : c.InGrid decoder.layout) :
    (v.call c).1 = .ok () ∧ Sturdy decoder size (v.call c).2 := by
  cases c with
  | event e =>
    obtain ⟨hok, hsturdy⟩ := h.applyEvents [e]
    exact ⟨by simp [Viewer.call, hok, Except.mapError], hsturdy⟩
  | releaseAll =>
    obtain ⟨hok, hsturdy⟩ := h.act (a := .releaseAll) trivial
    have hrelease : v.releaseAll.1 = .ok () := hok
    exact ⟨by simp [Viewer.call, hrelease, Except.mapError], hsturdy⟩
  | decode =>
    obtain ⟨⟨frame, hok⟩, hsturdy⟩ := h.decode
    exact ⟨by simp [Viewer.call, hok, Except.map, Except.mapError], hsturdy⟩
  | refresh =>
    obtain ⟨hok, hsturdy⟩ := h.refresh
    exact ⟨by simp [Viewer.call, hok, Except.mapError], hsturdy⟩
  | service => exact h.service.map
  | tick => exact h.tick.map
  | step => exact h.step.map
  | run s => exact (h.run s).map
  | input change => exact ⟨rfl, { h with }⟩
  | poke offset value =>
    obtain ⟨-, hsturdy⟩ := h.act (a := .poke offset value) hc
    exact ⟨rfl, hsturdy⟩

/-- **Any calls.** -/
theorem Sturdy.callAll : ∀ (calls : List (Call ι)) {v : Viewer σ ι κ}, Sturdy decoder size v →
    (∀ c ∈ calls, c.InGrid decoder.layout) → Sturdy decoder size (v.callAll calls)
  | [], _, h, _ => h
  | c :: calls, v, h, hcalls => by
    have hfirst := (h.call (hcalls c List.mem_cons_self)).2
    exact Sturdy.callAll calls hfirst fun c' hc' => hcalls c' (List.mem_cons_of_mem _ hc')

/-- **A store that is long enough is enough.** If the store has room for the grid and
the keyboard bytes of a layout, with or without joystick bytes behind them, is read
and written, and the sink takes every frame, then a viewer can be made with any
matrix, any port or none and any divisor but zero. Whatever is called then, and
whatever comes in and is drawn meanwhile, nothing fails, and nothing that the viewer
reaches for is missing. -/
theorem long_enough_store_is_enough (hv : decoder.layout.Valid) {matrix : Matrix}
    (hm : matrix.Built) (port : Option Port) {cadence : Cadence} (hd : cadence.divisor ≠ 0)
    {store : σ} (hr : Readable store) (hw : Writable store)
    (hlen : decoder.layout.minLen.toNat ≤ (bytes store).size) (input : ι) {sink : κ}
    (hk : Sink.Accepting sink) :
    ∃ v, new store input sink decoder matrix port cadence = .ok v ∧
      ∀ calls : List (Call ι), (∀ c ∈ calls, c.InGrid decoder.layout) →
        (v.callAll calls).InBounds ∧
          ∀ c : Call ι, c.InGrid decoder.layout → ((v.callAll calls).call c).1 = .ok () := by
  obtain ⟨v, hnew, hsturdy⟩ := sturdy_new hv hm port hd hr hw hlen input hk
  refine ⟨v, hnew, fun calls hcalls => ?_⟩
  have hafter := hsturdy.callAll calls hcalls
  exact ⟨hafter.inBounds, fun c hc => (hafter.call hc).1⟩

/-- The segment ends with the keyboard bytes. A key of the second joystick goes down,
which has no byte there, the machine draws, and the viewer runs up to its first
frame. -/
theorem segment_without_joystick_bytes_is_enough :
    let t : SegmentTable := ⟨#[⟨5, .replicate 8 0, false⟩]⟩
    t.attach .nothing 5 (Layout.minLen ⟨3, 2⟩) = .ok ⟨0, 5, 8⟩ ∧
    ∃ v : Viewer AttachedStore Channel RecordingSink,
      new ⟨t, ⟨0, 5, 8⟩⟩ Channel.empty .empty ⟨⟨3, 2⟩, .standard⟩ .standard (some .two) ⟨50, 2⟩ =
        .ok v ∧
      let w := v.callAll [.event ⟨.down, .keypad8⟩, .poke 4 6, .run ⟨.inPresentation 0, .raise⟩]
      w.InBounds ∧ (w.call .releaseAll).1 = .ok () := by
  intro t
  have ht : t.Addressable := fun number segment hs => by
    obtain ⟨hlt, rfl⟩ := Array.getElem?_eq_some_iff.mp hs
    have hzero : number = 0 := by simpa [t] using hlt
    subst hzero
    exact (by decide : 8 < UInt64.size)
  have hattach : t.attach .nothing 5 (Layout.minLen ⟨3, 2⟩) = .ok ⟨0, 5, 8⟩ := by
    have hopen : t.Opens ⟨0, 5, 8⟩ :=
      ⟨⟨_, rfl, rfl, rfl⟩, fun _ => by simp [t, SegmentTable.find?, SegmentTable.privateKey]⟩
    exact hopen.attach_eq SegmentRefusals.maps_nothing (by decide) (by decide)
  obtain ⟨hw, hlen⟩ := SegmentTable.writable_of_attach ht hattach
  have hvalid : (⟨⟨3, 2⟩, .standard⟩ : Decoder).layout.Valid := rfl
  have hdivisor : (⟨50, 2⟩ : Cadence).divisor ≠ 0 := by decide
  have hr : Readable (⟨t, ⟨0, 5, 8⟩⟩ : AttachedStore) := trivial
  have hsink : Sink.Accepting RecordingSink.empty := RecordingSink.accepting_of_not_failing rfl
  obtain ⟨v, hnew, hcalls⟩ := long_enough_store_is_enough hvalid .standard (some .two) hdivisor
    hr hw hlen Channel.empty hsink
  have hinside : (4 : UInt64) < Layout.gridLen ⟨3, 2⟩ := by decide
  obtain ⟨hbounds, hok⟩ := hcalls
    [.event ⟨.down, .keypad8⟩, .poke 4 6, .run ⟨.inPresentation 0, .raise⟩] (by
      simp only [List.forall_mem_cons, List.not_mem_nil, false_implies, implies_true, and_true]
      exact ⟨trivial, hinside, trivial⟩)
  exact ⟨hattach, v, hnew, hbounds, hok .releaseAll trivial⟩

end Calls

end Viewer
end ScreenBridge
