/-
# A viewer that nothing fails for

As long as the store is read and written and the sink takes frames, and the
machine writes only into the grid, nothing that is done with a viewer fails. A
redraw presents what the grid bytes decode to at that moment, nothing else
presents a frame, and only ticks move the schedule (`Viewer.Healthy.perform`).

Key definitions: `Operation.IsHarmless`, `Viewer.Healthy`, `Viewer.redraws`,
`Viewer.Effect`.
Key theorems: `Viewer.Healthy.tick_eq`, `Viewer.Healthy.service_eq`,
`Viewer.Healthy.perform`, `Viewer.Healthy.performAll`.
-/
import ScreenBridge.Proofs.Frame
import ScreenBridge.Proofs.Operation
import ScreenBridge.Proofs.Schedule

namespace ScreenBridge

namespace Operation

variable {ι κ : Type}

/-- Nothing is made to fail, and the machine writes only into the grid. -/
def IsHarmless (l : Layout) : Operation ι κ → Prop
  | poke offset _ => offset < l.gridLen
  | failReads _ => False
  | failWrites _ => False
  | sink _ => False
  | _ => True

/-- Does the operation count a tick? -/
def ticks : Operation ι κ → Bool
  | tick => true
  | step => true
  | _ => false

end Operation

namespace Viewer

variable {ι : Type} {decoder : Decoder} {shown : Frame}
variable {v w : Viewer MemoryStore ι RecordingSink}

/-- A viewer with a decoder, before a store with room for the keyboard bytes, in which
nothing is told to fail. -/
structure Healthy (decoder : Decoder) (v : Viewer MemoryStore ι RecordingSink) : Prop where
  decoder_eq : v.display.decoder = decoder
  layout_eq : v.bridge.layout = decoder.layout
  valid : decoder.layout.Valid
  fits : decoder.layout.minLen.toNat ≤ v.store.bytes.size
  readable : v.store.failReads = false
  writable : v.store.failWrites = false
  accepting : v.sink.failNext = false
  frame_fits : v.display.Fits

theorem healthy_new (hv : decoder.layout.Valid) {bytes : Array UInt8}
    (hlen : decoder.layout.minLen.toNat ≤ bytes.size) {input : ι} {matrix : Matrix}
    {port : Option Port} {cadence : Cadence}
    (h : new (.ofBytes bytes) input .empty decoder matrix port cadence = .ok v) :
    Healthy decoder v := by
  obtain rfl := eq_of_new h
  exact ⟨rfl, rfl, hv, hlen, rfl, rfl, rfl, Display.fits_new decoder⟩

theorem Healthy.gridLen_le (h : Healthy decoder v) :
    decoder.layout.gridLen.toNat ≤ v.store.bytes.size := by
  have hmin := h.valid.toNat_minLen
  have hcol : decoder.layout.colOffset.toNat = decoder.layout.gridLen.toNat := rfl
  have hfits := h.fits
  omega

theorem Healthy.of_confined (h : Healthy decoder v)
    (hc : Bridge.Confined (v.bridge, v.store) (w.bridge, w.store)) (hd : w.display = v.display)
    (hk : w.sink = v.sink) : Healthy decoder w where
  decoder_eq := by rw [hd, h.decoder_eq]
  layout_eq := hc.layout_eq.trans h.layout_eq
  valid := h.valid
  fits := by rw [hc.wrote.size_eq]; exact h.fits
  readable := hc.wrote.failReads_eq.trans h.readable
  writable := hc.wrote.failWrites_eq.trans h.writable
  accepting := by rw [hk, h.accepting]
  frame_fits := by rw [hd]; exact h.frame_fits

/-! ### Redraws -/

/-- The viewer after it presented a frame. -/
def presenting (v : Viewer MemoryStore ι RecordingSink) (shown : Frame) :
    Viewer MemoryStore ι RecordingSink :=
  { v with
    display := { v.display with frame := shown, presented := v.display.presented + 1 }
    sink := { v.sink with frames := shown :: v.sink.frames } }

theorem Healthy.presenting (h : Healthy decoder v) (hs : decoder.Fits shown) :
    Healthy decoder (v.presenting shown) :=
  { h with frame_fits := show v.display.decoder.Fits shown by rw [h.decoder_eq]; exact hs }

theorem Healthy.display_refresh_eq (h : Healthy decoder v) :
    ∃ shown, decoder.decode (v.store.grid decoder.layout) = .ok shown ∧ decoder.Fits shown ∧
      v.display.refresh v.store v.sink =
        (.ok (), (v.presenting shown).display, (v.presenting shown).sink) := by
  obtain rfl := h.decoder_eq
  obtain ⟨shown, hdecode, hrefresh, hfits⟩ :=
    h.frame_fits.refresh_eq h.valid h.readable h.gridLen_le h.accepting
  exact ⟨shown, hdecode, hfits, hrefresh⟩

/-- A tick at which a redraw is due presents the grid bytes, and any other one moves
the schedule alone. -/
theorem Healthy.tick_eq (h : Healthy decoder v) :
    ∃ shown, decoder.decode (v.store.grid decoder.layout) = .ok shown ∧ decoder.Fits shown ∧
      ((v.schedule.tick.1 = false ∧
        v.tick = (.ok false, { v with schedule := v.schedule.tick.2 })) ∨
      (v.schedule.tick.1 = true ∧
        v.tick = (.ok true, { v.presenting shown with schedule := v.schedule.tick.2.countFrame }))) := by
  obtain ⟨shown, hdecode, hfits, hrefresh⟩ := h.display_refresh_eq
  refine ⟨shown, hdecode, hfits, ?_⟩
  rcases tick_cases v with hidle | ⟨hdue, ⟨e, hfail, -⟩ | ⟨-, htick⟩⟩
  · exact Or.inl hidle
  · rw [hrefresh] at hfail
    cases hfail
  · rw [hrefresh] at htick
    exact Or.inr ⟨hdue, htick⟩

/-! ### What an operation shows -/

variable {op : Operation ι RecordingSink}

/-- Does the operation present a frame? -/
def redraws (v : Viewer MemoryStore ι RecordingSink) : Operation ι RecordingSink → Bool
  | .refresh => true
  | op => op.ticks && v.schedule.tick.1

/-- What an operation does to the sink and the schedule. -/
structure Effect (decoder : Decoder) (v : Viewer MemoryStore ι RecordingSink)
    (op : Operation ι RecordingSink) (w : Viewer MemoryStore ι RecordingSink) : Prop where
  frames : ∃ frame, decoder.decode (w.store.grid decoder.layout) = .ok frame ∧
    w.sink.frames = if v.redraws op then frame :: v.sink.frames else v.sink.frames
  counter_eq : w.schedule.counter =
    if op.ticks then v.schedule.tick.2.counter else v.schedule.counter
  cadence_eq : w.schedule.cadence = v.schedule.cadence

theorem Healthy.effect_of_quiet (h : Healthy decoder w) (hop : v.redraws op = false)
    (ht : op.ticks = false) (hk : w.sink = v.sink) (hc : w.schedule.counter = v.schedule.counter)
    (hd : w.schedule.cadence = v.schedule.cadence) : Effect decoder v op w where
  frames := by
    obtain ⟨shown, hdecode, -⟩ := h.display_refresh_eq
    exact ⟨shown, hdecode, by rw [hop, if_neg Bool.false_ne_true, hk]⟩
  counter_eq := by rw [ht, if_neg Bool.false_ne_true, hc]
  cadence_eq := hd

/-- A tick presents if a redraw is due, and moves the schedule. -/
theorem Healthy.tick (h : Healthy decoder v) :
    (∃ redrawn, v.tick.1 = .ok redrawn) ∧ Healthy decoder v.tick.2 ∧
      Effect decoder v .tick v.tick.2 := by
  obtain ⟨shown, hdecode, hfits, ⟨hdue, htick⟩ | ⟨hdue, htick⟩⟩ := h.tick_eq
  · rw [htick]
    refine ⟨⟨false, rfl⟩, { h with }, ⟨⟨shown, hdecode, ?_⟩, rfl, Schedule.cadence_tick _⟩⟩
    rw [if_neg]
    change ¬ (true && v.schedule.tick.1) = true
    rw [hdue]
    exact Bool.false_ne_true
  · rw [htick]
    refine ⟨⟨true, rfl⟩, { h.presenting hfits with },
      ⟨⟨shown, hdecode, ?_⟩, rfl, Schedule.cadence_tick _⟩⟩
    rw [if_pos]
    · rfl
    · change (true && v.schedule.tick.1) = true
      rw [hdue]
      rfl

/-! ### Any operation -/

variable [InputSource ι]

/-- Servicing applies the whole batch and counts it. -/
theorem Healthy.service_eq (h : Healthy decoder v) :
    let batch := (InputSource.poll v.input).1
    let x := v.bridge.applyAll v.store batch
    v.service = (.ok batch.length,
      { v with
        input := (InputSource.poll v.input).2
        bridge := x.2.1
        store := x.2.2
        schedule := v.schedule.countEvents batch.length }) := by
  intro batch x
  have hall := Bridge.applyAll_eq_foldl batch (h.layout_eq ▸ h.valid) (h.layout_eq ▸ h.fits) h.writable
  rcases service_cases v with ⟨e, hfail, -⟩ | ⟨-, hservice⟩
  · rw [hall] at hfail
    cases hfail
  · exact hservice

theorem Healthy.service (h : Healthy decoder v) : Healthy decoder v.service.2 := by
  have hconfined := Bridge.confined_applyAll (InputSource.poll v.input).1 v.bridge v.store
  rw [h.service_eq]
  exact h.of_confined hconfined rfl rfl

/-- A step services and then counts a tick. -/
theorem Healthy.step_eq (h : Healthy decoder v) :
    (∃ report, v.step.1 = .ok report) ∧ v.step.2 = v.service.2.tick.2 := by
  have hservice := h.service_eq
  obtain ⟨⟨redrawn, hok⟩, -, -⟩ := h.service.tick
  rcases step_cases v with ⟨e, u, hs, -⟩ | ⟨n, u, e, u', hs, ht, -⟩ |
    ⟨n, u, redrawn', u', hs, ht, hstep⟩
  · rw [hservice] at hs
    cases hs
  · rw [hs] at hok
    dsimp only at hok
    rw [ht] at hok
    cases hok
  · rw [hstep, hs]
    dsimp only
    rw [ht]
    exact ⟨⟨_, rfl⟩, rfl⟩

/-- The tick of a step does what a tick would have done before the service. -/
theorem Healthy.step (h : Healthy decoder v) :
    Healthy decoder v.step.2 ∧ Effect decoder v .step v.step.2 := by
  have hservice := h.service_eq
  obtain ⟨-, hhealthy, heffect⟩ := h.service.tick
  obtain ⟨hdue, hcounter⟩ :=
    Schedule.tick_countEvents v.schedule (InputSource.poll v.input).1.length
  rw [h.step_eq.2]
  refine ⟨hhealthy, ?_, ?_, ?_⟩
  · obtain ⟨frame, hdecode, hframes⟩ := heffect.frames
    refine ⟨frame, hdecode, hframes.trans ?_⟩
    change (if true && v.service.2.schedule.tick.1 then _ else _) =
      if true && v.schedule.tick.1 then _ else _
    rw [hservice]
    dsimp only
    rw [hdue]
  · refine heffect.counter_eq.trans ?_
    rw [hservice]
    exact hcounter
  · refine heffect.cadence_eq.trans ?_
    rw [hservice]
    rfl

/-- **Nothing fails for a healthy viewer.** A harmless operation succeeds and leaves it
healthy. A redraw presents what the grid bytes decode to at that moment, nothing
else presents a frame, and ticks alone move the schedule. -/
theorem Healthy.perform (h : Healthy decoder v) {op : Operation ι RecordingSink}
    (hop : op.IsHarmless decoder.layout) :
    (v.perform op).1 = .ok () ∧ Healthy decoder (v.perform op).2 ∧
      Effect decoder v op (v.perform op).2 := by
  have hv : v.bridge.layout.Valid := h.layout_eq ▸ h.valid
  have hfits : v.bridge.layout.minLen.toNat ≤ v.store.bytes.size := h.layout_eq ▸ h.fits
  cases op with
  | event e =>
    have hhealthy : Healthy decoder (v.perform (.event e)).2 := by
      rw [perform_event]
      exact h.of_confined (Bridge.confined_apply v.bridge v.store e) rfl rfl
    refine ⟨?_, hhealthy, ?_⟩
    · rw [perform_event]
      exact congrArg (Except.mapError ViewerError.keyboard) (Bridge.log_apply hv hfits h.writable e).1
    · exact hhealthy.effect_of_quiet rfl rfl (by rw [perform_event]) (by rw [perform_event])
        (by rw [perform_event])
  | releaseAll =>
    have hhealthy : Healthy decoder (v.perform .releaseAll).2 :=
      h.of_confined (Bridge.confined_releaseAll v.bridge v.store) rfl rfl
    refine ⟨?_, hhealthy, hhealthy.effect_of_quiet rfl rfl rfl rfl rfl⟩
    exact congrArg (Except.mapError ViewerError.keyboard) (Bridge.log_releaseAll hv hfits h.writable).1
  | service =>
    have hservice := h.service_eq
    have hhealthy : Healthy decoder (v.perform .service).2 := h.service
    have hperform : (v.perform .service).2 = v.service.2 := rfl
    refine ⟨congrArg (fun x => x.1.map fun _ => ()) hservice, hhealthy, ?_⟩
    refine hhealthy.effect_of_quiet rfl rfl ?_ ?_ ?_ <;> rw [hperform, hservice] <;> rfl
  | tick =>
    obtain ⟨⟨redrawn, hok⟩, hhealthy, heffect⟩ := h.tick
    exact ⟨congrArg (Except.map fun _ => ()) hok, hhealthy, heffect⟩
  | step =>
    obtain ⟨report, hok⟩ := h.step_eq.1
    exact ⟨congrArg (Except.map fun _ => ()) hok, h.step⟩
  | decode =>
    obtain rfl := h.decoder_eq
    obtain ⟨shown, -, hdecode, hframe⟩ := h.frame_fits.decode_eq h.valid h.readable h.gridLen_le
    have hperform : v.perform .decode =
        (.ok (), { v with display := { v.display with frame := shown } }) := by
      unfold Viewer.perform Viewer.decode
      rw [hdecode]
      rfl
    have hhealthy : Healthy v.display.decoder (v.perform .decode).2 := by
      rw [hperform]
      exact { h with frame_fits := hframe }
    refine ⟨by rw [hperform], hhealthy, ?_⟩
    exact hhealthy.effect_of_quiet rfl rfl rfl rfl rfl
  | refresh =>
    obtain ⟨shown, hdecode, hframe, hrefresh⟩ := h.display_refresh_eq
    have hperform : v.perform .refresh = (.ok (), v.presenting shown) := by
      unfold Viewer.perform Viewer.refresh
      rw [hrefresh]
      rfl
    rw [hperform]
    exact ⟨rfl, h.presenting hframe, ⟨shown, hdecode, rfl⟩, rfl, rfl⟩
  | input change =>
    have hhealthy : Healthy decoder (v.perform (.input change)).2 := { h with }
    exact ⟨rfl, hhealthy, hhealthy.effect_of_quiet rfl rfl rfl rfl rfl⟩
  | poke offset value =>
    have hhealthy : Healthy decoder (v.perform (.poke offset value)).2 :=
      { h with
        fits := (MemoryStore.size_poke v.store offset value).symm ▸ h.fits
        readable := (congrArg MemoryStore.failReads (MemoryStore.poke_eq v.store offset value)).trans
          h.readable
        writable := (congrArg MemoryStore.failWrites (MemoryStore.poke_eq v.store offset value)).trans
          h.writable }
    exact ⟨rfl, hhealthy, hhealthy.effect_of_quiet rfl rfl rfl rfl rfl⟩
  | sink change => exact hop.elim
  | failReads on => exact hop.elim
  | failWrites on => exact hop.elim

theorem Healthy.performAll : ∀ (ops : List (Operation ι RecordingSink))
    {v : Viewer MemoryStore ι RecordingSink}, Healthy decoder v →
    (∀ op ∈ ops, op.IsHarmless decoder.layout) → Healthy decoder (v.performAll ops)
  | [], _, h, _ => h
  | op :: ops, _, h, hops => by
    have hop := (h.perform (hops op List.mem_cons_self)).2.1
    exact Healthy.performAll ops hop fun op' hop' => hops op' (List.mem_cons_of_mem _ hop')

end Viewer
end ScreenBridge
