/-
# The display and the keys do not interfere

Two runs of healthy viewers do the same operations, but for some of what these
are about. If they differ in events, batches, matrices, ports and in what lies
behind the grid, they present the same frames: each operation keeps that what a
display can see is the same (`Viewer.LooksSame.perform`). If they differ in what
the machine writes into the grid and in what lay there, they hold the same keys
and write the same bytes (`Viewer.ActsSame.perform`). Both go over whole runs by
one induction (`Viewer.performAll_induction`).

Key definitions: `Operation.SameForDisplay`, `Operation.SameForKeys`,
`Viewer.LooksSame`, `Viewer.ActsSame`.
Key theorems: `Viewer.LooksSame.perform`, `Viewer.ActsSame.perform`,
`Viewer.display_and_keys_do_not_interfere`.
-/
import ScreenBridge.Proofs.Blind
import ScreenBridge.Proofs.Healthy

namespace ScreenBridge

/-- The grids of two stores are the same if their bytes are. -/
theorem MemoryStore.grid_congr {s t : MemoryStore} {l : Layout}
    (hs : l.gridLen.toNat ≤ s.bytes.size) (ht : l.gridLen.toNat ≤ t.bytes.size)
    (h : ∀ offset, offset < l.gridLen → ByteStore.byteAt t offset = ByteStore.byteAt s offset) :
    t.grid l = s.grid l := by
  refine Array.ext_getElem? fun i => ?_
  unfold grid
  rw [Array.getElem?_extract, Array.getElem?_extract, Nat.min_eq_left hs, Nat.min_eq_left ht]
  by_cases hi : i < l.gridLen.toNat - 0
  · have hword : (UInt64.ofNat i).toNat = i :=
      UInt64.toNat_ofNat_of_lt (Nat.lt_trans hi l.gridLen.toNat_lt)
    have hbyte := h (UInt64.ofNat i) (UInt64.lt_iff_toNat_lt.mpr (hword.symm ▸ hi))
    change t.bytes[(UInt64.ofNat i).toNat]? = s.bytes[(UInt64.ofNat i).toNat]? at hbyte
    rw [if_pos hi, if_pos hi, Nat.zero_add, ← hword]
    exact hbyte
  · rw [if_neg hi, if_neg hi]

namespace Operation

variable {ι κ : Type} {op op' : Operation ι κ} {l : Layout}

/-- The operations are of one kind and differ at most in events. -/
inductive SameForDisplay : Operation ι κ → Operation ι κ → Prop
  | event (e e' : Event) : SameForDisplay (.event e) (.event e')
  | input (change change' : ι → ι) : SameForDisplay (.input change) (.input change')
  | same (op : Operation ι κ) : SameForDisplay op op

/-- The operations are of one kind and differ at most in what the machine writes. -/
inductive SameForKeys : Operation ι κ → Operation ι κ → Prop
  | poke (place place' : UInt64) (value value' : UInt8) :
    SameForKeys (.poke place value) (.poke place' value')
  | same (op : Operation ι κ) : SameForKeys op op

theorem SameForDisplay.ticks_eq (h : SameForDisplay op op') : op'.ticks = op.ticks := by
  cases h <;> rfl

theorem SameForKeys.ticks_eq (h : SameForKeys op op') : op'.ticks = op.ticks := by
  cases h <;> rfl

theorem SameForDisplay.latestPoke_eq (h : SameForDisplay op op') (offset : UInt64) (before : Option UInt8) :
    latestPoke offset before [op'] = latestPoke offset before [op] := by
  cases h <;> rfl

end Operation

namespace Viewer

open ByteStore
open Operation (SameForDisplay SameForKeys latestPoke)

variable {ι : Type} {decoder : Decoder} {l : Layout}
variable {v w v' w' : Viewer MemoryStore ι RecordingSink} {op op' : Operation ι RecordingSink}

/-- A byte of the grid does not belong to the bridge. -/
theorem Healthy.not_owns (h : Healthy decoder v) {offset : UInt64}
    (ho : offset < decoder.layout.gridLen) : ¬ v.bridge.Owns offset := by
  rw [UInt64.lt_iff_toNat_lt] at ho
  have hrow := h.valid.toNat_rowOffset
  have hcol : decoder.layout.colOffset.toNat = decoder.layout.gridLen.toNat := rfl
  unfold Bridge.Owns
  rw [h.layout_eq]
  rintro (rfl | rfl | ⟨p, -, hp⟩)
  · omega
  · omega
  · rw [Layout.joystickOffset_number] at hp
    obtain rfl := Option.some.inj hp
    have hport := h.valid.portOffset_bounds p
    omega

theorem redraws_eq (hp : Schedule.SamePace v.schedule w.schedule)
    (op : Operation ι RecordingSink) : w.redraws op = v.redraws op := by
  unfold redraws
  rw [hp.tick.1]

theorem Effect.samePace (h : Effect decoder v op v') (h' : Effect decoder w op' w')
    (ht : op'.ticks = op.ticks) (hp : Schedule.SamePace v.schedule w.schedule) :
    Schedule.SamePace v'.schedule w'.schedule where
  counter_eq := by
    rw [h.counter_eq, h'.counter_eq, ht, hp.counter_eq, hp.tick.2.counter_eq]
  divisor_eq := by rw [h.cadence_eq, h'.cadence_eq, hp.divisor_eq]

/-! ### What two viewers share -/

/-- Two viewers presented the same frames so far, show the same grid, and will redraw
at the same ticks. -/
structure LooksSame (l : Layout) (v w : Viewer MemoryStore ι RecordingSink) : Prop where
  pace : Schedule.SamePace v.schedule w.schedule
  frames_eq : w.sink.frames = v.sink.frames
  grid_eq : ∀ offset, offset < l.gridLen → byteAt w.store offset = byteAt v.store offset

/-- Two viewers with the same keys, the same events to come, the same bytes behind
the grid and the same writes and totals so far. -/
structure KeysSame (l : Layout) (v w : Viewer MemoryStore ι RecordingSink) : Prop where
  bridge_eq : w.bridge = v.bridge
  input_eq : w.input = v.input
  sameOn : MemoryStore.SameOn (l.gridLen ≤ ·) v.store w.store
  totals_eq : w.schedule.totals = v.schedule.totals

/-- Two viewers that do the same and present frames at the same operations. -/
structure ActsSame (l : Layout) (v w : Viewer MemoryStore ι RecordingSink) : Prop where
  keys : KeysSame l v w
  pace : Schedule.SamePace v.schedule w.schedule
  shown_eq : w.sink.frames.length = v.sink.frames.length

theorem KeysSame.tick (h : KeysSame l v w) (hp : Schedule.SamePace v.schedule w.schedule)
    (hv : Healthy decoder v) (hw : Healthy decoder w) : KeysSame l v.tick.2 w.tick.2 := by
  have htotals : w.schedule.tick.2.totals = v.schedule.tick.2.totals := by
    rw [Schedule.totals_tick, Schedule.totals_tick, h.totals_eq]
  obtain ⟨shown, -, -, hcases⟩ := hv.tick_eq
  obtain ⟨shown', -, -, hcases'⟩ := hw.tick_eq
  rw [hp.tick.1] at hcases'
  rcases hcases with ⟨hdue, htick⟩ | ⟨hdue, htick⟩ <;>
    rcases hcases' with ⟨hdue', htick'⟩ | ⟨hdue', htick'⟩ <;> rw [hdue] at hdue'
  · rw [htick, htick']
    exact ⟨h.bridge_eq, h.input_eq, h.sameOn, htotals⟩
  · cases hdue'
  · cases hdue'
  · rw [htick, htick']
    refine ⟨h.bridge_eq, h.input_eq, h.sameOn, ?_⟩
    change (Schedule.countFrame _).totals = (Schedule.countFrame _).totals
    rw [Schedule.countFrame, Schedule.countFrame, htotals]

variable [InputSource ι]

/-- What two healthy viewers share outlives operations of one kind if it outlives each
of them. -/
theorem performAll_induction {Share : Viewer MemoryStore ι RecordingSink →
      Viewer MemoryStore ι RecordingSink → Prop}
    {Same : Operation ι RecordingSink → Operation ι RecordingSink → Prop}
    (hstep : ∀ {v w op op'}, Share v w → Healthy decoder v → Healthy decoder w → Same op op' →
      op.IsHarmless decoder.layout → op'.IsHarmless decoder.layout →
      Share (v.perform op).2 (w.perform op').2)
    {ops ops' : List (Operation ι RecordingSink)} (hsame : List.Forall₂ Same ops ops') :
    ∀ {v w}, Share v w → Healthy decoder v → Healthy decoder w →
    (∀ op ∈ ops, op.IsHarmless decoder.layout) → (∀ op ∈ ops', op.IsHarmless decoder.layout) →
    Share (v.performAll ops) (w.performAll ops') := by
  induction hsame with
  | nil => exact fun h _ _ _ _ => h
  | cons hop _ ih =>
    intro v w h hv hw hops hops'
    obtain ⟨hharmless, hrest⟩ := List.forall_mem_cons.mp hops
    obtain ⟨hharmless', hrest'⟩ := List.forall_mem_cons.mp hops'
    exact ih (hstep h hv hw hop hharmless hharmless') (hv.perform hharmless).2.1
      (hw.perform hharmless').2.1 hrest hrest'

/-! ### What is seen -/

/-- Operations that differ in events alone look the same. -/
theorem LooksSame.perform (h : LooksSame decoder.layout v w) (hv : Healthy decoder v)
    (hw : Healthy decoder w) (hsame : SameForDisplay op op') (hop : op.IsHarmless decoder.layout)
    (hop' : op'.IsHarmless decoder.layout) :
    LooksSame decoder.layout (v.perform op).2 (w.perform op').2 := by
  obtain ⟨-, hv', heffect⟩ := hv.perform hop
  obtain ⟨-, hw', heffect'⟩ := hw.perform hop'
  have hgrid : ∀ offset, offset < decoder.layout.gridLen →
      byteAt (w.perform op').2.store offset = byteAt (v.perform op).2.store offset := fun offset ho => by
    rw [byteAt_perform op (hv.not_owns ho), byteAt_perform op' (hw.not_owns ho), h.grid_eq offset ho]
    exact hsame.latestPoke_eq offset _
  have hredraws : w.redraws op' = v.redraws op := by
    cases hsame with
    | same op => exact redraws_eq h.pace op
    | _ => rfl
  refine ⟨heffect.samePace heffect' hsame.ticks_eq h.pace, ?_, hgrid⟩
  obtain ⟨frame, hdecode, hframes⟩ := heffect.frames
  obtain ⟨frame', hdecode', hframes'⟩ := heffect'.frames
  -- both frames are decoded from the same bytes
  rw [MemoryStore.grid_congr hv'.gridLen_le hw'.gridLen_le hgrid, hdecode] at hdecode'
  obtain rfl := Except.ok.inj hdecode'
  rw [hframes, hframes', hredraws, h.frames_eq]

/-! ### What is done -/

theorem KeysSame.service (h : KeysSame l v w) (hv : Healthy decoder v) (hw : Healthy decoder w) :
    KeysSame l v.service.2 w.service.2 := by
  obtain ⟨-, hbridge, hsame⟩ :=
    Bridge.applyAll_sameOn (InputSource.poll v.input).1 h.sameOn v.bridge
  rw [hv.service_eq, hw.service_eq]
  dsimp only
  rw [h.input_eq, h.bridge_eq]
  exact ⟨hbridge, rfl, hsame, by rw [Schedule.countEvents, Schedule.countEvents, h.totals_eq]⟩

/-- Operations that differ in what the machine writes into the grid do the same. -/
theorem KeysSame.perform (h : KeysSame decoder.layout v w)
    (hp : Schedule.SamePace v.schedule w.schedule) (hv : Healthy decoder v) (hw : Healthy decoder w)
    (hsame : SameForKeys op op') (hop : op.IsHarmless decoder.layout)
    (hop' : op'.IsHarmless decoder.layout) :
    KeysSame decoder.layout (v.perform op).2 (w.perform op').2 := by
  cases hsame with
  | poke place place' value value' =>
    exact ⟨h.bridge_eq, h.input_eq, h.sameOn.poke value value' (UInt64.not_le.mpr hop)
      (UInt64.not_le.mpr hop'), h.totals_eq⟩
  | same op =>
    cases op with
    | event e =>
      obtain ⟨-, hbridge, hsame⟩ := Bridge.apply_sameOn h.sameOn v.bridge e
      rw [perform_event, perform_event, h.bridge_eq]
      exact ⟨hbridge, h.input_eq, hsame, h.totals_eq⟩
    | releaseAll =>
      obtain ⟨-, hbridge, hsame⟩ := Bridge.releaseAll_sameOn h.sameOn v.bridge
      have hboth : KeysSame decoder.layout v.releaseAll.2 w.releaseAll.2 := by
        unfold releaseAll
        rw [h.bridge_eq]
        exact ⟨hbridge, h.input_eq, hsame, h.totals_eq⟩
      exact hboth
    | service => exact h.service hv hw
    | tick => exact h.tick hp hv hw
    | step =>
      have hpace : Schedule.SamePace v.service.2.schedule w.service.2.schedule := by
        rw [hv.service_eq, hw.service_eq]
        exact ⟨hp.counter_eq, hp.divisor_eq⟩
      change KeysSame decoder.layout v.step.2 w.step.2
      rw [hv.step_eq.2, hw.step_eq.2]
      exact (h.service hv hw).tick hpace hv.service hw.service
    | decode => exact ⟨h.bridge_eq, h.input_eq, h.sameOn, h.totals_eq⟩
    | refresh => exact ⟨h.bridge_eq, h.input_eq, h.sameOn, h.totals_eq⟩
    | input change => exact ⟨h.bridge_eq, congrArg change h.input_eq, h.sameOn, h.totals_eq⟩
    | poke offset value =>
      exact ⟨h.bridge_eq, h.input_eq, h.sameOn.poke value value (UInt64.not_le.mpr hop)
        (UInt64.not_le.mpr hop), h.totals_eq⟩
    | sink change => exact hop.elim
    | failReads on => exact hop.elim
    | failWrites on => exact hop.elim

theorem ActsSame.perform (h : ActsSame decoder.layout v w) (hv : Healthy decoder v)
    (hw : Healthy decoder w) (hsame : SameForKeys op op') (hop : op.IsHarmless decoder.layout)
    (hop' : op'.IsHarmless decoder.layout) :
    ActsSame decoder.layout (v.perform op).2 (w.perform op').2 := by
  obtain ⟨-, -, heffect⟩ := hv.perform hop
  obtain ⟨-, -, heffect'⟩ := hw.perform hop'
  have hredraws : w.redraws op' = v.redraws op := by
    cases hsame with
    | same op => exact redraws_eq h.pace op
    | poke => rfl
  refine ⟨h.keys.perform h.pace hv hw hsame hop hop',
    heffect.samePace heffect' hsame.ticks_eq h.pace, ?_⟩
  obtain ⟨frame, -, hframes⟩ := heffect.frames
  obtain ⟨frame', -, hframes'⟩ := heffect'.frames
  rw [hframes, hframes', hredraws]
  split
  · rw [List.length_cons, List.length_cons, h.shown_eq]
  · exact h.shown_eq

/-! ### Two runs -/

/-- **The display and the keys do not interfere.** Take two viewers at their beginning,
with one decoder and one divisor, over stores in memory with room for the
keyboard bytes, and do harmless operations with them. None of these fails, and
each that redraws presents what the grid bytes decode to at that moment, and none
other presents anything. If the grids are the same at first and the operations
differ at most in their events and in what reaches the inputs, the same frames are
presented, whatever the inputs, matrices, ports and other bytes are. If the
inputs, matrices, ports and the bytes behind the grid are the same at first and
the operations differ at most in what the machine writes into the grid, then the
bridges, the inputs, the writes, the totals and the bytes behind the grid are the
same afterwards, whatever the grids were. -/
theorem display_and_keys_do_not_interfere {decoder : Decoder} (hv : decoder.layout.Valid)
    {bytes bytes' : Array UInt8} (hlen : decoder.layout.minLen.toNat ≤ bytes.size)
    (hlen' : decoder.layout.minLen.toNat ≤ bytes'.size) {input input' : ι}
    {matrix matrix' : Matrix} {port port' : Option Port} {cadence cadence' : Cadence}
    (hdivisor : cadence'.divisor = cadence.divisor) {v v' : Viewer MemoryStore ι RecordingSink}
    (hnew : new (.ofBytes bytes) input .empty decoder matrix port cadence = .ok v)
    (hnew' : new (.ofBytes bytes') input' .empty decoder matrix' port' cadence' = .ok v')
    {ops ops' : List (Operation ι RecordingSink)}
    (hops : ∀ op ∈ ops, op.IsHarmless decoder.layout)
    (hops' : ∀ op ∈ ops', op.IsHarmless decoder.layout) :
    let l := decoder.layout
    let y := v.performAll ops
    let y' := v'.performAll ops'
    (∀ before op later, ops = before ++ op :: later →
      let u := v.performAll before
      let w := (u.perform op).2
      (u.perform op).1 = .ok () ∧ ∃ frame, decoder.decode (w.store.grid l) = .ok frame ∧
        w.sink.frames = if u.redraws op then frame :: u.sink.frames else u.sink.frames) ∧
    ((∀ i < l.gridLen.toNat, bytes'[i]? = bytes[i]?) → List.Forall₂ SameForDisplay ops ops' →
      y'.sink.frames = y.sink.frames) ∧
    (bytes'.size = bytes.size → (∀ i, l.gridLen.toNat ≤ i → bytes'[i]? = bytes[i]?) →
      input' = input → matrix' = matrix → port' = port → List.Forall₂ SameForKeys ops ops' →
      y'.bridge = y.bridge ∧ y'.input = y.input ∧ y'.store.log = y.store.log ∧
      y'.schedule.totals = y.schedule.totals ∧
      y'.sink.frames.length = y.sink.frames.length ∧
      ∀ offset, l.gridLen ≤ offset → byteAt y'.store offset = byteAt y.store offset) := by
  intro l y y'
  have h : Healthy decoder v := healthy_new hv hlen hnew
  have h' : Healthy decoder v' := healthy_new hv hlen' hnew'
  refine ⟨?_, fun hgrid hsame => ?_, fun hsize hbytes hinput hmatrix hport hsame => ?_⟩
  · rintro before op later rfl u w
    have hu : Healthy decoder u := h.performAll before fun op' hop' =>
      hops op' (List.mem_append_left _ hop')
    obtain ⟨hok, -, heffect⟩ := hu.perform (hops op (List.mem_append_right _ List.mem_cons_self))
    exact ⟨hok, heffect.frames⟩
  · have hfirst : LooksSame l v v' := by
      rw [eq_of_new hnew, eq_of_new hnew']
      exact ⟨⟨rfl, hdivisor⟩, rfl, fun offset ho => hgrid offset.toNat (UInt64.lt_iff_toNat_lt.mp ho)⟩
    exact (performAll_induction LooksSame.perform hsame hfirst h h' hops hops').frames_eq
  · subst hinput hmatrix hport
    have hfirst : ActsSame l v v' := by
      rw [eq_of_new hnew, eq_of_new hnew']
      have hsame : MemoryStore.SameOn (l.gridLen ≤ ·) (.ofBytes bytes) (.ofBytes bytes') :=
        ⟨hsize, rfl, rfl, rfl, fun offset ho => hbytes offset.toNat (UInt64.le_iff_toNat_le.mp ho)⟩
      exact ⟨⟨rfl, rfl, hsame, rfl⟩, ⟨rfl, hdivisor⟩, rfl⟩
    obtain ⟨hkeys, -, hshown⟩ := performAll_induction ActsSame.perform hsame hfirst h h' hops hops'
    exact ⟨hkeys.bridge_eq, hkeys.input_eq, hkeys.sameOn.log_eq, hkeys.totals_eq, hshown,
      hkeys.sameOn.byteAt_eq⟩

/-- Three viewers that redraw at every tick. The second gets another key than the
first and has a joystick, and the third another pixel. -/
theorem other_key_same_frame_and_other_pixel_same_key :
    let decoder : Decoder := ⟨⟨2, 2⟩, .standard⟩
    let start (bytes : Array UInt8) (port : Option Port) : Viewer MemoryStore Script RecordingSink :=
      ⟨.ofBytes bytes, .empty, .empty, ⟨decoder.layout, .idle .standard, port.map .idle⟩,
        .new decoder, ⟨⟨50, 1⟩, 0, ⟨0, 0, 0⟩⟩⟩
    let ops (key : Key) (value : UInt8) : List (Operation Script RecordingSink) :=
      [.event ⟨.down, key⟩, .poke 3 value, .step]
    let y := (start #[1, 2, 3, 4, 0, 0] none).performAll (ops .space 5)
    let y' := (start #[1, 2, 3, 4, 9, 9, 9] (some .one)).performAll (ops .keypad0 5)
    let y'' := (start #[8, 8, 8, 8, 0, 0] none).performAll (ops .space 6)
    y'.sink.frames = y.sink.frames ∧ y.sink.frames.length = 1 ∧ y'.bridge ≠ y.bridge ∧
      y''.bridge = y.bridge ∧ y''.store.log = y.store.log ∧ y''.sink.frames ≠ y.sink.frames := by
  intro decoder start ops y y' y''
  have hharmless : ∀ key value, ∀ op ∈ ops key value, op.IsHarmless decoder.layout := by
    intro key value
    simp only [ops, List.forall_mem_cons, List.not_mem_nil, false_imp_iff, implies_true, and_true]
    exact ⟨trivial, by change (3 : UInt64) < 4; decide, trivial⟩
  have hv : decoder.layout.Valid := rfl
  have hnew : ∀ bytes port, new (.ofBytes bytes) .empty .empty decoder .standard port ⟨50, 1⟩ =
      .ok (start bytes port) := fun _ _ => rfl
  have hsix : decoder.layout.minLen.toNat ≤ (#[1, 2, 3, 4, 0, 0] : Array UInt8).size := by decide
  have hseven : decoder.layout.minLen.toNat ≤ (#[1, 2, 3, 4, 9, 9, 9] : Array UInt8).size := by decide
  have hother : decoder.layout.minLen.toNat ≤ (#[8, 8, 8, 8, 0, 0] : Array UInt8).size := by decide
  obtain ⟨-, hseen, -⟩ := display_and_keys_do_not_interfere hv hsix hseven rfl
    (hnew _ none) (hnew _ (some .one)) (hharmless .space 5) (hharmless .keypad0 5)
  obtain ⟨-, -, hdone⟩ := display_and_keys_do_not_interfere hv hsix hother rfl
    (hnew _ none) (hnew _ none) (hharmless .space 5) (hharmless .space 6)
  have hgrid : ∀ i < 4, (#[1, 2, 3, 4, 9, 9, 9] : Array UInt8)[i]? =
      (#[1, 2, 3, 4, 0, 0] : Array UInt8)[i]? := by decide
  have hbehind : ∀ i, 4 ≤ i → (#[8, 8, 8, 8, 0, 0] : Array UInt8)[i]? =
      (#[1, 2, 3, 4, 0, 0] : Array UInt8)[i]? := by
    intro i hi
    obtain rfl | rfl | hout : i = 4 ∨ i = 5 ∨ 6 ≤ i := by omega
    · rfl
    · rfl
    · rw [Array.getElem?_eq_none hout, Array.getElem?_eq_none hout]
  have hframes := hseen hgrid (.cons (.event _ _) (.cons (.same _) (.cons (.same _) .nil)))
  obtain ⟨hbridge, -, hlog, -⟩ := hdone rfl hbehind rfl rfl rfl
    (.cons (.same _) (.cons (.poke _ _ _ _) (.cons (.same _) .nil)))
  rw [show (start _ none).performAll (ops .space 5) = y from rfl] at hframes hbridge hlog
  rw [show (start _ (some .one)).performAll (ops .keypad0 5) = y' from rfl] at hframes
  rw [show (start _ none).performAll (ops .space 6) = y'' from rfl] at hbridge hlog
  have hone : y.sink.frames.length = 1 := by decide +kernel
  have hkeys : y'.bridge ≠ y.bridge := by decide +kernel
  have hpixel : y''.sink.frames ≠ y.sink.frames := by decide +kernel
  exact ⟨hframes, hone, hkeys, hbridge, hlog, hpixel⟩

end Viewer
end ScreenBridge
