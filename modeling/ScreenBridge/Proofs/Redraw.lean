/-
# A redraw shows what the store holds now

A display keeps a frame and paints over it again and again, also after reads that
failed. None of this can be seen. After any operations, as long as the grid bytes
can be read, decoding yields the frame that they would be decoded to anew, and else
it fails and changes nothing (`Display.Fits.decode_cases`). The buffer into which
the bytes are read may hold anything, too (`Display.decodeThrough_eq`).

To see what a sink is called with, the sink is given a record of the frames that
were presented to it. A redraw presents the frame that it decoded, once, and the
display counts the frames that were taken: each kind of operation keeps that count
(`Display.Tracked.refresh`, `Viewer.tracked_perform`), and so does any number of
them.

Key definitions: `MemoryStore.Legible`, `Display.decodeThrough`, `Watched`,
`Display.Tracked`.
Key theorems: `Display.Fits.decode_cases`, `Display.decodeThrough_eq`,
`Display.Tracked.refresh`, `Viewer.tracked_performAll`,
`Viewer.redraws_show_the_current_bytes`.
-/
import ScreenBridge.Proofs.Access
import ScreenBridge.Proofs.Frame
import ScreenBridge.Proofs.Operation

namespace ScreenBridge

namespace MemoryStore

/-- The grid bytes can be read. -/
def Legible (s : MemoryStore) (l : Layout) : Prop :=
  s.failReads = false ∧ l.gridLen.toNat ≤ s.bytes.size

/-- The grid bytes are read, or reading them fails. -/
theorem read_grid_cases (s : MemoryStore) (l : Layout) :
    (s.Legible l ∧ s.read 0 l.gridLen = .ok (s.grid l)) ∨
      (¬ s.Legible l ∧ ∃ e, s.read 0 l.gridLen = .error e) := by
  by_cases h : s.Legible l
  · exact Or.inl ⟨h, read_grid h.1 h.2⟩
  · refine Or.inr ⟨h, ?_⟩
    by_cases hf : s.failReads = true
    · exact ⟨_, if_pos hf⟩
    · have hshort : ¬ l.gridLen.toNat ≤ s.bytes.size := fun hlen => h ⟨by simpa using hf, hlen⟩
      have hsum : Word.add? 0 l.gridLen = some l.gridLen :=
        Word.add?_eq_some_iff.mpr (Nat.zero_add _)
      rw [read, if_neg hf, Store.readBytes, Store.checkRange, hsum, Option.filter_some,
        if_neg (by simpa using hshort)]
      exact ⟨_, rfl⟩

end MemoryStore

/-- A sink with a record of the frames that were presented to it, the oldest first, and
of what it answered. -/
structure Watched (κ : Type) where
  sink : κ
  offers : List (Frame × Except RenderError Unit)

instance {κ : Type} [Sink κ] : Sink (Watched κ) where
  present k frame :=
    let (answer, sink) := Sink.present k.sink frame
    (answer, ⟨sink, k.offers ++ [(frame, answer)]⟩)

namespace Watched

/-- The number of frames that were taken. -/
def taken {κ : Type} (k : Watched κ) : ℕ := k.offers.countP fun offer => offer.2.isOk

end Watched

namespace Display

variable {d : Display} {s : MemoryStore}

/-- Decoding by way of a buffer that is kept, and that may hold anything: the grid
bytes are read into it, and what it holds then is decoded into the frame. -/
def decodeThrough (d : Display) (buffer : Vector UInt8 d.decoder.layout.gridLen.toNat)
    (s : MemoryStore) : Except RefreshError Unit × Display :=
  let answer := ((Access.read 0 d.decoder.layout.gridLen buffer).perform s).1
  match answer.result with
  | .error e => (.error (.store e), d)
  | .ok () =>
    match d.decoder.decodeInto answer.buffer d.frame with
    | (.ok (), frame) => (.ok (), { d with frame := frame })
    | (.error e, frame) => (.error (.decode e), { d with frame := frame })

/-- Nothing is left of what the buffer held. -/
theorem decodeThrough_eq (d : Display) (buffer : Vector UInt8 d.decoder.layout.gridLen.toNat)
    (s : MemoryStore) : d.decodeThrough buffer s = d.decode s := by
  unfold decodeThrough decode
  dsimp only [Access.perform]
  rcases Store.read s 0 d.decoder.layout.gridLen with e | raw <;> rfl

/-- **What is decoded.** If the grid bytes can be read, the display shows what they are
decoded to anew. If not, it stays as it was. -/
theorem Fits.decode_cases (hd : d.Fits) (hv : d.decoder.layout.Valid) (s : MemoryStore) :
    (s.Legible d.decoder.layout ∧ ∃ shown,
      d.decoder.decode (s.grid d.decoder.layout) = .ok shown ∧ d.decoder.Fits shown ∧
        d.decode s = (.ok (), { d with frame := shown })) ∨
    (¬ s.Legible d.decoder.layout ∧ ∃ e, d.decode s = (.error (.store e), d)) := by
  rcases s.read_grid_cases d.decoder.layout with ⟨hlegible, -⟩ | ⟨hno, e, hread⟩
  · obtain ⟨shown, hanew, hdecode, hfits⟩ := hd.decode_eq hv hlegible.1 hlegible.2
    exact Or.inl ⟨hlegible, shown, hanew, hfits, hdecode⟩
  · refine Or.inr ⟨hno, e, ?_⟩
    unfold decode
    rw [show Store.read s 0 d.decoder.layout.gridLen = .error e from hread]

section

variable {κ : Type} [Sink κ]

theorem refresh_of_decode_error {e : RefreshError} (h : d.decode s = (.error e, d)) (k : κ) :
    d.refresh s k = (.error e, d, k) := by
  unfold refresh
  rw [h]

/-- What was decoded is presented, and counted if it was taken. -/
theorem refresh_of_decode_ok {shown : Frame} (h : d.decode s = (.ok (), { d with frame := shown }))
    (k : κ) :
    d.refresh s k =
      ((Sink.present k shown).1.mapError .render,
        { d with
          frame := shown
          presented := d.presented + (Sink.present k shown).1.isOk.toNat },
        (Sink.present k shown).2) := by
  unfold refresh
  rw [h]
  dsimp only
  rcases Sink.present k shown with ⟨e | ok, k'⟩ <;> rfl

end

/-! ### The count of frames -/

section

variable {κ : Type} {k : Watched κ} {decoder : Decoder}

/-- The display decodes for a layout into a frame of its size, and has counted the
frames that the sink took. -/
structure Tracked (decoder : Decoder) (d : Display) (k : Watched κ) : Prop where
  decoder_eq : d.decoder = decoder
  frame_fits : decoder.Fits d.frame
  presented_eq : d.presented = k.taken

theorem tracked_new (decoder : Decoder) (hk : k.offers = []) : Tracked decoder (new decoder) k where
  decoder_eq := rfl
  frame_fits := decoder.fits_blank
  presented_eq := by rw [Watched.taken, hk]; rfl

theorem Tracked.fits (h : Tracked decoder d k) : d.Fits := by
  unfold Fits
  rw [h.decoder_eq]
  exact h.frame_fits

theorem Tracked.of_offers_eq (h : Tracked decoder d k) {k' : Watched κ}
    (hk : k'.offers = k.offers) : Tracked decoder d k' :=
  { h with presented_eq := by rw [h.presented_eq, Watched.taken, Watched.taken, hk] }

variable (hv : decoder.layout.Valid)
include hv

theorem Tracked.decode (h : Tracked decoder d k) (s : MemoryStore) :
    Tracked decoder (d.decode s).2 k := by
  obtain rfl := h.decoder_eq
  rcases h.fits.decode_cases hv s with ⟨-, shown, -, hfits, hdecode⟩ | ⟨-, e, hdecode⟩
  · rw [hdecode]
    exact { h with frame_fits := hfits }
  · rw [hdecode]
    exact h

/-- A redraw counts a frame exactly if the sink took one more. -/
theorem Tracked.refresh [Sink κ] (h : Tracked decoder d k) (s : MemoryStore) :
    Tracked decoder (d.refresh s k).2.1 (d.refresh s k).2.2 := by
  obtain rfl := h.decoder_eq
  rcases h.fits.decode_cases hv s with ⟨-, shown, -, hfits, hdecode⟩ | ⟨-, e, hdecode⟩
  · rw [refresh_of_decode_ok hdecode]
    refine ⟨rfl, hfits, ?_⟩
    change d.presented + (Sink.present k.sink shown).1.isOk.toNat =
      (k.offers ++ [(shown, (Sink.present k.sink shown).1)]).countP fun offer => offer.2.isOk
    rw [h.presented_eq, List.countP_append, List.countP_singleton]
    cases (Sink.present k.sink shown).1.isOk <;> rfl
  · rw [refresh_of_decode_error hdecode]
    exact h

end

end Display

/-- What happens to the sink leaves its record alone. -/
def Operation.KeepsOffers {ι κ : Type} : Operation ι (Watched κ) → Prop
  | sink change => ∀ k, (change k).offers = k.offers
  | _ => True

namespace Viewer

open Display (Tracked)

variable {ι κ : Type} {decoder : Decoder} {v : Viewer MemoryStore ι (Watched κ)}

theorem display_sink_service [InputSource ι] (v : Viewer MemoryStore ι κ) :
    v.service.2.display = v.display ∧ v.service.2.sink = v.sink := by
  rcases service_cases v with ⟨e, -, h⟩ | ⟨-, h⟩ <;> rw [h] <;> exact ⟨rfl, rfl⟩

variable [Sink κ]

section

variable (hv : decoder.layout.Valid)
include hv

theorem tracked_tick (h : Tracked decoder v.display v.sink) :
    Tracked decoder v.tick.2.display v.tick.2.sink := by
  rcases tick_cases v with ⟨-, htick⟩ | ⟨-, ⟨e, -, htick⟩ | ⟨-, htick⟩⟩
  · rw [htick]
    exact h
  · rw [htick]
    exact h.refresh hv v.store
  · rw [htick]
    exact h.refresh hv v.store

/-- A redraw presents what is decoded, or fails as decoding does. -/
theorem redraw_cases (h : Tracked decoder v.display v.sink) :
    (v.store.Legible decoder.layout ∧ ∃ shown,
      decoder.decode (v.store.grid decoder.layout) = .ok shown ∧ v.decode.1 = .ok shown ∧
        v.refresh.1 = (Sink.present v.sink.sink shown).1.mapError .render ∧
        v.refresh.2.sink = (Sink.present v.sink shown).2) ∨
    (¬ v.store.Legible decoder.layout ∧ ∃ e, v.decode.1 = .error (.store e) ∧
      v.refresh.1 = .error (.store e) ∧ v.refresh.2.sink = v.sink) := by
  obtain rfl := h.decoder_eq
  rcases h.fits.decode_cases hv v.store with ⟨hlegible, shown, hanew, -, hdecode⟩ | ⟨hno, e, hdecode⟩
  · have hrefresh := Display.refresh_of_decode_ok hdecode v.sink
    refine Or.inl ⟨hlegible, shown, hanew, ?_, ?_, ?_⟩
    · rw [decode, hdecode]
      rfl
    · rw [refresh, hrefresh]
      rfl
    · rw [refresh, hrefresh]
  · have hrefresh := Display.refresh_of_decode_error hdecode v.sink
    refine Or.inr ⟨hno, e, ?_, ?_, ?_⟩
    · rw [decode, hdecode]
      rfl
    · rw [refresh, hrefresh]
    · rw [refresh, hrefresh]

variable [InputSource ι]

/-- **Whatever is done, the frames are counted.** -/
theorem tracked_perform (h : Tracked decoder v.display v.sink) {op : Operation ι (Watched κ)}
    (hop : op.KeepsOffers) :
    Tracked decoder (v.perform op).2.display (v.perform op).2.sink := by
  have hservice : Tracked decoder v.service.2.display v.service.2.sink := by
    obtain ⟨hd, hk⟩ := display_sink_service v
    rwa [hd, hk]
  cases op with
  | event e =>
    rw [perform_event]
    exact h
  | releaseAll => exact h
  | service => exact hservice
  | tick => exact tracked_tick hv h
  | step =>
    change Tracked decoder v.step.2.display v.step.2.sink
    rcases step_cases v with ⟨e, w, hs, hstep⟩ | ⟨n, u, e, w, hs, ht, hstep⟩ |
      ⟨n, u, redrawn, w, hs, ht, hstep⟩ <;> rw [hstep] <;> rw [hs] at hservice
    · exact hservice
    · have htick := tracked_tick hv hservice
      rwa [ht] at htick
    · have htick := tracked_tick hv hservice
      rwa [ht] at htick
  | decode => exact h.decode hv v.store
  | refresh => exact h.refresh hv v.store
  | input change => exact h
  | sink change => exact h.of_offers_eq (hop v.sink)
  | poke offset value => exact h
  | failReads on => exact h
  | failWrites on => exact h

theorem tracked_performAll : ∀ (ops : List (Operation ι (Watched κ)))
    {v : Viewer MemoryStore ι (Watched κ)}, Tracked decoder v.display v.sink →
    (∀ op ∈ ops, op.KeepsOffers) →
    Tracked decoder (v.performAll ops).display (v.performAll ops).sink
  | [], _, h, _ => h
  | op :: ops, _, h, hops =>
    tracked_performAll ops (tracked_perform hv h (hops op List.mem_cons_self))
      fun op' hop' => hops op' (List.mem_cons_of_mem _ hop')

end

variable [InputSource ι]

/-- **A redraw shows what the store holds now.** Take a viewer with a new display over
a store in memory of any length, and do anything with it: decode, redraw, tick, step,
apply events, let the machine put bytes anywhere, and let reads, writes and the sink
fail at will. Decoding then succeeds exactly if reads do not fail and the store has
all grid bytes, and yields the frame that they are decoded to anew, whatever is left
in the frame of the display and in the buffer that is read into. A redraw presents
that frame once, and yields what the sink answers. If decoding fails the redraw fails
in the same way and does not call the sink. No failure is one of decoding the bytes
that were read. The frames that the display counted are those that the sink took, and
neither decoding nor redrawing changes the store. -/
theorem redraws_show_the_current_bytes (hv : decoder.layout.Valid)
    (hnew : v.display = .new decoder) (hoffers : v.sink.offers = [])
    {ops : List (Operation ι (Watched κ))} (hops : ∀ op ∈ ops, op.KeepsOffers) :
    let l := decoder.layout
    let w := v.performAll ops
    ((∃ frame, w.decode.1 = .ok frame) ↔
      w.store.failReads = false ∧ l.width.toNat * l.height.toNat ≤ w.store.bytes.size) ∧
    (∀ frame, w.decode.1 = .ok frame →
      decoder.decode (w.store.bytes.extract 0 (l.width.toNat * l.height.toNat)) = .ok frame ∧
      ∃ answer, w.refresh.2.sink.offers = w.sink.offers ++ [(frame, answer)] ∧
        answer = (Sink.present w.sink.sink frame).1 ∧ w.refresh.1 = answer.mapError .render) ∧
    (∀ e, w.decode.1 = .error e →
      (∃ cause, e = .store cause) ∧ w.refresh.1 = .error e ∧ w.refresh.2.sink = w.sink) ∧
    (∀ buffer, w.display.decodeThrough buffer w.store = w.display.decode w.store) ∧
    w.display.presented = w.sink.taken ∧
    w.decode.2.store = w.store ∧ w.refresh.2.store = w.store := by
  intro l w
  have htracked : Tracked decoder w.display w.sink :=
    tracked_performAll hv ops (hnew ▸ Display.tracked_new decoder hoffers) hops
  have hgrid : l.gridLen.toNat = l.width.toNat * l.height.toNat := hv.toNat_gridLen
  rw [← hgrid]
  refine ⟨?_, fun frame hok => ?_, fun e hfail => ?_,
    fun buffer => Display.decodeThrough_eq w.display buffer w.store, htracked.presented_eq, rfl, rfl⟩
  · rcases redraw_cases hv htracked with ⟨hlegible, shown, -, hdecode, -⟩ | ⟨hno, e, hdecode, -⟩
    · exact iff_of_true ⟨shown, hdecode⟩ hlegible
    · exact iff_of_false (fun ⟨frame, hok⟩ => by rw [hdecode] at hok; cases hok) hno
  · rcases redraw_cases hv htracked with ⟨-, shown, hanew, hdecode, hrefresh⟩ | ⟨-, e, hdecode, -⟩
    · obtain rfl : shown = frame := Except.ok.inj (hdecode.symm.trans hok)
      obtain ⟨hresult, hsink⟩ := hrefresh
      exact ⟨hanew, _, by rw [hsink]; rfl, rfl, hresult⟩
    · rw [hdecode] at hok
      cases hok
  · rcases redraw_cases hv htracked with ⟨-, shown, -, hdecode, -⟩ | ⟨-, cause, hdecode, hrefresh⟩
    · rw [hdecode] at hfail
      cases hfail
    · obtain rfl : .store cause = e := Except.error.inj (hdecode.symm.trans hfail)
      exact ⟨⟨cause, rfl⟩, hrefresh⟩

/-- A frame is taken, a redraw that cannot read is not presented, and the next frame is
refused. What the machine painted while reads failed is shown after it. -/
theorem unread_and_refused_frames_not_counted :
    let decoder : Decoder := ⟨⟨2, 2⟩, .standard⟩
    let v : Viewer MemoryStore Script (Watched RecordingSink) :=
      ⟨.zeroed 6, .empty, ⟨.empty, []⟩, ⟨⟨2, 2⟩, .idle .standard, none⟩, .new decoder,
        ⟨⟨50, 10⟩, 0, ⟨0, 0, 0⟩⟩⟩
    let ops : List (Operation Script (Watched RecordingSink)) :=
      [.poke 1 0x17, .refresh, .failReads true, .refresh, .poke 0 0xF3, .failReads false,
        .sink fun k => { k with sink := { k.sink with failNext := true } }, .refresh]
    let w := v.performAll ops
    (∃ frame, w.decode.1 = .ok frame ∧
      decoder.decode #[0xF3, 0x17, 0, 0] = .ok frame ∧
      w.refresh.2.sink.offers.length = 3) ∧
    w.display.presented = 1 := by
  intro decoder v ops w
  have hv : decoder.layout.Valid := rfl
  have hops : ∀ op ∈ ops, op.KeepsOffers := by simp [ops, Operation.KeepsOffers]
  have hreads : w.store.failReads = false := by decide +kernel
  have hsize : 4 ≤ w.store.bytes.size := by decide +kernel
  have hbytes : w.store.bytes.extract 0 4 = #[0xF3, 0x17, 0, 0] := by decide +kernel
  have hpresented : w.sink.offers.length = 2 := by decide +kernel
  have htaken : w.sink.taken = 1 := by decide +kernel
  have hshown := redraws_show_the_current_bytes (v := v) hv rfl rfl hops
  have hcells : decoder.layout.width.toNat * decoder.layout.height.toNat = 4 := rfl
  dsimp only at hshown
  rw [show v.performAll ops = w from rfl, hcells, hbytes] at hshown
  -- what was run is known, and must not be run again
  clear_value w
  obtain ⟨hdecodes, hshows, -, -, hcount, -⟩ := hshown
  obtain ⟨frame, hok⟩ := hdecodes.mpr ⟨hreads, hsize⟩
  obtain ⟨hanew, answer, hoffers, -⟩ := hshows frame hok
  refine ⟨⟨frame, hok, hanew, ?_⟩, hcount.trans htaken⟩
  rw [hoffers, List.length_append, hpresented]
  rfl

end Viewer
end ScreenBridge
