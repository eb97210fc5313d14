/-
# No key stays down

Letting all keys go clears the keyboard and publishes that, and then the
joystick. Whatever was held before, and whatever became of earlier attempts, the
bridge holds nothing once this is answered so, its bytes are zero and no other
byte has changed (`Bridge.released_of_ok`). Doing it again changes no byte
(`Bridge.Released.bytes_again`), and a failure is made up for by doing it again
once the store takes every byte. A run keeps what all this needs
(`Viewer.within_run`), so it holds of a viewer that was told to stop, whatever
still waits in its input.

Key definitions: `Bridge.Released`.
Key theorems: `Bridge.released_of_ok`, `Bridge.Released.bytes_again`,
`Viewer.within_run`, `Viewer.no_key_down_after_release`.
-/
import ScreenBridge.Proofs.HonestStore
import ScreenBridge.Proofs.Phases

namespace ScreenBridge

open ByteStore HonestStore

namespace Bridge

variable {σ : Type} [Store σ] [HonestStore σ] {s : σ} {b : Bridge} {x y z : Bridge × σ}

/-- Between two moments all keys of a bridge were let go, which its bytes show, and no
other byte has changed. -/
structure Released (x y : Bridge × σ) : Prop where
  keyboard_held : y.1.keyboard.held = []
  joystick_held : y.1.joystickHeld = []
  counters : y.1.keyboard.counters = .zero
  col : byteAt y.2 x.1.layout.colOffset = some 0
  row : byteAt y.2 x.1.layout.rowOffset = some 0
  port : ∀ p offset, x.1.joystick.map (·.port) = some p →
    x.1.layout.joystickOffset p.number = some offset → offset.toNat < (bytes x.2).size →
    byteAt y.2 offset = some 0
  others : Within x y

/-- What is published when all keys are let go are zeros. -/
theorem snd_of_mem_writes_released {size : ℕ} {part : Part} {w : UInt64 × UInt8}
    (hw : w ∈ (b.after .releaseAll).writes size part) : w.2 = 0 := by
  cases part with
  | keyboard =>
    have hzero : (b.after .releaseAll).keyboard.status = ⟨0, 0⟩ :=
      (by decide : HoldCounters.zero.status = ⟨0, 0⟩)
    rw [writes, hzero] at hw
    rcases List.mem_cons.mp hw with rfl | hw
    · rfl
    · exact congrArg Prod.snd (List.mem_singleton.mp hw)
  | joystick =>
    obtain ⟨j, hj, -, hstate, -⟩ := fst_of_mem_writes_joystick hw
    obtain ⟨j', -, rfl⟩ := Option.map_eq_some_iff.mp hj
    exact hstate

/-- The byte of a port inside the store is published when all keys are let go. -/
theorem mem_writes_released {p : Port} {offset : UInt64} {size : ℕ}
    (hp : b.joystick.map (·.port) = some p) (ho : b.layout.joystickOffset p.number = some offset)
    (hlt : offset.toNat < size) :
    ∃ value, (offset, value) ∈ (b.after .releaseAll).writes size .joystick := by
  obtain ⟨j, hj, rfl⟩ := Option.map_eq_some_iff.mp hp
  rw [Layout.joystickOffset_number] at ho
  obtain rfl := Option.some.inj ho
  have hafter : (b.after .releaseAll).joystick = some j.releaseAll :=
    congrArg (Option.map Joystick.releaseAll) hj
  refine ⟨j.releaseAll.state, ?_⟩
  rw [writes, joystickWrites_of_some hafter]
  exact (if_pos hlt) ▸ List.mem_singleton_self _

/-- **All keys are let go if that is the answer**, whatever was held before. -/
theorem released_of_ok (hv : b.layout.Valid) (hi : Intact s)
    (hfits : b.layout.minLen.toNat ≤ (bytes s).size) (hok : (b.releaseAll s).1 = .ok ()) :
    Released (b, s) (b.releaseAll s).2 := by
  have hb : (b.releaseAll s).2.1 = b.after .releaseAll := by
    obtain ⟨-, hb | ⟨⟨e, he⟩, -⟩, -⟩ := releaseAll_outcome hi b
    · exact hb
    · rw [hok] at he
      cases he
  have hshown : ∀ part, ∀ w ∈ (b.after .releaseAll).writes (bytes s).size part,
      byteAt (b.releaseAll s).2.2 w.1 = some 0 := by
    intro part w hw
    have hp : b.Publishes part .releaseAll := by cases part <;> trivial
    have hshows := shows_of_publishes hv hi hfits hp hok
    change Shows part (b.releaseAll s).2 at hshows
    rw [Shows, hb, (within_releaseAll hi b).size_eq] at hshows
    have hbyte := hshows w hw
    rwa [snd_of_mem_writes_released hw] at hbyte
  refine ⟨?_, ?_, ?_, ?_, ?_, fun p offset hp ho hlt => ?_, within_releaseAll hi b⟩
  · rw [hb]
    exact held_after_releaseAll b .keyboard
  · rw [hb]
    exact held_after_releaseAll b .joystick
  · rw [hb]
    rfl
  · exact hshown .keyboard _ List.mem_cons_self
  · exact hshown .keyboard _ (List.mem_cons_of_mem _ List.mem_cons_self)
  · obtain ⟨value, hw⟩ := mem_writes_released hp ho hlt
    exact hshown .joystick _ hw

theorem Within.released (h : Within x y) (h' : Released y z) : Released x z where
  keyboard_held := h'.keyboard_held
  joystick_held := h'.joystick_held
  counters := h'.counters
  col := h.layout_eq ▸ h'.col
  row := h.layout_eq ▸ h'.row
  port p offset hp ho hlt :=
    h'.port p offset (h.port_eq.trans hp) (h.layout_eq ▸ ho) (by rwa [h.size_eq])
  others := h.trans h'.others

/-- Letting all keys go once more changes no byte, whatever the answer. -/
theorem Released.bytes_again (h : Released x y) :
    bytes (y.1.releaseAll y.2).2.2 = bytes y.2 := by
  obtain ⟨-, -, hout⟩ := releaseAll_outcome h.others.intact y.1
  have hlayout : (y.1.after .releaseAll).layout = x.1.layout := h.others.layout_eq
  refine hout.eq_of_shown fun w hw => ?_
  rcases List.mem_append.mp hw with hw | hw
  · rw [snd_of_mem_writes_released hw]
    rcases fst_of_mem_writes_keyboard hw with ho | ho <;> rw [ho, hlayout]
    · exact h.col
    · exact h.row
  · rw [snd_of_mem_writes_released hw]
    obtain ⟨j, hj, ho, -, hlt⟩ := fst_of_mem_writes_joystick hw
    have hport : x.1.joystick.map (·.port) = some j.port := by
      rw [← h.others.port_eq, ← port_after y.1 .releaseAll, hj]
      rfl
    rw [h.others.size_eq] at hlt
    refine h.port j.port w.1 hport ?_ hlt
    rw [Layout.joystickOffset_number, ho, hlayout]

end Bridge

namespace Viewer

variable {σ ι κ : Type} [Store σ] [HonestStore σ] [InputSource ι] [Sink κ]

/-- A run changes no bytes but the bridge's own, however it ends. -/
theorem within_run {v : Viewer σ ι κ} (hi : Intact v.store) (s : Shutdown) :
    Bridge.Within (v.bridge, v.store) ((v.run s).2.bridge, (v.run s).2.store) := by
  rw [run_eq_undergoAll]
  refine undergoAll_induction
    (P := fun _ w => Bridge.Within (v.bridge, v.store) (w.bridge, w.store))
    (fun t w p hw => ?_) _ [] v (Bridge.Within.refl hi)
  cases p with
  | service =>
    obtain ⟨hb, hs, -⟩ := bridge_store_input_service w
    refine hw.trans ?_
    rw [show (w.undergo .service).bridge = _ from hb, show (w.undergo .service).store = _ from hs]
    exact Bridge.within_applyAll _ w.bridge hw.intact
  | tick =>
    obtain ⟨hb, hs, -⟩ := bridge_store_input_tick w
    rw [show (w.undergo .tick).bridge = _ from hb, show (w.undergo .tick).store = _ from hs]
    exact hw

/-- **No key stays down.** Take a viewer over an honest store with room for the keyboard
bytes, whatever its bridge holds and whatever failed before. If letting all keys
go is answered so, no key is held, all counters are zero, and so are the two
keyboard bytes and the byte of the joystick's port if the store has it; no other
byte has changed, and doing it again changes none, whatever the answer. If it
fails, doing it again once the store takes every byte succeeds and ends in the
same way. After a run that was told to stop, letting all keys go ends in that way
too if it succeeds, and it does succeed if the store takes every byte; what waits
in the input goes on to wait. -/
theorem no_key_down_after_release (v : Viewer σ ι κ) (hv : v.bridge.layout.Valid)
    (hi : Intact v.store) (hfits : v.bridge.layout.minLen.toNat ≤ (bytes v.store).size) :
    let x := (v.bridge, v.store)
    (∀ w, v.releaseAll = (.ok (), w) → Bridge.Released x (w.bridge, w.store) ∧
      bytes w.releaseAll.2.store = bytes w.store) ∧
    (∀ e w, v.releaseAll = (.error e, w) → ∀ t, Writable t → bytes t = bytes w.store →
      ∃ z, { w with store := t }.releaseAll = (.ok (), z) ∧
        Bridge.Released x (z.bridge, z.store)) ∧
    (∀ s totals w, v.run s = (.ok totals, w) →
      (∀ z, w.releaseAll = (.ok (), z) →
        Bridge.Released x (z.bridge, z.store) ∧ z.input = w.input) ∧
      (Writable w.store → ∃ z, w.releaseAll = (.ok (), z))) := by
  intro x
  -- whatever keeps the layout and the bytes of others can be followed by letting all keys go
  have hnext : ∀ y, Bridge.Within x y → (y.1.releaseAll y.2).1 = .ok () →
      Bridge.Released x (y.1.releaseAll y.2).2 := fun y hy hok =>
    hy.released (Bridge.released_of_ok (hy.layout_eq ▸ hv) hy.intact
      (by rw [hy.layout_eq, hy.size_eq]; exact hfits) hok)
  have hworks : ∀ y, Bridge.Within x y → Writable y.2 → (y.1.releaseAll y.2).1 = .ok () := by
    intro y hy hw
    have hp : y.1.Publishes .keyboard .releaseAll := trivial
    exact Bridge.ok_of_publishes (hy.layout_eq ▸ hv) hw
      (by rw [hy.layout_eq, hy.size_eq]; exact hfits) hp
  refine ⟨fun w hw => ?_, fun e w hw t ht hbytes => ?_,
    fun s totals w hw => ⟨fun z hz => ?_, fun hwritable => ?_⟩⟩
  · obtain ⟨hok, rfl⟩ := Prod.mk.inj hw
    have hreleased := hnext x (Bridge.Within.refl hi) hok
    exact ⟨hreleased, hreleased.bytes_again⟩
  · obtain ⟨-, rfl⟩ := Prod.mk.inj hw
    have hfailed := Bridge.within_releaseAll hi v.bridge
    have hy : Bridge.Within x ((v.bridge.releaseAll v.store).2.1, t) :=
      { layout_eq := hfailed.layout_eq
        port_eq := hfailed.port_eq
        intact := intact_of_writable ht
        size_eq := (congrArg Array.size hbytes).trans hfailed.size_eq
        byteAt_eq := fun offset ho =>
          (congrArg (·[offset.toNat]?) hbytes).trans (hfailed.byteAt_eq offset ho) }
    have hok := hworks _ hy ht
    exact ⟨_, Prod.ext hok rfl, hnext _ hy hok⟩
  · have hrun := within_run hi s
    rw [hw] at hrun
    obtain ⟨hok, rfl⟩ := Prod.mk.inj hz
    exact ⟨hnext _ hrun hok, rfl⟩
  · have hrun := within_run hi s
    rw [hw] at hrun
    exact ⟨_, Prod.ext (hworks _ hrun hwritable) rfl⟩

/-- A viewer is told to stop while a key is down and the joystick fires. Letting go
fails at the row byte, so that the joystick goes on to fire, and is made up for,
while the release of the key still waits. -/
theorem half_finished_release_made_up_for :
    let v : Viewer FlakyStore Script RecordingSink :=
      ⟨⟨.zeroed 7, [false, false, false, false, true]⟩,
        ⟨[[⟨.down, .space⟩, ⟨.down, .keypad0⟩], [⟨.up, .space⟩]], 0⟩, .empty,
        .idle ⟨2, 2⟩ .standard (some .one), .new ⟨⟨2, 2⟩, .standard⟩, ⟨⟨50, 2⟩, 0, ⟨0, 0, 0⟩⟩⟩
    let w := (v.run ⟨.inPoll 0, .raise⟩).2
    w.bridge.layout.Valid ∧ w.bridge.layout.minLen.toNat ≤ (bytes w.store).size ∧
      w.releaseAll.2.bridge.joystickHeld = [.keypad0] ∧
      byteAt w.releaseAll.2.store 5 = some 128 ∧ Writable w.releaseAll.2.store ∧
      w.releaseAll.2.input.batches = [[⟨.up, .space⟩]] ∧
      ∃ z, w.releaseAll.2.releaseAll = (.ok (), z) ∧
        Bridge.Released (w.bridge, w.store) (z.bridge, z.store) := by
  intro v w
  have hagain : ∀ w : Viewer FlakyStore Script RecordingSink, w.bridge.layout.Valid →
      w.bridge.layout.minLen.toNat ≤ (bytes w.store).size → w.releaseAll.1.toOption = none →
      Writable w.releaseAll.2.store → ∃ z, w.releaseAll.2.releaseAll = (.ok (), z) ∧
        Bridge.Released (w.bridge, w.store) (z.bridge, z.store) := by
    intro w hv hfits hfails hwritable
    obtain ⟨-, hretry, -⟩ := no_key_down_after_release w hv trivial hfits
    rcases hfirst : w.releaseAll with ⟨e | _, u⟩
    · rw [hfirst] at hwritable
      exact hretry e u hfirst u.store hwritable rfl
    · rw [hfirst] at hfails
      cases hfails
  have hlayout : w.bridge.layout = ⟨2, 2⟩ := by decide +kernel
  have hv : w.bridge.layout.Valid := by
    rw [hlayout]
    rfl
  have hfits : w.bridge.layout.minLen.toNat ≤ (bytes w.store).size := by decide +kernel
  have hwritable : Writable w.releaseAll.2.store := by
    change w.releaseAll.2.store.memory.failWrites = false ∧ true ∉ w.releaseAll.2.store.refusals
    decide +kernel
  have hfails : w.releaseAll.1.toOption = none := by decide +kernel
  exact ⟨hv, hfits, by decide +kernel, by decide +kernel, hwritable, by decide +kernel,
    hagain w hv hfits hfails hwritable⟩

end Viewer
end ScreenBridge
