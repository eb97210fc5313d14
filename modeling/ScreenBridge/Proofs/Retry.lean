/-
# An event whose bytes were refused

An event is taken into the bridge even if the store refuses its bytes, so the
same event again finds its key where it wants it and does nothing
(`Bridge.Sound.after_again`). What was refused is published by whatever changes
the part next, or by letting all keys go. The shortest way is to move the key
back and to move it again (`Bridge.Sound.publishes_back`,
`Bridge.Sound.applyAll_back_and_again`).

Key definitions: `Event.opposite`, `Bridge.Reachable`.
Key theorems: `Bridge.publishes_event_iff`, `Bridge.Reachable.sound`,
`Bridge.Sound.after_again`, `Bridge.refused_event_published_by_next_change`.
-/
import ScreenBridge.Proofs.HonestStore

namespace ScreenBridge

/-- The other direction. -/
def Motion.opposite : Motion → Motion
  | down => up
  | up => down

/-- The key moves the other way. -/
def Event.opposite (e : Event) : Event := { e with motion := e.motion.opposite }

theorem Event.opposite_opposite (e : Event) : e.opposite.opposite = e := by
  rcases e with ⟨_ | _, key⟩ <;> rfl

namespace Bridge

open ByteStore HonestStore

/-! ### Bridges that can be reached -/

/-- Bridges that can be reached from an idle one by events and by letting all keys go,
over any stores of a kind and whether or not that fails. -/
inductive Reachable (σ : Type) [Store σ] : Bridge → Prop
  | idle {l : Layout} {m : Matrix} (hv : l.Valid) (hm : m.Built) (port : Option Port) :
      Reachable σ (idle l m port)
  | apply {b : Bridge} (s : σ) (e : Event) : Reachable σ b → Reachable σ (b.apply s e).2.1
  | releaseAll {b : Bridge} (s : σ) : Reachable σ b → Reachable σ (b.releaseAll s).2.1

section Reached

variable {σ : Type} [Store σ] {b : Bridge}

theorem bridge_releaseAll (b : Bridge) (s : σ) :
    (b.releaseAll s).2.1 = b.after .releaseAll ∨
      (b.releaseAll s).2.1 = b.afterFailed .releaseAll := by
  rcases releaseAll_cases b s with ⟨err, -, h⟩ | ⟨-, h⟩ <;> rw [h]
  · exact Or.inr rfl
  · exact Or.inl rfl

theorem Reachable.sound (h : Reachable σ b) : b.Sound := by
  induction h with
  | idle hv hm port => exact sound_idle _ hm port
  | apply s e _ ih =>
    rw [apply_eq]
    exact ih.after (.event e)
  | @releaseAll b s _ ih =>
    rcases bridge_releaseAll b s with hb | hb <;> rw [hb]
    · exact ih.after .releaseAll
    · exact ih.afterFailed .releaseAll

theorem Reachable.valid (h : Reachable σ b) : b.layout.Valid := by
  induction h with
  | idle hv hm port => exact hv
  | apply s e _ ih =>
    rw [apply_eq]
    exact layout_after _ (.event e) ▸ ih
  | @releaseAll b s _ ih =>
    rcases bridge_releaseAll b s with hb | hb <;> rw [hb]
    · exact ih
    · exact ih

end Reached

/-! ### Events that publish -/

variable {b : Bridge} {e : Event} {part : Part}

/-- An event publishes a part that has its key and does not have it there already. -/
theorem publishes_event_iff (b : Bridge) (e : Event) (part : Part) :
    b.Publishes part (.event e) ↔
      b.Has e.key part ∧ (e.key ∈ b.held part ↔ e.motion = .up) := by
  cases part with
  | keyboard =>
    change (b.takes e.key = false ∧ _) ↔ (b.takes e.key = false ∧ _) ∧ _
    rw [and_assoc]
    refine and_congr_right fun _ => ?_
    change _ ↔ _ ∧ (e.key ∈ b.keyboard.held ↔ _)
    rcases Keyboard.apply_cases b.keyboard e with ⟨hc, h⟩ | ⟨hc, hm, hk, h⟩ | ⟨hc, hm, hk, h⟩ |
      ⟨hc, hm, hk, h⟩ | ⟨hc, hm, hk, h⟩
    · simp [h, hc]
    · simp [h, hm, hk]
    · simp [h, hm, hk]
    · simp [h, hc, hm, hk]
    · simp [h, hc, hm, hk]
  | joystick =>
    change b.AppliesToJoystick e ↔ b.takes e.key = true ∧ (e.key ∈ b.joystickHeld ↔ _)
    cases hj : b.joystick with
    | none => simp [AppliesToJoystick, not_takes_of_none hj, hj]
    | some j =>
      rw [appliesToJoystick_iff hj, takes_of_some hj, joystickHeld, hj]
      dsimp only
      rcases Joystick.apply_cases j e with ⟨hk, h⟩ | ⟨hk, hm, h⟩ | ⟨hk, hm, hn, h⟩ | ⟨hk, hm, hn, h⟩
      · simp [h, hk]
      · cases hd : e.motion <;> simp [h, hk, hm, hd]
      · simp [h, hk, hm, hn]
      · simp [h, hk, hm, hn]

theorem Sound.key_mem_held_after (h : b.Sound) (e : Event) (hb : b.Has e.key part) :
    e.key ∈ (b.after (.event e)).held part ↔ e.motion = .down := by
  rw [h.mem_held_after e e.key part, if_pos ⟨rfl, hb⟩]

theorem Sound.not_publishes_again (h : b.Sound) (e : Event) (part : Part) :
    ¬ (b.after (.event e)).Publishes part (.event e) := by
  rw [publishes_event_iff, has_after]
  rintro ⟨hb, hk⟩
  rw [h.key_mem_held_after e hb] at hk
  cases hm : e.motion <;> simp [hm] at hk

theorem eq_of_agree {b b' : Bridge} (hl : b.layout = b'.layout) (h : ∀ part, b.Agree b' part) :
    b = b' := by
  have hkeyboard : b.keyboard = b'.keyboard := h .keyboard
  have hjoystick : b.joystick = b'.joystick := h .joystick
  rcases b with ⟨l, k, j⟩
  rcases b' with ⟨l', k', j'⟩
  obtain rfl : l = l' := hl
  obtain rfl : k = k' := hkeyboard
  obtain rfl : j = j' := hjoystick
  rfl

theorem Sound.after_again (h : b.Sound) (e : Event) :
    (b.after (.event e)).after (.event e) = b.after (.event e) :=
  eq_of_agree (layout_after _ (.event e)) fun part => agree_after (h.not_publishes_again e part)

/-- **The same event again is answered and does nothing**, whatever the store. -/
theorem Sound.apply_again {σ : Type} [Store σ] (h : b.Sound) (e : Event) (s : σ) :
    (b.after (.event e)).apply s e = (.ok (), b.after (.event e), s) := by
  have hnone : ((b.after (.event e)).route e (Store.size s)).1 = [] :=
    fst_route_of_neither _ (h.not_publishes_again e .keyboard) (h.not_publishes_again e .joystick)
  rw [apply_eq, h.after_again, hnone]
  rfl

theorem Sound.apply_apply {σ : Type} [Store σ] (h : b.Sound) (e : Event) (s t : σ) :
    (b.apply s e).2.1.apply t e = (.ok (), (b.apply s e).2.1, t) := by
  rw [apply_eq b s e]
  exact h.apply_again e t

theorem Sound.publishes_back (h : b.Sound) (hp : b.Publishes part (.event e)) :
    (b.after (.event e)).Publishes part (.event e.opposite) := by
  have hb := ((publishes_event_iff b e part).mp hp).1
  refine (publishes_event_iff _ e.opposite part).mpr ⟨(has_after b _ e.key part).mpr hb, ?_⟩
  refine (h.key_mem_held_after e hb).trans ?_
  cases hm : e.motion <;> simp [Event.opposite, Motion.opposite, hm]

theorem Sound.mem_held_back_and_again (h : b.Sound) (e : Event) (part : Part) (key : Key) :
    key ∈ (((b.after (.event e)).after (.event e.opposite)).after (.event e)).held part ↔
      key ∈ (b.after (.event e)).held part := by
  have hback := h.after (.event e)
  rw [(hback.after (.event e.opposite)).mem_held_after, hback.mem_held_after, h.mem_held_after]
  simp only [has_after]
  by_cases hkey : key = e.key ∧ b.Has key part
  · rw [if_pos hkey, if_pos hkey]
  · have hne : ¬ (key = e.opposite.key ∧ b.Has key part) := hkey
    rw [if_neg hkey, if_neg hne, if_neg hkey]

/-! ### What becomes of a refused event -/

variable {σ : Type} [Store σ]

theorem exists_publishes_of_error {s : σ} {err : BridgeError} (h : (b.apply s e).1 = .error err) :
    ∃ part, b.Publishes part (.event e) := by
  rcases fst_route_cases b e (Store.size s) with hnone | hpart
  · rw [apply_eq, hnone] at h
    cases h
  · exact hpart

variable [HonestStore σ]

/-- Moving a key back and moving it again publishes what moving it was to publish. -/
theorem Sound.applyAll_back_and_again (h : b.Sound) (hv : b.layout.Valid) {s : σ}
    (hw : Writable s) (hfits : b.layout.minLen.toNat ≤ (bytes s).size)
    (hp : b.Publishes part (.event e)) :
    ∃ c t, (b.after (.event e)).applyAll s [e.opposite, e] = (.ok (), c, t) ∧
      (∀ part key, key ∈ c.held part ↔ key ∈ (b.after (.event e)).held part) ∧
      Shows part (c, t) := by
  have hgrid : ∀ e' : Event, BridgeAction.InGrid b.layout (.event e') := fun _ => trivial
  have hmoved : Ready b.layout (bytes s).size (b.after (.event e), s) :=
    ⟨layout_after b _, hv, h.after (.event e), hw, rfl, hfits⟩
  set back := act (b.after (.event e), s) (.event e.opposite)
  have hback' : Ready b.layout (bytes s).size back := hmoved.act (hgrid e.opposite)
  have hbackBridge : back.1 = (b.after (.event e)).after (.event e.opposite) :=
    (hmoved.act_eq (hgrid e.opposite)).2.1
  set again := act back (.event e)
  have hagain' : Ready b.layout (bytes s).size again := hback'.act (hgrid e)
  have hagainBridge : again.1 = back.1.after (.event e) := (hback'.act_eq (hgrid e)).2.1
  have hpublishes : back.1.Publishes part (.event e) := by
    have hforth := (h.after (.event e)).publishes_back (h.publishes_back hp)
    rwa [Event.opposite_opposite, ← hbackBridge] at hforth
  have hall : (b.after (.event e)).applyAll s [e.opposite, e] = (.ok (), again) :=
    Ready.applyAll_eq [e.opposite, e] hmoved
  refine ⟨again.1, again.2, hall, fun part key => ?_, fun w hm => ?_⟩
  · rw [hagainBridge, hbackBridge]
    exact h.mem_held_back_and_again e part key
  · refine hback'.byteAt_act_of_publishes (hgrid e) hpublishes ?_
    rw [← hagainBridge, ← hagain'.size_eq]
    exact hm

/-- **A refused event is published by the next change.** Take any bridge that can be
reached, and an event that fails over an honest store with room for the keyboard
bytes. The bridge has taken the event in, and so the same event again is answered
over any store, leaves that as it is and does not move the bridge. The event was to
publish a part of the bridge. Whatever publishes that part later, an event that
changes it or letting all keys go, makes its bytes show it if it succeeds, and it
succeeds once the store takes every byte. In particular the key can then be moved
back and moved again, which ends with the same keys held, and published. -/
theorem refused_event_published_by_next_change {b c : Bridge} (hb : Reachable σ b) {s t : σ}
    (hi : Intact s) (hfits : b.layout.minLen.toNat ≤ (bytes s).size) {e : Event}
    {err : BridgeError} (hfail : b.apply s e = (.error err, c, t)) :
    c = b.after (.event e) ∧
    (∀ u : σ, c.apply u e = (.ok (), c, u)) ∧
    ∃ part, b.Publishes part (.event e) ∧
      (∀ (d : Bridge) (u : σ) (a : BridgeAction), d.layout = b.layout → Intact u →
        (bytes u).size = (bytes t).size → d.Publishes part a →
        ((perform (d, u) a).1 = .ok () → Shows part (perform (d, u) a).2) ∧
        (Writable u → (perform (d, u) a).1 = .ok ())) ∧
      ∀ u : σ, Writable u → (bytes u).size = (bytes t).size →
        ∃ d z, c.applyAll u [e.opposite, e] = (.ok (), d, z) ∧
          (∀ part key, key ∈ d.held part ↔ key ∈ c.held part) ∧ Shows part (d, z) := by
  have hv := hb.valid
  have hwithin := within_apply hi b e
  obtain ⟨part, hp⟩ := exists_publishes_of_error (congrArg Prod.fst hfail)
  have hc : c = b.after (.event e) := by
    rw [apply_eq] at hfail
    exact (congrArg (·.2.1) hfail).symm
  rw [hfail] at hwithin
  have hsize : (bytes t).size = (bytes s).size := hwithin.size_eq
  refine ⟨hc, fun u => ?_, part, hp, fun d u a hd hu hut hpublishes => ?_, fun u hu hut => ?_⟩
  · have hagain := hb.sound.apply_apply e s u
    rwa [hfail] at hagain
  · have hfits' : d.layout.minLen.toNat ≤ (bytes u).size := by rw [hd, hut, hsize]; exact hfits
    have hv' : d.layout.Valid := hd ▸ hv
    exact ⟨shows_of_publishes hv' hu hfits' hpublishes,
      fun hw => ok_of_publishes hv' hw hfits' hpublishes⟩
  · rw [hc]
    exact hb.sound.applyAll_back_and_again hv hu (by rw [hut, hsize]; exact hfits) hp

/-- The row byte of a press is refused. Pressing again writes nothing, and letting go
and pressing publishes both bytes. -/
theorem refused_press_published_by_next_press :
    let b := idle ⟨2, 2⟩ .standard none
    let s : FlakyStore := ⟨.zeroed 6, [false, true]⟩
    let e : Event := ⟨.down, .space⟩
    let c := (b.apply s e).2.1
    let t := (b.apply s e).2.2
    Reachable FlakyStore b ∧ b.layout.minLen.toNat ≤ (bytes s).size ∧
      byteAt t b.layout.colOffset = some 16 ∧ byteAt t b.layout.rowOffset = some 0 ∧
      c.apply t e = (.ok (), c, t) ∧
      ∃ d z, c.applyAll t [e.opposite, e] = (.ok (), d, z) ∧ Key.space ∈ d.held .keyboard ∧
        Shows .keyboard (d, z) := by
  intro b s e c t
  have hb : Reachable FlakyStore b := .idle (l := ⟨2, 2⟩) rfl .standard none
  have hfits : b.layout.minLen.toNat ≤ (bytes s).size := by decide
  have hcol : byteAt t b.layout.colOffset = some 16 := by decide +kernel
  have hrow : byteAt t b.layout.rowOffset = some 0 := by decide +kernel
  have hheld : Key.space ∈ c.held .keyboard := by decide +kernel
  have hwritable : Writable t := by
    change t.memory.failWrites = false ∧ true ∉ t.refusals
    decide +kernel
  rcases hfirst : (b.apply s e).1 with err | _
  · have hfail : b.apply s e = (.error err, c, t) := Prod.ext hfirst rfl
    obtain ⟨-, hagain, part, hp, -, hback⟩ :=
      refused_event_published_by_next_change hb trivial hfits hfail
    obtain ⟨d, z, hall, hsame, hshows⟩ := hback t hwritable rfl
    cases part with
    | keyboard =>
      exact ⟨hb, hfits, hcol, hrow, hagain t, d, z, hall, (hsame .keyboard .space).mpr hheld, hshows⟩
    | joystick =>
      obtain ⟨j, state, hj, -⟩ := hp
      cases hj
  · have hfails : (b.apply s e).1.toOption = none := by decide +kernel
    rw [hfirst] at hfails
    cases hfails

/-- A press fails as a whole. Pressing again is answered, and the column byte still
shows no key, while the keyboard holds one. -/
theorem press_again_hides_refused_press :
    let b := idle ⟨2, 2⟩ .standard none
    let s := { MemoryStore.zeroed 6 with failWrites := true }
    let e : Event := ⟨.down, .space⟩
    let c := (b.apply s e).2.1
    let t := { (b.apply s e).2.2 with failWrites := false }
    Reachable MemoryStore b ∧ b.layout.minLen.toNat ≤ s.bytes.size ∧
      b.Publishes .keyboard (.event e) ∧ (∃ err, (b.apply s e).1 = .error err) ∧
      (c.apply t e).1 = .ok () ∧ byteAt (c.apply t e).2.2 b.layout.colOffset = some 0 ∧
      (c.apply t e).2.1.keyboard.status.col = 16 ∧ ¬ Shows .keyboard (c.apply t e).2 := by
  intro b s e c t
  have hb : Reachable MemoryStore b := .idle (l := ⟨2, 2⟩) rfl .standard none
  have hp : b.Publishes .keyboard (.event e) := ⟨rfl, ⟨16, 128⟩, 1, by decide +kernel⟩
  have hagain : c.apply t e = (.ok (), c, t) := hb.sound.apply_apply e s t
  have hcol : byteAt t b.layout.colOffset = some 0 := by decide +kernel
  have hstatus : c.keyboard.status.col = 16 := by decide +kernel
  have hlayout : c.layout = b.layout := by decide +kernel
  have hhidden : ¬ Shows .keyboard (c, t) := by
    intro hshows
    have hshown := (shows_keyboard_iff.mp hshows).1
    rw [hlayout, hstatus, hcol] at hshown
    exact absurd hshown (by decide)
  rw [hagain]
  exact ⟨hb, by decide, hp, ⟨_, rfl⟩, rfl, hcol, hstatus, hhidden⟩

end Bridge
end ScreenBridge
