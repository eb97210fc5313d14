/-
# What a bridge does to its store

Which bytes an action puts into the store can be told from the bridge alone
(`Bridge.puts`). As long as the store takes every byte inside it and has room
for the keyboard bytes (`Ready`), no action fails and the store has exactly
these bytes put into it (`Ready.act_eq`). The bridge stays ready, so that what
outlives every such action outlives a run (`Ready.run_induction`).

Key definitions: `Bridge.act`, `Bridge.run`, `Bridge.puts`, `Bridge.Ready`.
Key theorems: `Bridge.apply_eq`, `Bridge.releaseAll_cases`,
`Bridge.mem_puts_cases`, `Bridge.Ready.act_eq`,
`Bridge.Ready.run_induction`, `Bridge.Ready.applyAll_eq`.
-/
import ScreenBridge.Proofs.ByteStore
import ScreenBridge.Proofs.Layout
import ScreenBridge.Proofs.Routing

namespace ScreenBridge

/-- The machine writes only into the grid. -/
def BridgeAction.InGrid (l : Layout) : BridgeAction → Prop
  | .event _ => True
  | .releaseAll => True
  | .poke offset _ => offset < l.gridLen

namespace Bridge

open ByteStore

variable {σ : Type} [Store σ]

/-! ### What is published -/

/-- Applying an event publishes what it changes. The bridge does not depend on how
that ends. -/
theorem apply_eq (b : Bridge) (s : σ) (e : Event) :
    b.apply s e =
      ((publish s (b.route e (Store.size s)).1).1, b.after (.event e),
        (publish s (b.route e (Store.size s)).1).2) := by
  rw [← snd_route b e (Store.size s)]
  rfl

/-- Letting the keys of the joystick go publishes the joystick as it then is. -/
theorem releaseJoystick_eq (b : Bridge) (s : σ) :
    let b' := { b with joystick := b.joystick.map .releaseAll }
    b.releaseJoystick s =
      ((publish s (b'.joystickWrites (Store.size s))).1, b',
        (publish s (b'.joystickWrites (Store.size s))).2) := by
  intro b'
  unfold releaseJoystick
  cases hj : b.joystick with
  | none =>
    have hb' : b' = b := by
      change { b with joystick := b.joystick.map .releaseAll } = b
      rw [hj, Option.map_none, ← hj]
    have hw : b'.joystickWrites (Store.size s) = [] := by
      rw [hb', joystickWrites, hj]
    rw [hw, hb']
    rfl
  | some j =>
    have hb' : b' = { b with joystick := some j.releaseAll } := by
      change { b with joystick := b.joystick.map .releaseAll } = _
      rw [hj, Option.map_some]
    rw [hb']
    rfl

/-- Letting all keys go publishes the keyboard. If that fails the joystick keeps its
keys, and otherwise it is published next. -/
theorem releaseAll_cases (b : Bridge) (s : σ) :
    let b' := b.after .releaseAll
    let x := publish s (b'.writes (Store.size s) .keyboard)
    let y := publish x.2 (b'.writes (Store.size x.2) .joystick)
    (∃ err, x.1 = .error err ∧
      b.releaseAll s = (.error err, { b with keyboard := b.keyboard.releaseAll }, x.2)) ∨
    (x.1 = .ok () ∧ b.releaseAll s = (y.1, b', y.2)) := by
  intro b' x y
  have hx : publish s (statusWrites b.layout b.keyboard.releaseAll.status) = x := rfl
  have hy : { b with keyboard := b.keyboard.releaseAll }.releaseJoystick x.2 = (y.1, b', y.2) :=
    releaseJoystick_eq _ x.2
  clear_value y
  unfold releaseAll
  dsimp only
  rw [hx]
  rcases x with ⟨err | _, t⟩
  · exact Or.inl ⟨err, rfl, rfl⟩
  · exact Or.inr ⟨rfl, hy⟩

/-! ### Actions -/

variable [ByteStore σ]

/-- What an action yields, and a bridge and its store after it. -/
def perform (x : Bridge × σ) : BridgeAction → Except BridgeError Unit × Bridge × σ
  | .event e => x.1.apply x.2 e
  | .releaseAll => x.1.releaseAll x.2
  | .poke offset value => (.ok (), x.1, ByteStore.poke x.2 offset value)

/-- A bridge and its store after an action. -/
def act (x : Bridge × σ) (a : BridgeAction) : Bridge × σ := (perform x a).2

/-- A bridge and its store after actions, one after another. -/
def run (x : Bridge × σ) (actions : List BridgeAction) : Bridge × σ := actions.foldl act x

theorem run_append (x : Bridge × σ) (actions later : List BridgeAction) :
    run x (actions ++ later) = run (run x actions) later := List.foldl_append

/-- The bytes an action puts into a store of some size. -/
def puts (b : Bridge) (size : ℕ) : BridgeAction → List (UInt64 × UInt8)
  | .event e => (b.route e size).1
  | .releaseAll =>
    (b.after .releaseAll).writes size .keyboard ++ (b.after .releaseAll).writes size .joystick
  | .poke offset value => [(offset, value)]

/-! ### Bytes behind the grid -/

variable {l : Layout} {b : Bridge} {size : ℕ} {part : Part} {w : UInt64 × UInt8}

theorem joystickWrites_of_some {j : Joystick} (hj : b.joystick = some j) (size : ℕ) :
    b.joystickWrites size =
      if (b.layout.portOffset j.port).toNat < size then [(b.layout.portOffset j.port, j.state)]
      else [] := by
  simp only [joystickWrites, hj, portWrites, Layout.joystickOffset_number]

theorem fst_of_mem_writes_keyboard (hw : w ∈ b.writes size .keyboard) :
    w.1 = b.layout.colOffset ∨ w.1 = b.layout.rowOffset := by
  rcases List.mem_cons.mp hw with rfl | hw
  · exact Or.inl rfl
  · exact Or.inr (congrArg Prod.fst (List.mem_singleton.mp hw))

/-- The joystick is published in the byte of its port, if that lies in the store. -/
theorem fst_of_mem_writes_joystick (hw : w ∈ b.writes size .joystick) :
    ∃ j, b.joystick = some j ∧ w.1 = b.layout.portOffset j.port ∧ w.2 = j.state ∧
      w.1.toNat < size := by
  change w ∈ b.joystickWrites size at hw
  cases hj : b.joystick with
  | none => simp [joystickWrites, hj] at hw
  | some j =>
    rw [joystickWrites_of_some hj] at hw
    split at hw
    · rename_i hlt
      obtain rfl := List.mem_singleton.mp hw
      exact ⟨j, rfl, rfl, rfl, hlt⟩
    · cases hw

/-- What publishes a part lies behind the grid and inside the store. -/
theorem bounds_of_mem_writes (hv : b.layout.Valid) (hsize : b.layout.minLen.toNat ≤ size)
    (hw : w ∈ b.writes size part) :
    b.layout.gridLen.toNat ≤ w.1.toNat ∧ w.1.toNat < size ∧ w.1.toNat + 1 < UInt64.size := by
  have hmin := hv.toNat_minLen
  have hrow := hv.toNat_rowOffset
  have hlt := hv.gridLen_add_lt
  have hcol : b.layout.colOffset.toNat = b.layout.gridLen.toNat := rfl
  cases part with
  | keyboard => rcases fst_of_mem_writes_keyboard hw with h | h <;> rw [h] <;> omega
  | joystick =>
    obtain ⟨j, -, h, -, hin⟩ := fst_of_mem_writes_joystick hw
    have hport := hv.portOffset_bounds j.port
    rw [h] at hin ⊢
    omega

/-- The two parts are published in different bytes. -/
theorem ne_of_mem_writes (hv : b.layout.Valid) {b' : Bridge} (hl : b'.layout = b.layout)
    {part' : Part} (hne : part ≠ part') {w' : UInt64 × UInt8} (hw : w ∈ b.writes size part)
    (hw' : w' ∈ b'.writes size part') : w'.1.toNat ≠ w.1.toNat := by
  have hrow := hv.toNat_rowOffset
  cases part <;> cases part'
  · exact absurd rfl hne
  · obtain ⟨j, -, hj, -, -⟩ := fst_of_mem_writes_joystick hw'
    have hport := hv.portOffset_bounds j.port
    rw [hj, hl]
    rcases fst_of_mem_writes_keyboard hw with h | h <;> rw [h] <;> omega
  · obtain ⟨j, -, hj, -, -⟩ := fst_of_mem_writes_joystick hw
    have hport := hv.portOffset_bounds j.port
    rw [hj]
    rcases fst_of_mem_writes_keyboard hw' with h | h <;> rw [h, hl] <;> omega
  · exact absurd rfl hne

/-- Putting what publishes a part makes its bytes so. -/
theorem getElem?_putAll_writes {bytes : Array UInt8} (hv : b.layout.Valid)
    (hsize : b.layout.minLen.toNat ≤ bytes.size) (hw : w ∈ b.writes bytes.size part) :
    (putAll bytes (b.writes bytes.size part))[w.1.toNat]? = some w.2 := by
  have hmin := hv.toNat_minLen
  have hrow := hv.toNat_rowOffset
  cases part with
  | keyboard =>
    simp only [writes, statusWrites, putAll, List.foldl_cons, List.foldl_nil]
    rcases List.mem_cons.mp hw with rfl | hw
    · dsimp only
      rw [Array.getElem?_setIfInBounds_ne (by omega),
        Array.getElem?_setIfInBounds_self_of_lt (by omega)]
    · obtain rfl := List.mem_singleton.mp hw
      dsimp only
      rw [Array.getElem?_setIfInBounds_self_of_lt (by rw [Array.size_setIfInBounds]; omega)]
  | joystick =>
    obtain ⟨j, hj, ho, hs, hlt⟩ := fst_of_mem_writes_joystick hw
    rw [ho] at hlt ⊢
    rw [hs, writes, joystickWrites_of_some hj, if_pos hlt]
    exact Array.getElem?_setIfInBounds_self_of_lt hlt

/-- All that an action puts lies in the grid or publishes a part. -/
theorem mem_puts_cases {a : BridgeAction} (ha : a.InGrid b.layout) (hw : w ∈ b.puts size a) :
    w.1 < b.layout.gridLen ∨ ∃ part, b.Publishes part a ∧ w ∈ (b.after a).writes size part := by
  cases a with
  | event e =>
    change w ∈ (b.route e size).1 at hw
    rcases fst_route_cases b e size with h | ⟨part, h⟩
    · rw [h] at hw
      cases hw
    · exact Or.inr ⟨part, h, fst_route_of_publishes size h ▸ hw⟩
  | releaseAll =>
    rcases List.mem_append.mp hw with hw | hw
    · exact Or.inr ⟨.keyboard, trivial, hw⟩
    · exact Or.inr ⟨.joystick, trivial, hw⟩
  | poke offset value =>
    rw [List.mem_singleton.mp hw]
    exact Or.inl ha

/-! ### Bridges that can publish -/

/-- A sound bridge before a layout, with a store of some size that takes every
byte inside it and has room for the keyboard bytes. -/
structure Ready (l : Layout) (size : ℕ) (x : Bridge × σ) : Prop where
  layout : x.1.layout = l
  valid : l.Valid
  sound : x.1.Sound
  writable : Writable x.2
  size_eq : (ByteStore.bytes x.2).size = size
  fits : l.minLen.toNat ≤ size

variable {x : Bridge × σ} {a : BridgeAction}

theorem ready_idle (hv : l.Valid) {m : Matrix} (hm : m.Built) (port : Option Port) {s : σ}
    (hw : Writable s) (hs : l.minLen.toNat ≤ (ByteStore.bytes s).size) :
    Ready l (ByteStore.bytes s).size (idle l m port, s) where
  layout := rfl
  valid := hv
  sound := sound_idle l hm port
  writable := hw
  size_eq := rfl
  fits := hs

theorem publish_eq {s : σ} {writes : List (UInt64 × UInt8)} (hw : Writable s)
    (h : ∀ w ∈ writes, w.1.toNat < (ByteStore.bytes s).size ∧ w.1.toNat + 1 < UInt64.size) :
    (publish s writes).1 = .ok () ∧ Writable (publish s writes).2 ∧
      ByteStore.bytes (publish s writes).2 = putAll (ByteStore.bytes s) writes := by
  obtain ⟨hok, hrest⟩ := writeAll_eq writes s hw h
  have hp : publish s writes = (.ok (), (Store.writeAll s writes).2) := by
    unfold publish
    split
    · rename_i heq; rw [heq]
    · rename_i heq; rw [heq] at hok; cases hok
  rw [hp]
  exact ⟨rfl, hrest⟩

theorem Ready.inside (h : Ready l size x) (ha : a.InGrid l) (hw : w ∈ x.1.puts size a) :
    w.1.toNat < size ∧ w.1.toNat + 1 < UInt64.size := by
  obtain ⟨rfl, hv, -, -, -, hfits⟩ := h
  rcases mem_puts_cases ha hw with hlt | ⟨part, -, hw⟩
  · rw [UInt64.lt_iff_toNat_lt] at hlt
    have hmin := hv.toNat_minLen
    have hgrid := hv.gridLen_add_lt
    have hcol : x.1.layout.colOffset.toNat = x.1.layout.gridLen.toNat := rfl
    omega
  · rw [← layout_after x.1 a] at hv hfits
    exact (bounds_of_mem_writes hv hfits hw).2

/-- Letting all keys go publishes the keyboard first and then the joystick. -/
theorem releaseAll_eq {s : σ} (hw : Writable s)
    (h : ∀ w ∈ b.puts (ByteStore.bytes s).size .releaseAll,
      w.1.toNat < (ByteStore.bytes s).size ∧ w.1.toNat + 1 < UInt64.size) :
    (b.releaseAll s).1 = .ok () ∧ (b.releaseAll s).2.1 = b.after .releaseAll ∧
      Writable (b.releaseAll s).2.2 ∧
      ByteStore.bytes (b.releaseAll s).2.2 =
        putAll (ByteStore.bytes s) (b.puts (ByteStore.bytes s).size .releaseAll) := by
  have hkeyboard : (b.after .releaseAll).writes (Store.size s) .keyboard ⊆
      b.puts (ByteStore.bytes s).size .releaseAll := List.subset_append_left _ _
  have hjoystick : (b.after .releaseAll).writes (ByteStore.bytes s).size .joystick ⊆
      b.puts (ByteStore.bytes s).size .releaseAll := List.subset_append_right _ _
  obtain ⟨hok, hw1, hb1⟩ := publish_eq hw fun w hm => h w (hkeyboard hm)
  rcases releaseAll_cases b s with ⟨err, hfail, -⟩ | ⟨-, hrelease⟩
  · rw [hok] at hfail
    cases hfail
  · -- the joystick is published into the store that the keyboard left
    have hsize := congrArg Array.size hb1
    rw [size_putAll] at hsize
    rw [ByteStore.size_eq hw1, hsize] at hrelease
    obtain ⟨hok2, hw2, hb2⟩ := publish_eq hw1 (by rw [hsize]; exact fun w hm => h w (hjoystick hm))
    rw [hrelease]
    refine ⟨hok2, rfl, hw2, ?_⟩
    rw [hb2, hb1, puts, putAll_append]
    rfl

/-- **An action that stays inside the grid does what the bridge alone tells.**
It does not fail, and exactly the bytes it puts change. -/
theorem Ready.act_eq (h : Ready l size x) (ha : a.InGrid l) :
    (perform x a).1 = .ok () ∧ (act x a).1 = x.1.after a ∧ Writable (act x a).2 ∧
      ByteStore.bytes (act x a).2 = putAll (ByteStore.bytes x.2) (x.1.puts size a) := by
  have hin : ∀ w ∈ x.1.puts size a, w.1.toNat < size ∧ w.1.toNat + 1 < UInt64.size :=
    fun w hw => h.inside ha hw
  rw [← h.size_eq] at hin ⊢
  cases a with
  | event e =>
    have hsize : Store.size x.2 = (ByteStore.bytes x.2).size := ByteStore.size_eq h.writable
    obtain ⟨hok, hw, hb⟩ := publish_eq h.writable hin
    unfold act perform
    dsimp only
    rw [apply_eq, hsize]
    exact ⟨hok, rfl, hw, hb⟩
  | releaseAll => exact releaseAll_eq h.writable hin
  | poke offset value =>
    obtain ⟨hlt, ho⟩ := hin (offset, value) List.mem_cons_self
    obtain ⟨hw, hb⟩ := ByteStore.poke_eq value h.writable hlt ho
    exact ⟨rfl, rfl, hw, hb⟩

theorem Ready.act (h : Ready l size x) (ha : a.InGrid l) : Ready l size (act x a) := by
  obtain ⟨-, hb, hw, hbytes⟩ := h.act_eq ha
  exact
    { layout := by rw [hb, layout_after, h.layout]
      valid := h.valid
      sound := hb ▸ h.sound.after a
      writable := hw
      size_eq := by rw [hbytes, size_putAll, h.size_eq]
      fits := h.fits }

/-- What holds at the beginning and outlives every action holds after a run. -/
theorem Ready.run_induction {P : Bridge × σ → Prop}
    (hstep : ∀ x a, Ready l size x → a.InGrid l → P x → P (Bridge.act x a)) :
    ∀ (actions : List BridgeAction) {x : Bridge × σ}, Ready l size x →
    (∀ a ∈ actions, a.InGrid l) → P x → P (Bridge.run x actions)
  | [], _, _, _, hx => hx
  | a :: actions, _, h, hg, hx => by
    have ha := hg a List.mem_cons_self
    refine Ready.run_induction hstep actions (h.act ha) (fun a' ha' => ?_) (hstep _ a h ha hx)
    exact hg a' (List.mem_cons_of_mem _ ha')

theorem Ready.run (actions : List BridgeAction) (h : Ready l size x)
    (hg : ∀ a ∈ actions, a.InGrid l) : Ready l size (run x actions) :=
  Ready.run_induction (fun _ _ hy ha _ => hy.act ha) actions h hg h

/-- Applying a batch to a ready bridge succeeds, and is applying its events. -/
theorem Ready.applyAll_eq : ∀ (es : List Event) {x : Bridge × σ}, Ready l size x →
    x.1.applyAll x.2 es = (.ok (), Bridge.run x (es.map .event))
  | [], _, _ => rfl
  | e :: es, x, h => by
    have ha : BridgeAction.InGrid l (.event e) := trivial
    have hok : (x.1.apply x.2 e).1 = .ok () := (h.act_eq ha).1
    have hstep : x.1.apply x.2 e = (.ok (), Bridge.act x (.event e)) := Prod.ext hok rfl
    rw [applyAll, hstep]
    exact Ready.applyAll_eq es (h.act ha)

end Bridge
end ScreenBridge
