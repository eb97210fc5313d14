/-
# The published bytes follow the held keys

An action publishes a part of the bridge, and then the part's bytes show what it
is, or it leaves the part and its bytes as they are (`Ready.kept_act`). The same
holds of a whole run (`Ready.kept_run`). Which keys are held after a run can be
read off its actions: those that went down and not up since all keys were let go
last (`Bridge.mem_held_run_idle`).

Key definitions: `Bridge.Kept`, `Bridge.EverPublishes`, `lastMotion`.
Key theorems: `Bridge.Ready.kept_run`, `Bridge.mem_held_run_idle`,
`Bridge.published_bytes_show_held_keys`.
-/
import ScreenBridge.Proofs.Bridge

namespace ScreenBridge

/-- The way a key went last since all keys were let go, if it went at all, after
it went some way before the actions. -/
def lastMotionFrom (key : Key) (before : Option Motion) : List BridgeAction → Option Motion
  | [] => before
  | .event e :: actions =>
    lastMotionFrom key (if e.key = key then some e.motion else before) actions
  | .releaseAll :: actions => lastMotionFrom key none actions
  | .poke .. :: actions => lastMotionFrom key before actions

/-- The way a key went last since all keys were let go, if it went at all. -/
def lastMotion (key : Key) (actions : List BridgeAction) : Option Motion :=
  lastMotionFrom key none actions

namespace Bridge

open ByteStore

variable {σ : Type} [Store σ] [ByteStore σ]
variable {l : Layout} {size : ℕ} {x y z : Bridge × σ} {a : BridgeAction} {part : Part}

/-! ### Bytes of a part -/

/-- Between two moments a part was published, and its bytes show it, or neither
the part nor its bytes changed. -/
def Kept (size : ℕ) (part : Part) (published : Prop) (x y : Bridge × σ) : Prop :=
  (published ∧ ∀ w ∈ y.1.writes size part, byteAt y.2 w.1 = some w.2) ∨
  (¬ published ∧ y.1.Agree x.1 part ∧ ∀ w ∈ x.1.writes size part, byteAt y.2 w.1 = byteAt x.2 w.1)

theorem Kept.shows {p : Prop} (h : Kept size part p x y) (hp : p) :
    ∀ w ∈ y.1.writes size part, byteAt y.2 w.1 = some w.2 := by
  rcases h with ⟨-, hy⟩ | ⟨hn, -⟩
  · exact hy
  · exact absurd hp hn

theorem Kept.unchanged {p : Prop} (h : Kept size part p x y) (hn : ¬ p) :
    y.1.Agree x.1 part ∧ ∀ w ∈ x.1.writes size part, byteAt y.2 w.1 = byteAt x.2 w.1 := by
  rcases h with ⟨hp, -⟩ | ⟨-, hy⟩
  · exact absurd hp hn
  · exact hy

theorem Kept.trans {p q : Prop} (h : Kept size part p x y) (h' : Kept size part q y z)
    (hxy : y.1.layout = x.1.layout) (hyz : z.1.layout = y.1.layout) :
    Kept size part (p ∨ q) x z := by
  rcases h' with ⟨hq, hz⟩ | ⟨hq, hagree', hz⟩
  · exact Or.inl ⟨Or.inr hq, hz⟩
  · have hwrites := hagree'.writes_eq hyz size
    rcases h with ⟨hp, hy⟩ | ⟨hp, hagree, hy⟩
    · refine Or.inl ⟨Or.inl hp, fun w hw => ?_⟩
      rw [hwrites] at hw
      rw [hz w hw, hy w hw]
    · refine Or.inr ⟨not_or.mpr ⟨hp, hq⟩, Agree.trans hagree' hagree, fun w hw => ?_⟩
      rw [hz w (by rwa [hagree.writes_eq hxy size]), hy w hw]

theorem Ready.byteAt_act_of_ne (h : Ready l size x) (ha : a.InGrid l) {offset : UInt64}
    (hne : ∀ w ∈ x.1.puts size a, w.1.toNat ≠ offset.toNat) :
    byteAt (Bridge.act x a).2 offset = byteAt x.2 offset := by
  obtain ⟨-, -, -, hb⟩ := h.act_eq ha
  unfold byteAt
  rw [hb]
  exact getElem?_putAll_of_ne _ _ hne

/-- Putting what an action puts makes the bytes of a part that it publishes show it. -/
theorem getElem?_putAll_puts {b : Bridge} {bytes : Array UInt8} (hv : b.layout.Valid)
    (hfits : b.layout.minLen.toNat ≤ bytes.size) (hp : b.Publishes part a) {w : UInt64 × UInt8}
    (hw : w ∈ (b.after a).writes bytes.size part) :
    (putAll bytes (b.puts bytes.size a))[w.1.toNat]? = some w.2 := by
  have hv' : (b.after a).layout.Valid := layout_after b a ▸ hv
  have hfits' : (b.after a).layout.minLen.toNat ≤ bytes.size := layout_after b a ▸ hfits
  cases a with
  | event e =>
    rw [puts, fst_route_of_publishes _ hp]
    exact getElem?_putAll_writes hv' hfits' hw
  | releaseAll =>
    rw [puts, putAll_append]
    cases part with
    | keyboard =>
      -- the joystick's byte is put last and lies elsewhere
      rw [getElem?_putAll_of_ne _ _ fun w' hw' => ne_of_mem_writes hv' rfl (by decide) hw hw']
      exact getElem?_putAll_writes hv' hfits' hw
    | joystick =>
      rw [← size_putAll ((b.after .releaseAll).writes bytes.size .keyboard)] at hfits' hw
      have hput := getElem?_putAll_writes hv' hfits' hw
      rwa [size_putAll] at hput
  | poke offset value => cases part <;> exact hp.elim

/-- After an action that publishes a part, its bytes show it. -/
theorem Ready.byteAt_act_of_publishes (h : Ready l size x) (ha : a.InGrid l)
    (hp : x.1.Publishes part a) {w : UInt64 × UInt8} (hw : w ∈ (x.1.after a).writes size part) :
    byteAt (Bridge.act x a).2 w.1 = some w.2 := by
  obtain ⟨-, -, -, hb⟩ := h.act_eq ha
  have hv : x.1.layout.Valid := h.layout ▸ h.valid
  have hfits : x.1.layout.minLen.toNat ≤ (bytes x.2).size := by
    rw [h.layout, h.size_eq]
    exact h.fits
  unfold byteAt
  rw [hb, ← h.size_eq]
  rw [← h.size_eq] at hw
  exact getElem?_putAll_puts hv hfits hp hw

/-- An action that stays inside the grid publishes a part or keeps it. -/
theorem Ready.kept_act (h : Ready l size x) (ha : a.InGrid l) (part : Part) :
    Kept size part (x.1.Publishes part a) x (Bridge.act x a) := by
  obtain ⟨-, hbridge, -, -⟩ := h.act_eq ha
  by_cases hp : x.1.Publishes part a
  · exact Or.inl ⟨hp, fun w hw => h.byteAt_act_of_publishes ha hp (hbridge ▸ hw)⟩
  · refine Or.inr ⟨hp, hbridge ▸ agree_after hp, fun w hw => h.byteAt_act_of_ne ha fun w' hw' => ?_⟩
    have hv : x.1.layout.Valid := h.layout ▸ h.valid
    have hfits : x.1.layout.minLen.toNat ≤ size := h.layout ▸ h.fits
    -- what else is put lies in the grid or belongs to the other part
    rcases mem_puts_cases (h.layout ▸ ha) hw' with hlt | ⟨part', hp', hw'⟩
    · have hle := (bounds_of_mem_writes hv hfits hw).1
      rw [UInt64.lt_iff_toNat_lt] at hlt
      omega
    · have hne : part ≠ part' := by rintro rfl; exact hp hp'
      exact ne_of_mem_writes hv (layout_after x.1 a) hne hw hw'

/-- Some action of a run publishes the part. -/
def EverPublishes (part : Part) : Bridge × σ → List BridgeAction → Prop
  | _, [] => False
  | x, a :: actions => x.1.Publishes part a ∨ EverPublishes part (act x a) actions

theorem Ready.kept_run (part : Part) : ∀ (actions : List BridgeAction) {x : Bridge × σ},
    Ready l size x → (∀ a ∈ actions, a.InGrid l) →
    Kept size part (EverPublishes part x actions) x (Bridge.run x actions)
  | [], _, _, _ => Or.inr ⟨id, Agree.refl _ _, fun _ _ => rfl⟩
  | a :: actions, _, h, hg => by
    have ha := hg a List.mem_cons_self
    have hg' : ∀ a' ∈ actions, a'.InGrid l := fun a' ha' => hg a' (List.mem_cons_of_mem _ ha')
    have hact := h.act ha
    refine (h.kept_act ha part).trans (Ready.kept_run part actions hact hg') ?_ ?_
    · rw [hact.layout, h.layout]
    · exact (hact.run actions hg').layout.trans hact.layout.symm

theorem Ready.preserved_run (h : Ready l size x) {α : Type} {f : Bridge → α}
    (hf : ∀ b a, f (b.after a) = f b) {actions : List BridgeAction}
    (hg : ∀ a ∈ actions, a.InGrid l) : f (Bridge.run x actions).1 = f x.1 := by
  refine Ready.run_induction (P := fun y => f y.1 = f x.1) (fun y a hy ha hfy => ?_) actions h hg rfl
  rw [(hy.act_eq ha).2.1, hf, hfy]

/-- An action puts nothing behind the grid but into the bytes of the two parts. -/
theorem Ready.byteAt_act_of_other (h : Ready l size x) (ha : a.InGrid l) {offset : UInt64}
    (hgrid : l.gridLen ≤ offset) (hcol : offset ≠ l.colOffset) (hrow : offset ≠ l.rowOffset)
    (hport : ∀ p, x.1.joystick.map (·.port) = some p → offset ≠ l.portOffset p) :
    byteAt (Bridge.act x a).2 offset = byteAt x.2 offset := by
  have hlay : (x.1.after a).layout = l := (layout_after x.1 a).trans h.layout
  refine h.byteAt_act_of_ne ha fun w hw heq => ?_
  have hoff : w.1 = offset := UInt64.toNat_inj.mp heq
  rcases mem_puts_cases (h.layout ▸ ha) hw with hlt | ⟨part, -, hw⟩
  · rw [h.layout, hoff] at hlt
    exact absurd hgrid (UInt64.not_le.mpr hlt)
  · cases part with
    | keyboard =>
      rcases fst_of_mem_writes_keyboard hw with ho | ho <;> rw [hoff, hlay] at ho
      · exact hcol ho
      · exact hrow ho
    | joystick =>
      obtain ⟨j, hj, ho, -, -⟩ := fst_of_mem_writes_joystick hw
      rw [hoff, hlay] at ho
      refine hport j.port ?_ ho
      rw [← port_after x.1 a, hj]
      rfl

theorem Ready.byteAt_run_of_other (h : Ready l size x) {actions : List BridgeAction}
    (hg : ∀ a ∈ actions, a.InGrid l) {offset : UInt64} (hgrid : l.gridLen ≤ offset)
    (hcol : offset ≠ l.colOffset) (hrow : offset ≠ l.rowOffset)
    (hport : ∀ p, x.1.joystick.map (·.port) = some p → offset ≠ l.portOffset p) :
    byteAt (Bridge.run x actions).2 offset = byteAt x.2 offset := by
  -- the port has to be carried along, since the joystick's byte lies where it says
  refine (Ready.run_induction (P := fun y => byteAt y.2 offset = byteAt x.2 offset ∧
    y.1.joystick.map (·.port) = x.1.joystick.map (·.port)) ?_ actions h hg ⟨rfl, rfl⟩).1
  rintro y a hy ha ⟨hbyte, hsame⟩
  constructor
  · rw [hy.byteAt_act_of_other ha hgrid hcol hrow (hsame ▸ hport), hbyte]
  · rw [(hy.act_eq ha).2.1, port_after, hsame]

theorem Ready.showsBits_col (h : Ready l size x)
    (hw : ∀ w ∈ x.1.writes size .keyboard, byteAt x.2 w.1 = some w.2) :
    ShowsBits x.2 l.colOffset fun n =>
      ∃ key ∈ x.1.keyboard.held, ∃ cell ∈ x.1.keyboard.matrix.cellsFor key, cell.col = n :=
  ⟨x.1.keyboard.status.col, h.layout ▸ hw _ List.mem_cons_self, h.sound.keyboard.testBit_col⟩

theorem Ready.showsBits_row (h : Ready l size x)
    (hw : ∀ w ∈ x.1.writes size .keyboard, byteAt x.2 w.1 = some w.2) :
    ShowsBits x.2 l.rowOffset fun n =>
      ∃ key ∈ x.1.keyboard.held, ∃ cell ∈ x.1.keyboard.matrix.cellsFor key, cell.row = n :=
  ⟨x.1.keyboard.status.row, h.layout ▸ hw _ (List.mem_cons_of_mem _ List.mem_cons_self),
    h.sound.keyboard.testBit_row⟩

theorem Ready.showsBits_port (h : Ready l size x) {port : Port}
    (hport : x.1.joystick.map (·.port) = some port) (hlt : (l.portOffset port).toNat < size)
    (hw : ∀ w ∈ x.1.writes size .joystick, byteAt x.2 w.1 = some w.2) :
    ShowsBits x.2 (l.portOffset port) fun n =>
      ∃ key ∈ x.1.joystickHeld, Joystick.bit? key = some (UInt8.ofNat n) := by
  obtain ⟨j, hj, rfl⟩ := Option.map_eq_some_iff.mp hport
  refine ⟨j.state, hw (l.portOffset j.port, j.state) ?_, fun n => ?_⟩
  · rw [writes, joystickWrites_of_some hj, h.layout, if_pos hlt]
    exact List.mem_singleton_self _
  · rw [joystickHeld, hj]
    exact j.testBit_state n

/-! ### Held keys -/

/-- A key that a part has is held there after a run if it went down last. -/
theorem Ready.mem_held_run_from (part : Part) (key : Key) : ∀ (actions : List BridgeAction)
    {x : Bridge × σ} (before : Option Motion), Ready l size x → (∀ a ∈ actions, a.InGrid l) →
    (key ∈ x.1.held part ↔ x.1.Has key part ∧ before = some .down) →
    (key ∈ (Bridge.run x actions).1.held part ↔
      x.1.Has key part ∧ lastMotionFrom key before actions = some .down)
  | [], _, _, _, _, hb => hb
  | a :: actions, x, before, h, hg, hb => by
    have ha := hg a List.mem_cons_self
    have hg' : ∀ a' ∈ actions, a'.InGrid l := fun a' ha' => hg a' (List.mem_cons_of_mem _ ha')
    have hbridge := (h.act_eq ha).2.1
    -- which part has a key does not change, so only the last motion is carried along
    have hrun := fun before' => mem_held_run_from part key actions before' (h.act ha) hg'
    rw [hbridge] at hrun
    simp only [has_after] at hrun
    cases a with
    | event e =>
      refine hrun _ ?_
      rw [h.sound.mem_held_after e key part]
      by_cases hkey : key = e.key
      · subst hkey
        by_cases hh : x.1.Has e.key part
        · simp [hh]
        · simp [hh, hb]
      · simp [hkey, Ne.symm hkey, hb]
    | releaseAll => exact hrun none (by simp)
    | poke offset value => exact hrun before hb

/-- After a run from an idle bridge a part holds the keys it has that went down
last. -/
theorem mem_held_run_idle {m : Matrix} {port : Option Port} {s : σ}
    (h : Ready l size (idle l m port, s)) {actions : List BridgeAction}
    (hg : ∀ a ∈ actions, a.InGrid l) (part : Part) (key : Key) :
    key ∈ (Bridge.run (idle l m port, s) actions).1.held part ↔
      (idle l m port).Has key part ∧ lastMotion key actions = some .down :=
  h.mem_held_run_from part key actions none hg (by simp)

theorem shows_of_mem_held {m : Matrix} {port : Option Port} {s : σ}
    (h : Ready l size (idle l m port, s)) {actions : List BridgeAction}
    (hg : ∀ a ∈ actions, a.InGrid l) {part : Part} {key : Key}
    (hk : key ∈ (Bridge.run (idle l m port, s) actions).1.held part) :
    ∀ w ∈ (Bridge.run (idle l m port, s) actions).1.writes size part,
      byteAt (Bridge.run (idle l m port, s) actions).2 w.1 = some w.2 := by
  rcases h.kept_run part actions hg with ⟨-, hw⟩ | ⟨-, hagree, -⟩
  · exact hw
  · rw [hagree.held_eq, held_idle] at hk
    cases hk

theorem takes_idle (l : Layout) (m : Matrix) (port : Option Port) (key : Key) :
    (idle l m port).takes key = (port.isSome && Joystick.isKey key) := by
  cases port <;> rfl

theorem has_idle_keyboard {l : Layout} {m : Matrix} {port : Option Port} {key : Key} :
    (idle l m port).Has key .keyboard ↔
      (port = none ∨ Joystick.isKey key = false) ∧ m.cellsFor key ≠ [] := by
  rw [Has, takes_idle]
  cases port <;> simp [idle, Keyboard.idle]

theorem has_idle_joystick {l : Layout} {m : Matrix} {port : Option Port} {key : Key} :
    (idle l m port).Has key .joystick ↔ port.isSome ∧ Joystick.isKey key = true := by
  rw [Has, takes_idle, Bool.and_eq_true]

/-- The columns and rows of a key that went down last are shown, if the keyboard has
the key. -/
theorem pressed_key_shown {m : Matrix} {port : Option Port} {s : σ}
    (h : Ready l size (idle l m port, s)) {actions : List BridgeAction}
    (hg : ∀ a ∈ actions, a.InGrid l) {key : Key} (hhas : (idle l m port).Has key .keyboard)
    (hlast : lastMotion key actions = some .down) :
    let y := Bridge.run (idle l m port, s) actions
    key ∈ y.1.keyboard.held ∧
      ∃ col row, byteAt y.2 l.colOffset = some col ∧ byteAt y.2 l.rowOffset = some row ∧
        ∀ cell ∈ m.cellsFor key, col.toNat.testBit cell.col = true ∧
          row.toNat.testBit cell.row = true := by
  intro y
  have hmatrix : y.1.keyboard.matrix = m :=
    h.preserved_run (f := fun b => b.keyboard.matrix) matrix_after hg
  have hk : key ∈ y.1.held .keyboard := (mem_held_run_idle h hg .keyboard key).mpr ⟨hhas, hlast⟩
  have hshows := shows_of_mem_held h hg hk
  obtain ⟨col, hcol, hcolBits⟩ := (h.run actions hg).showsBits_col hshows
  obtain ⟨row, hrow, hrowBits⟩ := (h.run actions hg).showsBits_row hshows
  refine ⟨hk, col, row, hcol, hrow, fun cell hc => ?_⟩
  rw [← hmatrix] at hc
  exact ⟨(hcolBits cell.col).mpr ⟨key, hk, cell, hc, rfl⟩,
    (hrowBits cell.row).mpr ⟨key, hk, cell, hc, rfl⟩⟩

/-- The direction of a key that went down last is shown, if the joystick has the key
and the store the byte of its port. -/
theorem pressed_direction_shown {m : Matrix} {port : Port} {s : σ}
    (h : Ready l size (idle l m (some port), s)) {actions : List BridgeAction}
    (hg : ∀ a ∈ actions, a.InGrid l) {key : Key} (hj : Joystick.isKey key = true)
    (hlast : lastMotion key actions = some .down) :
    let y := Bridge.run (idle l m (some port), s) actions
    key ∈ y.1.joystickHeld ∧
      ∀ bit, (l.portOffset port).toNat < size → Joystick.bit? key = some bit →
        ∃ byte, byteAt y.2 (l.portOffset port) = some byte ∧
          byte.toNat.testBit bit.toNat = true := by
  intro y
  have hport : y.1.joystick.map (·.port) = some port :=
    h.preserved_run (f := fun b => b.joystick.map (·.port)) port_after hg
  have hk : key ∈ y.1.held .joystick :=
    (mem_held_run_idle h hg .joystick key).mpr ⟨has_idle_joystick.mpr ⟨rfl, hj⟩, hlast⟩
  refine ⟨hk, fun bit hlt hbit => ?_⟩
  obtain ⟨byte, hbyte, hbits⟩ :=
    (h.run actions hg).showsBits_port hport hlt (shows_of_mem_held h hg hk)
  have hbound := Joystick.lt_of_bit? hbit
  refine ⟨byte, hbyte, (hbits ⟨bit.toNat, by omega⟩).mpr ⟨key, hk, ?_⟩⟩
  rw [hbit, UInt8.ofNat_toNat]

/-! ### Every bridge that can be reached -/

/-- **The published bytes show the held keys.** After any run of a bridge that
starts idle, over a store in memory with room for the keyboard bytes and
whatever else in it, no action has failed, and a key is held, by the joystick if
that takes it and by the keyboard if it has a crossing, exactly if it went down
last since all keys were let go. The column and the row byte show the held keys
of the keyboard from the first time on that it was published, and so does the
byte of the port for the joystick if it lies in the store. Until then these
bytes are what they were, and all others behind the grid always are. -/
theorem published_bytes_show_held_keys (hv : l.Valid) {m : Matrix} (hm : m.Built)
    (port : Option Port) {s : MemoryStore} (hs : s.failWrites = false)
    (hlen : l.minLen.toNat ≤ s.bytes.size) (actions : List BridgeAction)
    (hg : ∀ a ∈ actions, a.InGrid l) :
    let x := (idle l m port, s)
    let y := run x actions
    (∀ before a later, actions = before ++ a :: later → (perform (run x before) a).1 = .ok ()) ∧
    (∀ key, key ∈ y.1.keyboard.held ↔
      (port = none ∨ Joystick.isKey key = false) ∧ m.cellsFor key ≠ [] ∧
        lastMotion key actions = some .down) ∧
    (∀ key, key ∈ y.1.joystickHeld ↔
      port.isSome ∧ Joystick.isKey key = true ∧ lastMotion key actions = some .down) ∧
    (EverPublishes .keyboard x actions →
      ShowsBits y.2 l.colOffset
        (fun n => ∃ key ∈ y.1.keyboard.held, ∃ cell ∈ m.cellsFor key, cell.col = n) ∧
      ShowsBits y.2 l.rowOffset
        (fun n => ∃ key ∈ y.1.keyboard.held, ∃ cell ∈ m.cellsFor key, cell.row = n)) ∧
    (¬ EverPublishes .keyboard x actions →
      byteAt y.2 l.colOffset = byteAt s l.colOffset ∧
      byteAt y.2 l.rowOffset = byteAt s l.rowOffset) ∧
    (∀ p offset, port = some p → l.joystickOffset p.number = some offset →
      offset.toNat < s.bytes.size →
      (EverPublishes .joystick x actions →
        ShowsBits y.2 offset
          (fun n => ∃ key ∈ y.1.joystickHeld, Joystick.bit? key = some (UInt8.ofNat n))) ∧
      (¬ EverPublishes .joystick x actions → byteAt y.2 offset = byteAt s offset)) ∧
    (∀ offset, l.gridLen ≤ offset → offset ≠ l.colOffset → offset ≠ l.rowOffset →
      (∀ p, port = some p → l.joystickOffset p.number ≠ some offset) →
      byteAt y.2 offset = byteAt s offset) := by
  intro x y
  have h : Ready l s.bytes.size x := ready_idle hv hm port hs hlen
  have hy : Ready l s.bytes.size y := h.run actions hg
  have hmatrix : y.1.keyboard.matrix = m :=
    h.preserved_run (f := fun b => b.keyboard.matrix) matrix_after hg
  have hxport : x.1.joystick.map (·.port) = port := by cases port <;> rfl
  have hport : y.1.joystick.map (·.port) = port :=
    (h.preserved_run (f := fun b => b.joystick.map (·.port)) port_after hg).trans hxport
  have hkeyboard := h.kept_run .keyboard actions hg
  have hjoystick := h.kept_run .joystick actions hg
  refine ⟨?_, fun key => ?_, fun key => ?_, fun hp => ?_, fun hn => ?_, ?_, ?_⟩
  · rintro before a later rfl
    have hbefore := h.run before fun a' ha' => hg a' (List.mem_append_left _ ha')
    exact (hbefore.act_eq (hg a (List.mem_append_right _ List.mem_cons_self))).1
  · refine (mem_held_run_idle h hg .keyboard key).trans ?_
    rw [has_idle_keyboard, and_assoc]
  · refine (mem_held_run_idle h hg .joystick key).trans ?_
    rw [has_idle_joystick, and_assoc]
  · rw [← hmatrix]
    exact ⟨hy.showsBits_col (hkeyboard.shows hp), hy.showsBits_row (hkeyboard.shows hp)⟩
  · have hsame := (hkeyboard.unchanged hn).2
    exact ⟨hsame _ List.mem_cons_self, hsame _ (List.mem_cons_of_mem _ List.mem_cons_self)⟩
  · rintro p offset rfl ho hlt
    obtain rfl : l.portOffset p = offset := by
      rw [Layout.joystickOffset_number] at ho
      exact Option.some.inj ho
    refine ⟨fun hp => hy.showsBits_port hport hlt (hjoystick.shows hp), fun hn => ?_⟩
    refine (hjoystick.unchanged hn).2 (l.portOffset p, Joystick.state (.idle p)) ?_
    change _ ∈ x.1.joystickWrites s.bytes.size
    rw [joystickWrites_of_some (j := .idle p) rfl]
    exact (if_pos hlt) ▸ List.mem_singleton_self _
  · intro offset hgrid hcol hrow hne
    refine h.byteAt_run_of_other hg hgrid hcol hrow fun p hp ho => hne p ?_ ?_
    · rw [← hp, hxport]
    · rw [Layout.joystickOffset_number, ho]

/-- Behind a grid of four bytes the right shift key goes down, the machine paints,
and the joystick at the first port fires. -/
theorem shift_and_fire_shown_in_seven_bytes :
    let l : Layout := ⟨2, 2⟩
    let s := MemoryStore.ofBytes (Array.replicate 7 255)
    let actions := [.event ⟨.down, .rightShift⟩, .poke 3 9, .event ⟨.down, .keypad0⟩]
    let y := run (idle l .standard (some .one), s) actions
    l.Valid ∧ Matrix.standard.Built ∧ l.minLen.toNat ≤ s.bytes.size ∧ (∀ a ∈ actions, a.InGrid l) ∧
    Key.rightShift ∈ y.1.keyboard.held ∧ Key.keypad0 ∈ y.1.joystickHeld ∧
    ShowsBits y.2 l.colOffset (fun n =>
      ∃ key ∈ y.1.keyboard.held, ∃ cell ∈ Matrix.standard.cellsFor key, cell.col = n) ∧
    ShowsBits y.2 6 (fun n =>
      ∃ key ∈ y.1.joystickHeld, Joystick.bit? key = some (UInt8.ofNat n)) := by
  intro l s actions
  have hv : l.Valid := rfl
  have hlen : l.minLen.toNat ≤ s.bytes.size := by decide
  have hg : ∀ a ∈ actions, a.InGrid l := by
    simp only [actions, List.forall_mem_cons, List.not_mem_nil, false_imp_iff, implies_true,
      and_true]
    exact ⟨trivial, by change (3 : UInt64) < 4; decide, trivial⟩
  have hkeyboard : EverPublishes .keyboard (idle l .standard (some .one), s) actions :=
    Or.inl ⟨rfl, _, _, rfl⟩
  have hjoystick : EverPublishes .joystick (idle l .standard (some .one), s) actions :=
    Or.inr (Or.inr (Or.inl ⟨_, _, rfl, rfl⟩))
  have hshift : lastMotion .rightShift actions = some .down := rfl
  have hfire : lastMotion .keypad0 actions = some .down := rfl
  have hport : l.joystickOffset Port.one.number = some 6 := by decide
  obtain ⟨-, hheld, hjheld, hshown, -, hjshown, -⟩ :=
    published_bytes_show_held_keys hv .standard (some .one) rfl hlen actions hg
  refine ⟨hv, .standard, hlen, hg, ?_, ?_, ?_, ?_⟩
  · exact (hheld .rightShift).mpr ⟨Or.inr rfl, by decide, hshift⟩
  · exact (hjheld .keypad0).mpr ⟨rfl, rfl, hfire⟩
  · exact (hshown hkeyboard).1
  · exact (hjshown .one 6 rfl hport (by decide)).1 hjoystick

end Bridge
end ScreenBridge
