/-
# A bridge recovers from writes that fail

An event or letting all keys go moves the keys of a bridge even if the writes
fail that should publish it. So the keyboard is at every point what it would be
if no write ever failed (`Bridge.keyboard_attemptAll`). Only letting all keys go
stops half way when it fails, and then the joystick keeps its keys
(`Bridge.attemptAll_eq_calmAll`). The next action that publishes the keyboard
and succeeds makes its two bytes show it, whatever was lost before
(`Bridge.Steady.showsStatus_of_publishes`), and they go on to show it until the
machine overwrites them or such an action fails
(`Bridge.Steady.showsStatus_attemptAll`).

Key definitions: `Attempt`, `Bridge.attemptAll`, `Bridge.calmAll`,
`Bridge.spare`, `Bridge.Steady`, `Bridge.ShowsStatus`, `Bridge.Undisturbed`.
Key theorems: `Bridge.keyboard_attemptAll`, `Bridge.attemptAll_eq_calmAll`,
`Bridge.Steady.showsStatus_attemptAll`, `Bridge.published_again_after_faults`.
-/
import ScreenBridge.Proofs.Footprint
import ScreenBridge.Proofs.Published

namespace ScreenBridge

/-- An action, and whether writes fail while it is done. -/
structure Attempt where
  failing : Bool
  action : BridgeAction
  deriving DecidableEq, Repr

namespace Attempt

/-- The same action, done while no write fails. -/
def calm (p : Attempt) : Attempt := { p with failing := false }

end Attempt

/-- An action of a run without faults, in which the joystick may be left out when all
keys are let go. -/
inductive CalmAction
  | whole (a : BridgeAction)
  | releaseKeyboard
  deriving DecidableEq, Repr

namespace Bridge

open ByteStore

/-- What an action yields that writes may fail for, and a bridge and its store after
it. -/
def attempt (x : Bridge × MemoryStore) (p : Attempt) : Except BridgeError Unit × Bridge × MemoryStore :=
  perform (x.1, { x.2 with failWrites := p.failing }) p.action

/-- A bridge and its store after actions, one after another, whether or not they fail. -/
def attemptAll (x : Bridge × MemoryStore) (ps : List Attempt) : Bridge × MemoryStore :=
  ps.foldl (fun x p => (attempt x p).2) x

/-- Lets go the keys of the keyboard alone and publishes that. -/
def releaseKeyboard {σ : Type} [Store σ] (b : Bridge) (store : σ) :
    Except BridgeError Unit × Bridge × σ :=
  let keyboard := b.keyboard.releaseAll
  let (result, store) := publish store (statusWrites b.layout keyboard.status)
  (result, { b with keyboard := keyboard }, store)

/-- What an action yields while no write fails, and a bridge and its store after it. -/
def calm (x : Bridge × MemoryStore) : CalmAction → Except BridgeError Unit × Bridge × MemoryStore
  | .whole a => attempt x ⟨false, a⟩
  | .releaseKeyboard => x.1.releaseKeyboard { x.2 with failWrites := false }

/-- A bridge and its store after actions while no write fails. -/
def calmAll (x : Bridge × MemoryStore) (cs : List CalmAction) : Bridge × MemoryStore :=
  cs.foldl (fun x c => (calm x c).2) x

/-- An action, or the part of it that concerns the keyboard if letting all keys go
failed. -/
def sparedAction (x : Bridge × MemoryStore) (p : Attempt) : CalmAction :=
  match p.action, (attempt x p).1 with
  | .releaseAll, .error _ => .releaseKeyboard
  | a, _ => .whole a

/-- The actions of a run without faults in which the joystick is left out each time
that letting all keys go failed. -/
def spare : Bridge × MemoryStore → List Attempt → List CalmAction
  | _, [] => []
  | x, p :: ps => sparedAction x p :: spare (attempt x p).2 ps

variable {l : Layout} {size : ℕ} {x y : Bridge × MemoryStore} {a : BridgeAction} {p : Attempt}

/-! ### What an attempt does to the bridge -/

/-- The bridge after an action that fails: the joystick keeps its keys. -/
def afterFailed (b : Bridge) : BridgeAction → Bridge
  | .releaseAll => { b with keyboard := b.keyboard.releaseAll }
  | a => b.after a

theorem layout_afterFailed (b : Bridge) (a : BridgeAction) : (b.afterFailed a).layout = b.layout := by
  cases a <;> rfl

theorem keyboard_afterFailed (b : Bridge) (a : BridgeAction) :
    (b.afterFailed a).keyboard = (b.after a).keyboard := by
  cases a <;> rfl

theorem port_afterFailed (b : Bridge) (a : BridgeAction) :
    (b.afterFailed a).joystick.map (·.port) = b.joystick.map (·.port) := by
  cases a with
  | event e => exact port_after b (.event e)
  | releaseAll => rfl
  | poke offset value => rfl

theorem Sound.afterFailed {b : Bridge} (h : b.Sound) (a : BridgeAction) : (b.afterFailed a).Sound where
  keyboard := keyboard_afterFailed b a ▸ (h.after a).keyboard
  joystick := by
    cases a with
    | event e => exact (h.after (.event e)).joystick
    | releaseAll => exact h.joystick
    | poke offset value => exact h.joystick

/-- While writes fail an event moves the bridge and leaves the store as it is. It
fails if it changes the keyboard. -/
theorem apply_of_failing (b : Bridge) {s : MemoryStore} (hf : s.failWrites = true) (e : Event) :
    (b.apply s e).2 = (b.after (.event e), s) ∧
      (b.AppliesToKeyboard e → ∃ err, (b.apply s e).1 = .error err) := by
  rw [apply_eq]
  constructor
  · by_cases hne : (b.route e (Store.size s)).1 = []
    · rw [hne]
      rfl
    · obtain ⟨err, h⟩ := publish_of_failing hf hne
      rw [h]
  · intro hk
    have hne : (b.route e (Store.size s)).1 ≠ [] := by
      rw [fst_route_of_keyboard _ hk]
      exact List.cons_ne_nil _ _
    obtain ⟨err, h⟩ := publish_of_failing hf hne
    exact ⟨err, congrArg Prod.fst h⟩

theorem releaseAll_of_failing (b : Bridge) {s : MemoryStore} (hf : s.failWrites = true) :
    ∃ err, b.releaseAll s = (.error err, b.afterFailed .releaseAll, s) := by
  have hne : (b.after .releaseAll).writes (Store.size s) .keyboard ≠ [] := List.cons_ne_nil _ _
  obtain ⟨err, h⟩ := publish_of_failing hf hne
  rcases releaseAll_cases b s with ⟨err', -, h'⟩ | ⟨hok, -⟩
  · rw [h] at h'
    exact ⟨err', h'⟩
  · rw [h] at hok
    cases hok

theorem attempt_fails (hp : x.1.Publishes .keyboard a) : ∃ e, (attempt x ⟨true, a⟩).1 = .error e := by
  cases a with
  | event e => exact (apply_of_failing x.1 (s := { x.2 with failWrites := true }) rfl e).2 hp
  | releaseAll =>
    obtain ⟨err, h⟩ := releaseAll_of_failing x.1 (s := { x.2 with failWrites := true }) rfl
    exact ⟨err, congrArg Prod.fst h⟩
  | poke offset value => exact hp.elim

/-- While writes fail, the bridge moves as after a failure, and only the machine
changes the store. -/
theorem attempt_failing (x : Bridge × MemoryStore) (a : BridgeAction) :
    (attempt x ⟨true, a⟩).2.1 = x.1.afterFailed a ∧
      ((∀ offset value, a ≠ .poke offset value) → (attempt x ⟨true, a⟩).2.2.bytes = x.2.bytes) := by
  cases a with
  | event e =>
    have h := (apply_of_failing x.1 (s := { x.2 with failWrites := true }) rfl e).1
    exact ⟨congrArg Prod.fst h, fun _ => congrArg (·.2.bytes) h⟩
  | releaseAll =>
    obtain ⟨err, h⟩ := releaseAll_of_failing x.1 (s := { x.2 with failWrites := true }) rfl
    exact ⟨congrArg (·.2.1) h, fun _ => congrArg (·.2.2.bytes) h⟩
  | poke offset value => exact ⟨rfl, fun h => absurd rfl (h offset value)⟩

/-! ### Bridges that can publish once writes succeed -/

/-- A sound bridge before a layout, with a store in memory that has room for the
keyboard bytes. Its writes may be told to fail. -/
structure Steady (l : Layout) (size : ℕ) (x : Bridge × MemoryStore) : Prop where
  layout : x.1.layout = l
  valid : l.Valid
  sound : x.1.Sound
  size_eq : x.2.bytes.size = size
  fits : l.minLen.toNat ≤ size

theorem Steady.ready (h : Steady l size x) : Ready l size (x.1, { x.2 with failWrites := false }) where
  layout := h.layout
  valid := h.valid
  sound := h.sound
  writable := rfl
  size_eq := h.size_eq
  fits := h.fits

/-- While no write fails, an action succeeds and does to the bridge what it tells. -/
theorem Steady.attempt_calm (h : Steady l size x) (a : BridgeAction) :
    (attempt x ⟨false, a⟩).1 = .ok () ∧ (attempt x ⟨false, a⟩).2.1 = x.1.after a ∧
      (attempt x ⟨false, a⟩).2.2.bytes.size = size := by
  -- the machine may write outside of the grid here, which readiness does not cover
  by_cases ha : a.InGrid l
  · obtain ⟨hok, hb, -, -⟩ := h.ready.act_eq ha
    exact ⟨hok, hb, (h.ready.act ha).size_eq⟩
  · cases a with
    | event e => exact absurd trivial ha
    | releaseAll => exact absurd trivial ha
    | poke offset value =>
      exact ⟨rfl, rfl, (MemoryStore.size_poke _ offset value).trans h.size_eq⟩

/-- An action that succeeds moves the bridge as it tells, and one that fails as after
a failure. -/
theorem Steady.bridge_attempt (h : Steady l size x) (p : Attempt) :
    ((attempt x p).1 = .ok () ∧ (attempt x p).2.1 = x.1.after p.action) ∨
    ((∃ e, (attempt x p).1 = .error e) ∧ (attempt x p).2.1 = x.1.afterFailed p.action) := by
  obtain ⟨failing, a⟩ := p
  cases failing with
  | false => exact Or.inl ⟨(h.attempt_calm a).1, (h.attempt_calm a).2.1⟩
  | true =>
    have hb := (attempt_failing x a).1
    cases hr : (attempt x ⟨true, a⟩).1 with
    | error e => exact Or.inr ⟨⟨e, rfl⟩, hb⟩
    | ok =>
      refine Or.inl ⟨rfl, ?_⟩
      cases a with
      | event e => exact hb
      | releaseAll =>
        obtain ⟨e, he⟩ := attempt_fails (x := x) (a := .releaseAll) trivial
        rw [he] at hr
        cases hr
      | poke offset value => exact hb

theorem Steady.after_attempt (h : Steady l size x) (p : Attempt) : Steady l size (attempt x p).2 where
  layout := by
    rcases h.bridge_attempt p with ⟨-, hb⟩ | ⟨-, hb⟩
    · rw [hb, layout_after, h.layout]
    · rw [hb, layout_afterFailed, h.layout]
  valid := h.valid
  sound := by
    rcases h.bridge_attempt p with ⟨-, hb⟩ | ⟨-, hb⟩
    · rw [hb]
      exact h.sound.after p.action
    · rw [hb]
      exact h.sound.afterFailed p.action
  size_eq := by
    obtain ⟨failing, a⟩ := p
    cases failing with
    | false => exact (h.attempt_calm a).2.2
    | true =>
      cases a with
      | poke offset value => exact (MemoryStore.size_poke _ offset value).trans h.size_eq
      | _ => rw [(attempt_failing x _).2 (by intros; nofun), h.size_eq]
  fits := h.fits

theorem Steady.after_attemptAll : ∀ (ps : List Attempt) {x : Bridge × MemoryStore}, Steady l size x →
    Steady l size (attemptAll x ps)
  | [], _, h => h
  | p :: ps, _, h => Steady.after_attemptAll ps (h.after_attempt p)

theorem steady_idle (hv : l.Valid) {m : Matrix} (hm : m.Built) (port : Option Port)
    {s : MemoryStore} (hlen : l.minLen.toNat ≤ s.bytes.size) :
    Steady l s.bytes.size (idle l m port, s) where
  layout := rfl
  valid := hv
  sound := sound_idle l hm port
  size_eq := rfl
  fits := hlen

/-! ### Runs without faults -/

/-- What an action does to the keyboard depends on it and on whether there is a
joystick. -/
theorem keyboard_after_congr {b b' : Bridge} (hk : b.keyboard = b'.keyboard)
    (hp : b.joystick.map (·.port) = b'.joystick.map (·.port)) (a : BridgeAction) :
    (b.after a).keyboard = (b'.after a).keyboard := by
  have htakes : ∀ key, b.takes key = b'.takes key := fun key => by
    have h := congrArg Option.isSome hp
    rw [Option.isSome_map, Option.isSome_map] at h
    rw [takes, takes, h]
  cases a with
  | event e =>
    unfold after
    dsimp only
    rw [htakes, hk]
  | releaseAll => exact congrArg Keyboard.releaseAll hk
  | poke offset value => exact hk

/-- The keyboard is at every point what it would be if no write failed. -/
theorem keyboard_attemptAll : ∀ (ps : List Attempt) {x y : Bridge × MemoryStore},
    Steady l size x → Steady l size y → x.1.keyboard = y.1.keyboard →
    x.1.joystick.map (·.port) = y.1.joystick.map (·.port) →
    (attemptAll x ps).1.keyboard = (attemptAll y (ps.map .calm)).1.keyboard
  | [], _, _, _, _, hk, _ => hk
  | p :: ps, x, y, hx, hy, hk, hp => by
    have hy' : (attempt y p.calm).2.1 = y.1.after p.action := (hy.attempt_calm p.action).2.1
    have hcongr := keyboard_after_congr hk hp p.action
    refine keyboard_attemptAll ps (hx.after_attempt p) (hy.after_attempt p.calm) ?_ ?_
    · rw [hy', ← hcongr]
      rcases hx.bridge_attempt p with ⟨-, hb⟩ | ⟨-, hb⟩
      · rw [hb]
      · rw [hb, keyboard_afterFailed]
    · rw [hy', port_after, ← hp]
      rcases hx.bridge_attempt p with ⟨-, hb⟩ | ⟨-, hb⟩
      · rw [hb, port_after]
      · rw [hb, port_afterFailed]

theorem Steady.after_calm (h : Steady l size x) (c : CalmAction) : Steady l size (calm x c).2 := by
  cases c with
  | whole a => exact h.after_attempt ⟨false, a⟩
  | releaseKeyboard =>
    exact
      { layout := h.layout
        valid := h.valid
        sound := h.sound.afterFailed .releaseAll
        size_eq := (size_publish _ _).trans h.size_eq
        fits := h.fits }

/-- A bridge moves as it would if no write failed but the joystick were left out when
letting all keys go failed. -/
theorem Steady.bridge_calm_spared (hx : Steady l size x) (hy : Steady l size y) (hb : x.1 = y.1)
    (p : Attempt) : (attempt x p).2.1 = (calm y (sparedAction x p)).2.1 := by
  have hwhole := (hy.attempt_calm p.action).2.1
  unfold sparedAction
  rcases hx.bridge_attempt p with ⟨hok, hafter⟩ | ⟨⟨e, hfail⟩, hafter⟩
  · rw [hafter, hb, ← hwhole, hok]
    split
    · rename_i h
      cases h
    · rfl
  · rw [hafter, hb, hfail]
    cases ha : p.action with
    | event e => exact (ha ▸ hwhole).symm
    | releaseAll => rfl
    | poke offset value => rfl

/-- The whole bridge is at every point what it would be if no write failed but the
joystick were left out each time that letting all keys go failed. -/
theorem attemptAll_eq_calmAll : ∀ (ps : List Attempt) {x y : Bridge × MemoryStore},
    Steady l size x → Steady l size y → x.1 = y.1 →
    (attemptAll x ps).1 = (calmAll y (spare x ps)).1
  | [], _, _, _, _, hb => hb
  | p :: ps, _, _, hx, hy, hb =>
    attemptAll_eq_calmAll ps (hx.after_attempt p) (hy.after_calm _) (hx.bridge_calm_spared hy hb p)

/-! ### The bytes of the keyboard -/

/-- The two keyboard bytes show the keyboard. -/
def ShowsStatus (x : Bridge × MemoryStore) : Prop :=
  byteAt x.2 x.1.layout.colOffset = some x.1.keyboard.status.col ∧
    byteAt x.2 x.1.layout.rowOffset = some x.1.keyboard.status.row

theorem showsStatus_iff (size : ℕ) :
    ShowsStatus x ↔ ∀ w ∈ x.1.writes size .keyboard, byteAt x.2 w.1 = some w.2 := by
  simp [ShowsStatus, writes, statusWrites]

/-- The machine overwrites no keyboard byte, and what publishes the keyboard succeeds. -/
def Undisturbed : Bridge × MemoryStore → List Attempt → Prop
  | _, [] => True
  | x, p :: ps =>
    (∀ offset value, p.action = .poke offset value →
      offset ≠ x.1.layout.colOffset ∧ offset ≠ x.1.layout.rowOffset) ∧
    (x.1.Publishes .keyboard p.action → (attempt x p).1 = .ok ()) ∧
    Undisturbed (attempt x p).2 ps

/-- After an action that publishes the keyboard and succeeds, its bytes show it,
whatever they were. -/
theorem Steady.showsStatus_of_publishes (h : Steady l size x)
    (hp : x.1.Publishes .keyboard p.action) (hok : (attempt x p).1 = .ok ()) :
    ShowsStatus (attempt x p).2 := by
  obtain ⟨failing, a⟩ := p
  cases failing with
  | true =>
    obtain ⟨e, he⟩ := attempt_fails hp
    rw [he] at hok
    cases hok
  | false =>
    have ha : a.InGrid l := by
      cases a with
      | poke offset value => exact hp.elim
      | _ => trivial
    exact (showsStatus_iff size).mpr ((h.ready.kept_act ha .keyboard).shows hp)

/-- An action that does not publish the keyboard leaves its bytes as they are, unless
it is the machine that overwrites them. -/
theorem Steady.showsStatus_of_not_publishes (h : Steady l size x)
    (hp : ¬ x.1.Publishes .keyboard p.action)
    (hpoke : ∀ offset value, p.action = .poke offset value →
      offset ≠ x.1.layout.colOffset ∧ offset ≠ x.1.layout.rowOffset)
    (hshows : ShowsStatus x) : ShowsStatus (attempt x p).2 := by
  obtain ⟨failing, a⟩ := p
  cases a with
  | event e =>
    have hbridge : (attempt x ⟨failing, .event e⟩).2.1 = x.1.after (.event e) := by
      rcases h.bridge_attempt ⟨failing, .event e⟩ with ⟨-, hb⟩ | ⟨-, hb⟩ <;> exact hb
    have hwrites : (attempt x ⟨failing, .event e⟩).2.1.writes size .keyboard =
        x.1.writes size .keyboard := by
      rw [hbridge]
      exact (agree_after hp).writes_eq (layout_after x.1 _) size
    have hbytes : ∀ w ∈ x.1.writes size .keyboard,
        byteAt (attempt x ⟨failing, .event e⟩).2.2 w.1 = byteAt x.2 w.1 := by
      cases failing with
      | true =>
        intro w _
        exact congrArg (·[w.1.toNat]?) ((attempt_failing x (.event e)).2 (by intros; nofun))
      | false => exact ((h.ready.kept_act (a := .event e) trivial .keyboard).unchanged hp).2
    refine (showsStatus_iff size).mpr fun w hw => ?_
    rw [hwrites] at hw
    exact (hbytes w hw).trans ((showsStatus_iff size).mp hshows w hw)
  | releaseAll => exact absurd trivial hp
  | poke offset value =>
    obtain ⟨hcol, hrow⟩ := hpoke offset value rfl
    have hbyte := MemoryStore.byteAt_poke { x.2 with failWrites := failing } offset
    refine ⟨((hbyte _ value).trans (if_neg hcol)).trans hshows.1, ?_⟩
    exact ((hbyte _ value).trans (if_neg hrow)).trans hshows.2

/-- Bytes that show the keyboard go on to show it while nothing disturbs them. -/
theorem Steady.showsStatus_attemptAll : ∀ (ps : List Attempt) {x : Bridge × MemoryStore},
    Steady l size x → Undisturbed x ps → ShowsStatus x → ShowsStatus (attemptAll x ps)
  | [], _, _, _, hs => hs
  | p :: ps, x, h, ⟨hpoke, hok, hrest⟩, hs => by
    refine Steady.showsStatus_attemptAll ps (h.after_attempt p) hrest ?_
    by_cases hp : x.1.Publishes .keyboard p.action
    · exact h.showsStatus_of_publishes hp (hok hp)
    · exact h.showsStatus_of_not_publishes hp hpoke hs

theorem attemptAll_append (x : Bridge × MemoryStore) (ps later : List Attempt) :
    attemptAll x (ps ++ later) = attemptAll (attemptAll x ps) later := List.foldl_append

/-- **A bridge recovers from writes that fail.** Take a bridge that starts idle over a
store in memory with room for the keyboard bytes, and let writes fail for some
actions and the machine overwrite any byte. The keyboard, its counters and its
held keys, is what it would be if no write had failed. So is the joystick if one
leaves it out each time that letting all keys go failed. Whenever an event changed
the keyboard, or all keys were let go, and that succeeded, the two keyboard bytes
show the keyboard, and they do so until the machine overwrites one of them or
publishing the keyboard fails. -/
theorem published_again_after_faults (hv : l.Valid) {m : Matrix} (hm : m.Built)
    (port : Option Port) {s : MemoryStore} (hlen : l.minLen.toNat ≤ s.bytes.size)
    (ps : List Attempt) :
    let x := (idle l m port, s)
    let y := attemptAll x ps
    y.1.keyboard = (attemptAll x (ps.map .calm)).1.keyboard ∧
    y.1 = (calmAll x (spare x ps)).1 ∧
    (∀ before p later, ps = before ++ p :: later →
      let u := attemptAll x before
      u.1.Publishes .keyboard p.action → (attempt u p).1 = .ok () →
        Undisturbed (attempt u p).2 later → ShowsStatus y) := by
  intro x y
  have h : Steady l s.bytes.size x := steady_idle hv hm port hlen
  refine ⟨keyboard_attemptAll ps h h rfl rfl, attemptAll_eq_calmAll ps h h rfl, ?_⟩
  rintro before p later rfl u hp hok hlater
  have hu : Steady l s.bytes.size u := h.after_attemptAll before
  have hy : y = attemptAll (attempt u p).2 later := attemptAll_append x before (p :: later)
  rw [hy]
  exact (hu.after_attempt p).showsStatus_attemptAll later hlater (hu.showsStatus_of_publishes hp hok)

/-- A press is lost, the machine overwrites the column byte, and letting all keys go
fails while the joystick fires. The next press is shown, and the joystick goes on
to fire. -/
theorem press_shown_after_lost_release :
    let l : Layout := ⟨2, 2⟩
    let x := (idle l .standard (some .one), MemoryStore.zeroed 7)
    let before : List Attempt :=
      [⟨false, .event ⟨.down, .keypad0⟩⟩, ⟨true, .event ⟨.down, .space⟩⟩, ⟨false, .poke 4 9⟩,
        ⟨true, .releaseAll⟩]
    let p : Attempt := ⟨false, .event ⟨.down, .space⟩⟩
    let y := attemptAll x (before ++ [p])
    l.Valid ∧ Matrix.standard.Built ∧ l.minLen.toNat ≤ (MemoryStore.zeroed 7).bytes.size ∧
    y.1.keyboard = (attemptAll x ((before ++ [p]).map .calm)).1.keyboard ∧
    y.1 = (calmAll x (spare x (before ++ [p]))).1 ∧
    (spare x (before ++ [p]))[3]? = some .releaseKeyboard ∧
    y.1.keyboard.held = [.space] ∧ y.1.joystickHeld = [.keypad0] ∧ ShowsStatus y := by
  intro l x before p y
  have hv : l.Valid := rfl
  have hlen : l.minLen.toNat ≤ (MemoryStore.zeroed 7).bytes.size := by decide
  have hp : (attemptAll x before).1.Publishes .keyboard p.action :=
    ⟨by decide +kernel, ⟨16, 128⟩, 1, by decide +kernel⟩
  have hok : (attempt (attemptAll x before) p).1 = .ok () :=
    ((steady_idle hv .standard (some .one) hlen).after_attemptAll before |>.attempt_calm p.action).1
  obtain ⟨hkeyboard, hbridge, hshows⟩ :=
    published_again_after_faults hv .standard (some .one) hlen (before ++ [p])
  have hspared : (spare x (before ++ [p]))[3]? = some .releaseKeyboard := by decide +kernel
  have hheld : y.1.keyboard.held = [.space] := by decide +kernel
  have hjoystick : y.1.joystickHeld = [.keypad0] := by decide +kernel
  have hy : ShowsStatus y := hshows before p [] rfl hp hok trivial
  rw [show (idle l .standard (some .one), MemoryStore.zeroed 7) = x from rfl,
    show attemptAll x (before ++ [p]) = y from rfl] at hkeyboard
  exact ⟨hv, .standard, hlen, hkeyboard, hbridge, hspared, hheld, hjoystick, hy⟩

end Bridge
end ScreenBridge
