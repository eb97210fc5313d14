/-
# Where an event goes

An event goes to the joystick if that takes its key and to the keyboard
otherwise, and what it does to the bridge can be told without a store
(`Bridge.after`, `snd_route`). It changes one of the two parts and publishes that
part as it then is (`fst_route_of_publishes`), or it changes and publishes
nothing (`agree_after`, `fst_route_cases`). The part that has a key holds it
after an event of that key if the key went down (`Sound.mem_held_after`).

Key definitions: `BridgeAction`, `Bridge.takes`, `Bridge.AppliesToKeyboard`,
`Bridge.AppliesToJoystick`, `Bridge.after`, `Bridge.Part`, `Bridge.Publishes`,
`Bridge.Sound`.
Key theorems: `Bridge.snd_route`, `Bridge.fst_route_of_publishes`,
`Bridge.agree_after`, `Bridge.Sound.after`, `Bridge.Sound.mem_held_after`.
-/
import ScreenBridge.Bridge
import ScreenBridge.Proofs.Joystick
import ScreenBridge.Proofs.Keyboard

namespace ScreenBridge

/-- What happens to a bridge and its store: a key moves, all keys are let go, or
the machine puts a byte into the store. -/
inductive BridgeAction
  | event (e : Event)
  | releaseAll
  | poke (offset : UInt64) (value : UInt8)
  deriving DecidableEq, Repr

namespace Bridge

/-- A bridge on which no key is held. -/
def idle (l : Layout) (m : Matrix) (port : Option Port) : Bridge := ⟨l, .idle m, port.map .idle⟩

/-! ### Routing -/

/-- Does the joystick take the key? -/
def takes (b : Bridge) (key : Key) : Bool := b.joystick.isSome && Joystick.isKey key

/-- The event changes the keyboard. -/
def AppliesToKeyboard (b : Bridge) (e : Event) : Prop :=
  b.takes e.key = false ∧ ∃ status n, (b.keyboard.apply e).1 = .applied status n

/-- The event changes the joystick. -/
def AppliesToJoystick (b : Bridge) (e : Event) : Prop :=
  ∃ j state, b.joystick = some j ∧ (j.apply e).1 = .changed state

/-- The bytes that publish the state of the joystick, if there is one. -/
def joystickWrites (b : Bridge) (size : ℕ) : List (UInt64 × UInt8) :=
  match b.joystick with
  | none => []
  | some j => portWrites b.layout j.port j.state size

/-- The bridge after an action. -/
def after (b : Bridge) : BridgeAction → Bridge
  | .event e =>
    { b with
      keyboard := if b.takes e.key then b.keyboard else (b.keyboard.apply e).2
      joystick := b.joystick.map fun j => (j.apply e).2 }
  | .releaseAll =>
    { b with
      keyboard := b.keyboard.releaseAll
      joystick := b.joystick.map .releaseAll }
  | .poke .. => b

variable {b : Bridge} {e : Event}

theorem not_takes_of_none (hj : b.joystick = none) (key : Key) : b.takes key = false := by
  simp [takes, hj]

theorem takes_of_some {j : Joystick} (hj : b.joystick = some j) (key : Key) :
    b.takes key = Joystick.isKey key := by
  simp [takes, hj]

theorem appliesToJoystick_iff {j : Joystick} (hj : b.joystick = some j) :
    b.AppliesToJoystick e ↔ ∃ state, (j.apply e).1 = .changed state := by
  simp [AppliesToJoystick, hj]

/-- An event that the joystick takes changes the joystick or nothing. -/
theorem route_of_takes (size : ℕ) (ht : b.takes e.key = true) :
    (b.AppliesToJoystick e ∧
      b.route e size = ((b.after (.event e)).joystickWrites size, b.after (.event e))) ∨
    (¬ b.AppliesToJoystick e ∧ b.route e size = ([], b.after (.event e))) := by
  cases hj : b.joystick with
  | none => rw [not_takes_of_none hj] at ht; cases ht
  | some j =>
    have hafter : b.after (.event e) = { b with joystick := some (j.apply e).2 } := by
      simp [after, ht, hj]
    rw [takes_of_some hj] at ht
    rw [appliesToJoystick_iff hj, hafter]
    rcases Joystick.apply_cases j e with ⟨hk, -⟩ | ⟨-, -, h⟩ | ⟨-, -, -, h⟩ | ⟨-, -, -, h⟩
    · rw [hk] at ht; cases ht
    · exact Or.inr ⟨by simp [h], by simp [route, hj, h]⟩
    · exact Or.inl ⟨by simp [h], by simp [route, hj, h, joystickWrites]⟩
    · exact Or.inl ⟨by simp [h], by simp [route, hj, h, joystickWrites]⟩

/-- An event that the joystick does not take changes the keyboard or nothing. -/
theorem route_of_not_takes (size : ℕ) (ht : b.takes e.key = false) :
    ¬ b.AppliesToJoystick e ∧
    ((b.AppliesToKeyboard e ∧
      b.route e size =
        (statusWrites b.layout (b.after (.event e)).keyboard.status, b.after (.event e))) ∨
    (¬ b.AppliesToKeyboard e ∧ b.route e size = ([], b.after (.event e)))) := by
  have hjoy : ∀ j, b.joystick = some j → j.apply e = (.notJoystick, j) := by
    intro j hj
    rw [takes_of_some hj] at ht
    simp [Joystick.apply, ht]
  have hroute : b.route e size = b.applyToKeyboard e := by
    unfold route
    cases hj : b.joystick with
    | none => rfl
    | some j => simp [hjoy j hj]
  have hafter : b.after (.event e) = { b with keyboard := (b.keyboard.apply e).2 } := by
    cases hj : b.joystick with
    | none => simp [after, ht, hj]
    | some j => simp [after, ht, hj, hjoy j hj]
  refine ⟨?_, ?_⟩
  · rintro ⟨j, state, hj, h⟩
    rw [hjoy j hj] at h
    cases h
  · rw [hroute, hafter]
    unfold AppliesToKeyboard applyToKeyboard
    rcases Keyboard.apply_cases b.keyboard e with ⟨-, h⟩ | ⟨-, -, -, h⟩ | ⟨-, -, -, h⟩ |
      ⟨-, -, -, h⟩ | ⟨-, -, -, h⟩ <;> simp [h, ht]

theorem snd_route (b : Bridge) (e : Event) (size : ℕ) :
    (b.route e size).2 = b.after (.event e) := by
  by_cases ht : b.takes e.key = true
  · rcases route_of_takes size ht with ⟨-, h⟩ | ⟨-, h⟩ <;> rw [h]
  · rcases route_of_not_takes size (eq_false_of_ne_true ht) with ⟨-, ⟨-, h⟩ | ⟨-, h⟩⟩ <;>
      rw [h]

theorem fst_route_of_joystick (size : ℕ) (h : b.AppliesToJoystick e) :
    (b.route e size).1 = (b.after (.event e)).joystickWrites size := by
  by_cases ht : b.takes e.key = true
  · rcases route_of_takes size ht with ⟨-, h'⟩ | ⟨hn, -⟩
    · rw [h']
    · exact absurd h hn
  · exact absurd h (route_of_not_takes size (eq_false_of_ne_true ht)).1

theorem fst_route_of_keyboard (size : ℕ) (h : b.AppliesToKeyboard e) :
    (b.route e size).1 = statusWrites b.layout (b.after (.event e)).keyboard.status := by
  rcases (route_of_not_takes size h.1).2 with ⟨-, h'⟩ | ⟨hn, -⟩
  · rw [h']
  · exact absurd h hn

theorem fst_route_of_neither (size : ℕ) (hk : ¬ b.AppliesToKeyboard e)
    (hj : ¬ b.AppliesToJoystick e) :
    (b.route e size).1 = [] := by
  by_cases ht : b.takes e.key = true
  · rcases route_of_takes size ht with ⟨h, -⟩ | ⟨-, h⟩
    · exact absurd h hj
    · rw [h]
  · rcases (route_of_not_takes size (eq_false_of_ne_true ht)).2 with ⟨h, -⟩ | ⟨-, h⟩
    · exact absurd h hk
    · rw [h]

theorem keyboard_after_eq (h : ¬ b.AppliesToKeyboard e) :
    (b.after (.event e)).keyboard = b.keyboard := by
  by_cases ht : b.takes e.key = true
  · simp [after, ht]
  · have hne : ∀ status n, (b.keyboard.apply e).1 ≠ .applied status n :=
      fun status n ha => h ⟨eq_false_of_ne_true ht, status, n, ha⟩
    simp [after, ht, Keyboard.apply_eq_self hne]

theorem joystick_after_eq (h : ¬ b.AppliesToJoystick e) :
    (b.after (.event e)).joystick = b.joystick := by
  cases hj : b.joystick with
  | none => simp [after, hj]
  | some j =>
    have hne : ∀ state, (j.apply e).1 ≠ .changed state := fun state hc => h ⟨j, state, hj, hc⟩
    simp [after, hj, Joystick.apply_eq_self hne]

/-! ### The two parts of a bridge -/

/-- The keys that the joystick holds. -/
def joystickHeld (b : Bridge) : List Key :=
  match b.joystick with
  | none => []
  | some j => j.held

/-- The keyboard or the joystick. -/
inductive Part
  | keyboard
  | joystick
  deriving DecidableEq, Repr

/-- The keys that a part holds. -/
def held (b : Bridge) : Part → List Key
  | .keyboard => b.keyboard.held
  | .joystick => b.joystickHeld

/-- Events of the key reach the part and it knows the key. -/
def Has (b : Bridge) (key : Key) : Part → Prop
  | .keyboard => b.takes key = false ∧ b.keyboard.matrix.cellsFor key ≠ []
  | .joystick => b.takes key = true

instance (b : Bridge) (key : Key) : (part : Part) → Decidable (b.Has key part)
  | .keyboard => inferInstanceAs (Decidable (b.takes key = false ∧ _ ≠ []))
  | .joystick => inferInstanceAs (Decidable (b.takes key = true))

/-- The bytes that publish a part in a store of some size. -/
def writes (b : Bridge) (size : ℕ) : Part → List (UInt64 × UInt8)
  | .keyboard => statusWrites b.layout b.keyboard.status
  | .joystick => b.joystickWrites size

/-- The action publishes the part. -/
def Publishes (b : Bridge) : Part → BridgeAction → Prop
  | .keyboard, .event e => b.AppliesToKeyboard e
  | .joystick, .event e => b.AppliesToJoystick e
  | _, .releaseAll => True
  | _, .poke .. => False

/-- A part is the same on both bridges. -/
def Agree (b b' : Bridge) : Part → Prop
  | .keyboard => b.keyboard = b'.keyboard
  | .joystick => b.joystick = b'.joystick

/-- An event that publishes a part publishes what it is after the event. -/
theorem fst_route_of_publishes (size : ℕ) {part : Part} (h : b.Publishes part (.event e)) :
    (b.route e size).1 = (b.after (.event e)).writes size part := by
  cases part with
  | keyboard => exact fst_route_of_keyboard size h
  | joystick => exact fst_route_of_joystick size h

theorem fst_route_cases (b : Bridge) (e : Event) (size : ℕ) :
    (b.route e size).1 = [] ∨ ∃ part, b.Publishes part (.event e) := by
  by_cases hk : b.AppliesToKeyboard e
  · exact Or.inr ⟨.keyboard, hk⟩
  · by_cases hj : b.AppliesToJoystick e
    · exact Or.inr ⟨.joystick, hj⟩
    · exact Or.inl (fst_route_of_neither size hk hj)

/-- A part that an action does not publish is left as it is. -/
theorem agree_after {a : BridgeAction} {part : Part} (h : ¬ b.Publishes part a) :
    (b.after a).Agree b part := by
  cases a with
  | event e =>
    cases part with
    | keyboard => exact keyboard_after_eq h
    | joystick => exact joystick_after_eq h
  | releaseAll => cases part <;> exact absurd trivial h
  | poke offset value => cases part <;> exact rfl

theorem Agree.refl (b : Bridge) (part : Part) : b.Agree b part := by
  cases part <;> exact rfl

theorem Agree.trans {b' b'' : Bridge} {part : Part} (h : b.Agree b' part) (h' : b'.Agree b'' part) :
    b.Agree b'' part := by
  cases part <;> exact Eq.trans h h'

theorem Agree.held_eq {b' : Bridge} {part : Part} (h : b.Agree b' part) :
    b.held part = b'.held part := by
  cases part with
  | keyboard => exact congrArg Keyboard.held h
  | joystick => unfold held joystickHeld; rw [show b.joystick = b'.joystick from h]

theorem Agree.writes_eq {b' : Bridge} {part : Part} (h : b.Agree b' part)
    (hl : b.layout = b'.layout) (size : ℕ) : b.writes size part = b'.writes size part := by
  cases part with
  | keyboard => unfold writes; rw [hl, show b.keyboard = b'.keyboard from h]
  | joystick => unfold writes joystickWrites; rw [hl, show b.joystick = b'.joystick from h]

/-! ### Held keys -/

/-- The keyboard's counters count, and the joystick holds its own keys once. -/
structure Sound (b : Bridge) : Prop where
  keyboard : b.keyboard.Sound
  joystick : ∀ j, b.joystick = some j → j.Sound

theorem sound_idle (l : Layout) {m : Matrix} (hm : m.Built) (port : Option Port) :
    (idle l m port).Sound where
  keyboard := Keyboard.sound_idle hm
  joystick j hj := by
    obtain ⟨p, -, rfl⟩ := Option.map_eq_some_iff.mp hj
    exact Joystick.sound_of_none_held rfl

theorem Sound.after (h : b.Sound) (a : BridgeAction) : (b.after a).Sound where
  keyboard := by
    cases a with
    | event e =>
      unfold Bridge.after
      dsimp only
      split
      · exact h.keyboard
      · exact h.keyboard.apply e
    | releaseAll => exact h.keyboard.releaseAll
    | poke offset value => exact h.keyboard
  joystick j hj := by
    cases a with
    | event e =>
      obtain ⟨j', hj', rfl⟩ := Option.map_eq_some_iff.mp hj
      exact (h.joystick j' hj').apply e
    | releaseAll =>
      obtain ⟨j', -, rfl⟩ := Option.map_eq_some_iff.mp hj
      exact Joystick.sound_releaseAll j'
    | poke offset value => exact h.joystick j hj

theorem layout_after (b : Bridge) (a : BridgeAction) : (b.after a).layout = b.layout := by
  cases a <;> rfl

theorem matrix_after (b : Bridge) (a : BridgeAction) :
    (b.after a).keyboard.matrix = b.keyboard.matrix := by
  cases a with
  | event e =>
    unfold after
    dsimp only
    split
    · rfl
    · exact Keyboard.matrix_apply _ e
  | releaseAll => rfl
  | poke offset value => rfl

theorem port_after (b : Bridge) (a : BridgeAction) :
    (b.after a).joystick.map (·.port) = b.joystick.map (·.port) := by
  cases a with
  | event e =>
    simp only [after, Option.map_map]
    exact Option.map_congr fun j _ => Joystick.port_apply j e
  | releaseAll => simp only [after, Option.map_map]; rfl
  | poke offset value => rfl

theorem takes_after (b : Bridge) (a : BridgeAction) (key : Key) :
    (b.after a).takes key = b.takes key := by
  have h := congrArg Option.isSome (port_after b a)
  rw [Option.isSome_map, Option.isSome_map] at h
  rw [takes, takes, h]

theorem has_after (b : Bridge) (a : BridgeAction) (key : Key) (part : Part) :
    (b.after a).Has key part ↔ b.Has key part := by
  cases part with
  | keyboard => unfold Has; rw [takes_after, matrix_after]
  | joystick => unfold Has; rw [takes_after]

@[simp] theorem held_idle (l : Layout) (m : Matrix) (port : Option Port) (part : Part) :
    (idle l m port).held part = [] := by
  cases part with
  | keyboard => rfl
  | joystick => cases port <;> rfl

@[simp] theorem held_after_releaseAll (b : Bridge) (part : Part) :
    (b.after .releaseAll).held part = [] := by
  cases part with
  | keyboard => rfl
  | joystick =>
    change (b.after .releaseAll).joystickHeld = []
    cases hj : b.joystick <;> simp [joystickHeld, after, hj, Joystick.releaseAll]

theorem Sound.mem_keyboardHeld_after (h : b.Sound) (e : Event) (key : Key) :
    key ∈ (b.after (.event e)).keyboard.held ↔
      if key = e.key ∧ b.takes key = false ∧ b.keyboard.matrix.cellsFor key ≠ [] then
        e.motion = .down
      else key ∈ b.keyboard.held := by
  by_cases ht : b.takes e.key = true
  · have hne : ¬ (key = e.key ∧ b.takes key = false ∧ b.keyboard.matrix.cellsFor key ≠ []) := by
      rintro ⟨rfl, hf, -⟩
      rw [hf] at ht
      cases ht
    simp [Bridge.after, ht, hne]
  · have hkb : (b.after (.event e)).keyboard = (b.keyboard.apply e).2 := by simp [Bridge.after, ht]
    rw [hkb, h.keyboard.mem_held_apply e key]
    refine iff_of_eq (if_congr ⟨?_, fun hc => ⟨hc.1, hc.2.2⟩⟩ rfl rfl)
    rintro ⟨rfl, hc⟩
    exact ⟨rfl, eq_false_of_ne_true ht, hc⟩

theorem Sound.mem_joystickHeld_after (h : b.Sound) (e : Event) (key : Key) :
    key ∈ (b.after (.event e)).joystickHeld ↔
      if key = e.key ∧ b.takes key = true then e.motion = .down else key ∈ b.joystickHeld := by
  cases hj : b.joystick with
  | none => simp [joystickHeld, Bridge.after, hj, not_takes_of_none hj]
  | some j =>
    rw [takes_of_some hj]
    simp only [joystickHeld, Bridge.after, hj, Option.map_some]
    exact (h.joystick j hj).mem_held_apply e key

/-- An event decides about its key on the part that has it, and about no other key
there. -/
theorem Sound.mem_held_after (h : b.Sound) (e : Event) (key : Key) (part : Part) :
    key ∈ (b.after (.event e)).held part ↔
      if key = e.key ∧ b.Has key part then e.motion = .down else key ∈ b.held part := by
  cases part with
  | keyboard =>
    exact (h.mem_keyboardHeld_after e key).trans (iff_of_eq (if_congr Iff.rfl rfl rfl))
  | joystick =>
    exact (h.mem_joystickHeld_after e key).trans (iff_of_eq (if_congr Iff.rfl rfl rfl))

end Bridge
end ScreenBridge
