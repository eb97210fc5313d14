/-
# The joystick byte shows the held directions

Of the keys that go down and up the joystick holds those of its own whose last
motion was down, each of them once (`Sound.mem_held_apply`), and its byte has
exactly the bits of the held keys set (`testBit_state`).

Key definitions: `Joystick.Sound`.
Key theorems: `Joystick.Sound.apply`, `Joystick.Sound.mem_held_apply`,
`Joystick.testBit_state`.
-/
import ScreenBridge.Joystick
import ScreenBridge.Proofs.Counters

namespace ScreenBridge
namespace Joystick

variable {j : Joystick}

/-- The keys a joystick can hold, each of them once. -/
structure Sound (j : Joystick) : Prop where
  nodup : j.held.Nodup
  keys : ∀ key ∈ j.held, isKey key = true

theorem sound_of_none_held (h : j.held = []) : j.Sound where
  nodup := h ▸ List.nodup_nil
  keys := by simp [h]

/-- What an event does: nothing, with the reason, or it holds its key or lets it
go. -/
theorem apply_cases (j : Joystick) (e : Event) :
    (isKey e.key = false ∧ j.apply e = (.notJoystick, j)) ∨
    (isKey e.key = true ∧ (e.key ∈ j.held ↔ e.motion = .down) ∧ j.apply e = (.unchanged, j)) ∨
    (isKey e.key = true ∧ e.motion = .down ∧ e.key ∉ j.held ∧
      j.apply e = (.changed (state { j with held := e.key :: j.held }),
        { j with held := e.key :: j.held })) ∨
    (isKey e.key = true ∧ e.motion = .up ∧ e.key ∈ j.held ∧
      j.apply e = (.changed (state { j with held := j.held.erase e.key }),
        { j with held := j.held.erase e.key })) := by
  unfold apply
  by_cases hj : isKey e.key = true
  · cases hm : e.motion <;> by_cases hk : e.key ∈ j.held <;> simp [hj, hk]
  · simp [hj]

theorem port_apply (j : Joystick) (e : Event) : (j.apply e).2.port = j.port := by
  rcases apply_cases j e with ⟨-, h⟩ | ⟨-, -, h⟩ | ⟨-, -, -, h⟩ | ⟨-, -, -, h⟩ <;> rw [h]

theorem apply_eq_self {e : Event} (h : ∀ state', (j.apply e).1 ≠ .changed state') :
    (j.apply e).2 = j := by
  rcases apply_cases j e with ⟨-, h'⟩ | ⟨-, -, h'⟩ | ⟨-, -, -, h'⟩ | ⟨-, -, -, h'⟩
  · rw [h']
  · rw [h']
  · exact absurd (congrArg Prod.fst h') (h _)
  · exact absurd (congrArg Prod.fst h') (h _)

theorem Sound.apply (h : j.Sound) (e : Event) : (j.apply e).2.Sound := by
  rcases apply_cases j e with ⟨-, h'⟩ | ⟨-, -, h'⟩ | ⟨hj, -, hk, h'⟩ | ⟨-, -, -, h'⟩ <;> rw [h']
  · exact h
  · exact h
  · exact ⟨List.nodup_cons.mpr ⟨hk, h.nodup⟩, List.forall_mem_cons.mpr ⟨hj, h.keys⟩⟩
  · exact ⟨h.nodup.erase _, fun key hm => h.keys key (List.mem_of_mem_erase hm)⟩

theorem sound_releaseAll (j : Joystick) : j.releaseAll.Sound := sound_of_none_held rfl

/-- An event decides about its key, if the joystick has that, and about no other. -/
theorem Sound.mem_held_apply (h : j.Sound) (e : Event) (key : Key) :
    key ∈ (j.apply e).2.held ↔
      if key = e.key ∧ isKey key = true then e.motion = .down else key ∈ j.held := by
  by_cases hx : key = e.key
  · subst hx
    rcases apply_cases j e with ⟨hj, h'⟩ | ⟨hj, hk, h'⟩ | ⟨hj, hm, hk, h'⟩ | ⟨hj, hm, hk, h'⟩
    · simp [h', hj]
    · simp [h', hj, hk]
    · simp [h', hj, hm]
    · simp [h', hj, hm, h.nodup.mem_erase_iff]
  · rcases apply_cases j e with ⟨-, h'⟩ | ⟨-, -, h'⟩ | ⟨-, -, -, h'⟩ | ⟨-, -, -, h'⟩
    · simp [h', hx]
    · simp [h', hx]
    · simp [h', hx]
    · simp [h', hx, h.nodup.mem_erase_iff]

theorem lt_of_bit? {key : Key} {bit : UInt8} (h : bit? key = some bit) : bit.toNat < 5 := by
  revert h
  cases key <;> simp only [bit?, reduceCtorEq, Option.some.injEq, false_implies] <;> rintro rfl <;>
    decide

/-- A bit of the joystick's byte is set exactly while the key of that bit is
held. -/
theorem testBit_state (j : Joystick) (n : Fin 8) :
    j.state.toNat.testBit n = true ↔ ∃ key ∈ j.held, bit? key = some (UInt8.ofNat n) := by
  rw [state, testBit_foldl_or]
  constructor
  · rintro (h | ⟨bit, hb, h⟩)
    · simp at h
    · obtain ⟨key, hk, hbit⟩ := List.mem_filterMap.mp hb
      have hlt := lt_of_bit? hbit
      have hof : bit = UInt8.ofNat (⟨bit.toNat, by omega⟩ : Fin 8) := UInt8.ofNat_toNat.symm
      rw [hof] at h
      have hn := (testBit_one_shiftLeft _ n).mp h
      exact ⟨key, hk, by rw [hbit, hof, hn]⟩
  · rintro ⟨key, hk, hbit⟩
    exact Or.inr ⟨_, List.mem_filterMap.mpr ⟨key, hk, hbit⟩, (testBit_one_shiftLeft n n).mpr rfl⟩

end Joystick
end ScreenBridge
