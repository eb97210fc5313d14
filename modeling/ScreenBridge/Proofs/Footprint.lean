/-
# A bridge writes only its own bytes

However a list of bytes is written into a store in memory, nothing changes but
bytes at its offsets and the log (`MemoryStore.wrote_writeAll`). A list that is
taken as a whole is logged as it is (`MemoryStore.log_writeAll`), and while writes
are told to fail the first one does (`MemoryStore.writeAll_of_failing`).

A bridge writes to the two keyboard bytes and to the byte of its joystick's port,
whether or not that succeeds (`Bridge.confined_applyAll`,
`Bridge.confined_releaseAll`). While writes succeed, the log tells exactly what an
event and what letting all keys go publish (`Bridge.log_apply`,
`Bridge.log_releaseAll`).

Key definitions: `MemoryStore.Wrote`, `Bridge.Owns`, `Bridge.Confined`,
`Bridge.joystickBytes`.
Key theorems: `MemoryStore.wrote_writeAll`, `MemoryStore.log_writeAll`,
`Bridge.confined_applyAll`, `Bridge.confined_releaseAll`, `Bridge.log_apply`,
`Bridge.log_releaseAll`.
-/
import ScreenBridge.Proofs.Bridge

namespace ScreenBridge
namespace MemoryStore

open ByteStore

variable {own : UInt64 → Prop} {s t u : MemoryStore}

/-- Between two moments only bytes at some offsets were written. -/
structure Wrote (own : UInt64 → Prop) (s t : MemoryStore) : Prop where
  size_eq : t.bytes.size = s.bytes.size
  failReads_eq : t.failReads = s.failReads
  failWrites_eq : t.failWrites = s.failWrites
  byteAt_eq : ∀ offset, ¬ own offset → byteAt t offset = byteAt s offset

theorem Wrote.refl (own : UInt64 → Prop) (s : MemoryStore) : Wrote own s s :=
  ⟨rfl, rfl, rfl, fun _ _ => rfl⟩

theorem Wrote.trans (h : Wrote own s t) (h' : Wrote own t u) : Wrote own s u where
  size_eq := h'.size_eq.trans h.size_eq
  failReads_eq := h'.failReads_eq.trans h.failReads_eq
  failWrites_eq := h'.failWrites_eq.trans h.failWrites_eq
  byteAt_eq offset ho := (h'.byteAt_eq offset ho).trans (h.byteAt_eq offset ho)

/-- A write puts the byte and logs its offset, or it is refused and changes
nothing. -/
theorem write_cases (s : MemoryStore) (offset : UInt64) (value : UInt8) :
    (s.failWrites = false ∧ s.write offset value =
      (.ok (), { s with
        bytes := s.bytes.setIfInBounds offset.toNat value
        log := s.log.push offset })) ∨
    ∃ cause, s.write offset value = (.error (.write offset cause), s) := by
  unfold write
  cases hf : s.failWrites with
  | true => exact Or.inr ⟨_, if_pos rfl⟩
  | false =>
    rw [if_neg Bool.false_ne_true]
    split
    · exact Or.inl ⟨rfl, rfl⟩
    · exact Or.inr ⟨_, rfl⟩

theorem wrote_write {offset : UInt64} (ho : own offset) (s : MemoryStore) (value : UInt8) :
    Wrote own s (s.write offset value).2 := by
  rcases write_cases s offset value with ⟨-, h⟩ | ⟨cause, h⟩
  · rw [h]
    refine ⟨Array.size_setIfInBounds, rfl, rfl, fun other hother => ?_⟩
    refine Array.getElem?_setIfInBounds_ne fun heq => hother ?_
    rw [← UInt64.toNat_inj.mp heq]
    exact ho
  · rw [h]
    exact Wrote.refl own s

/-- Writing a list of bytes changes nothing but bytes at its offsets. -/
theorem wrote_writeAll : ∀ (writes : List (UInt64 × UInt8)) (s : MemoryStore),
    (∀ w ∈ writes, own w.1) → Wrote own s (Store.writeAll s writes).2
  | [], s, _ => Wrote.refl own s
  | (offset, value) :: writes, s, h => by
    have hfirst := wrote_write (h _ List.mem_cons_self) s value
    have hrest := wrote_writeAll writes (s.write offset value).2 fun w hw =>
      h w (List.mem_cons_of_mem _ hw)
    rw [Store.writeAll]
    rcases hw : s.write offset value with ⟨_ | _, s'⟩
    · rw [hw] at hfirst
      rw [show Store.write s offset value = _ from hw]
      exact hfirst
    · rw [hw] at hfirst hrest
      rw [show Store.write s offset value = _ from hw]
      exact hfirst.trans hrest

/-- A list of bytes that is taken as a whole is logged in its order. -/
theorem log_writeAll : ∀ (writes : List (UInt64 × UInt8)) (s : MemoryStore),
    (Store.writeAll s writes).1 = .ok () →
    (Store.writeAll s writes).2.log.toList = s.log.toList ++ writes.map (·.1)
  | [], s, _ => (List.append_nil _).symm
  | (offset, value) :: writes, s, hok => by
    rw [Store.writeAll] at hok ⊢
    rcases write_cases s offset value with ⟨-, h⟩ | ⟨cause, h⟩
    · rw [show Store.write s offset value = _ from h] at hok ⊢
      refine (log_writeAll writes _ hok).trans ?_
      simp
    · rw [show Store.write s offset value = _ from h] at hok
      cases hok

theorem writeAll_of_failing (hf : s.failWrites = true) {writes : List (UInt64 × UInt8)}
    (hne : writes ≠ []) : ∃ e, Store.writeAll s writes = (.error e, s) := by
  obtain ⟨⟨offset, value⟩, rest, rfl⟩ := List.exists_cons_of_ne_nil hne
  rcases write_cases s offset value with ⟨hf', -⟩ | ⟨cause, h⟩
  · rw [hf] at hf'
    cases hf'
  · exact ⟨_, by rw [Store.writeAll, show Store.write s offset value = _ from h]⟩

theorem poke_eq (s : MemoryStore) (place : UInt64) (value : UInt8) :
    ByteStore.poke s place value = { s with bytes := s.bytes.setIfInBounds place.toNat value } := by
  by_cases h : place.toNat < s.bytes.size
  · simp only [ByteStore.poke, setByte, if_pos h]
  · simp only [ByteStore.poke, setByte, if_neg h,
      Array.setIfInBounds_eq_of_size_le (Nat.le_of_not_lt h)]

theorem size_poke (s : MemoryStore) (place : UInt64) (value : UInt8) :
    (ByteStore.poke s place value).bytes.size = s.bytes.size := by
  rw [poke_eq, Array.size_setIfInBounds]

/-- The machine changes the byte at the offset alone, and none outside the store. -/
theorem byteAt_poke (s : MemoryStore) (place offset : UInt64) (value : UInt8) :
    byteAt (ByteStore.poke s place value) offset =
      if place = offset then (byteAt s offset).map fun _ => value else byteAt s offset := by
  change (ByteStore.poke s place value).bytes[offset.toNat]? = _
  rw [poke_eq]
  change _ = if place = offset then s.bytes[offset.toNat]?.map _ else s.bytes[offset.toNat]?
  split
  · rename_i h
    subst h
    rw [Array.getElem?_setIfInBounds_self]
    split
    · rename_i hlt
      rw [Array.getElem?_eq_getElem hlt]
      rfl
    · rename_i hout
      rw [Array.getElem?_eq_none (Nat.le_of_not_lt hout)]
      rfl
  · rename_i h
    exact Array.getElem?_setIfInBounds_ne fun heq => h (UInt64.toNat_inj.mp heq)

end MemoryStore

namespace Bridge

open MemoryStore

variable {s : MemoryStore} {writes : List (UInt64 × UInt8)}

theorem wrote_publish {own : UInt64 → Prop} (s : MemoryStore) (h : ∀ w ∈ writes, own w.1) :
    Wrote own s (publish s writes).2 := by
  have hw := wrote_writeAll writes s h
  unfold publish
  rcases hx : Store.writeAll s writes with ⟨_ | _, t⟩
  · rw [hx] at hw
    exact hw
  · rw [hx] at hw
    exact hw

theorem size_publish (s : MemoryStore) (writes : List (UInt64 × UInt8)) :
    (publish s writes).2.bytes.size = s.bytes.size :=
  (wrote_publish s fun _ _ => trivial : Wrote (fun _ => True) s (publish s writes).2).size_eq

theorem failWrites_publish (s : MemoryStore) (writes : List (UInt64 × UInt8)) :
    (publish s writes).2.failWrites = s.failWrites :=
  (wrote_publish s fun _ _ => trivial : Wrote (fun _ => True) s (publish s writes).2).failWrites_eq

/-- Bytes inside a store that takes them are published and logged. -/
theorem log_publish (hf : s.failWrites = false)
    (h : ∀ w ∈ writes, w.1.toNat < s.bytes.size ∧ w.1.toNat + 1 < UInt64.size) :
    (publish s writes).1 = .ok () ∧
      (publish s writes).2.log.toList = s.log.toList ++ writes.map (·.1) := by
  have hok := (ByteStore.writeAll_eq writes s hf h).1
  have hlog := log_writeAll writes s hok
  unfold publish
  rcases hx : Store.writeAll s writes with ⟨_ | _, t⟩
  · rw [hx] at hok
    cases hok
  · rw [hx] at hlog
    exact ⟨rfl, hlog⟩

theorem publish_of_failing (hf : s.failWrites = true) (hne : writes ≠ []) :
    ∃ e, publish s writes = (.error e, s) := by
  obtain ⟨e, h⟩ := writeAll_of_failing hf hne
  exact ⟨.store e, by rw [publish, h]⟩

/-! ### The bytes of a bridge -/

variable {b : Bridge} {e : Event} {size : ℕ} {offset : UInt64}

/-- The two keyboard bytes and the byte of the joystick's port belong to a bridge. -/
def Owns (b : Bridge) (offset : UInt64) : Prop :=
  offset = b.layout.colOffset ∨ offset = b.layout.rowOffset ∨
    ∃ p, b.joystick.map (·.port) = some p ∧ b.layout.joystickOffset p.number = some offset

/-- Where the byte of the joystick lies, if there is one and it lies in the store. -/
def joystickBytes (b : Bridge) (size : ℕ) : List UInt64 :=
  match (b.joystick.map (·.port)).bind fun p => b.layout.joystickOffset p.number with
  | none => []
  | some offset => if offset.toNat < size then [offset] else []

theorem owns_congr {b' : Bridge} (hl : b'.layout = b.layout)
    (hp : b'.joystick.map (·.port) = b.joystick.map (·.port)) :
    b'.Owns offset ↔ b.Owns offset := by
  unfold Owns
  rw [hl, hp]

theorem owns_after (b : Bridge) (a : BridgeAction) (offset : UInt64) :
    (b.after a).Owns offset ↔ b.Owns offset :=
  owns_congr (layout_after b a) (port_after b a)

theorem joystickBytes_after (b : Bridge) (a : BridgeAction) (size : ℕ) :
    (b.after a).joystickBytes size = b.joystickBytes size := by
  unfold joystickBytes
  rw [port_after, layout_after]

theorem map_fst_joystickWrites (b : Bridge) (size : ℕ) :
    (b.joystickWrites size).map (·.1) = b.joystickBytes size := by
  unfold joystickBytes
  cases hj : b.joystick with
  | none => simp [joystickWrites, hj]
  | some j =>
    rw [joystickWrites_of_some hj, Option.map_some, Option.bind_some,
      Layout.joystickOffset_number]
    dsimp only
    split <;> rfl

theorem owns_of_mem_writes {part : Part} {w : UInt64 × UInt8} (hw : w ∈ b.writes size part) :
    b.Owns w.1 := by
  cases part with
  | keyboard =>
    rcases fst_of_mem_writes_keyboard hw with h | h
    · exact Or.inl h
    · exact Or.inr (Or.inl h)
  | joystick =>
    obtain ⟨j, hj, h, -, -⟩ := fst_of_mem_writes_joystick hw
    refine Or.inr (Or.inr ⟨j.port, by rw [hj]; rfl, ?_⟩)
    rw [Layout.joystickOffset_number, h]

theorem owns_of_mem_route {w : UInt64 × UInt8} (hw : w ∈ (b.route e size).1) : b.Owns w.1 := by
  rcases fst_route_cases b e size with h | ⟨part, h⟩
  · rw [h] at hw
    cases hw
  · rw [fst_route_of_publishes size h] at hw
    exact (owns_after b _ _).mp (owns_of_mem_writes hw)

/-! ### Only these bytes change -/

/-- Between two moments a bridge kept its layout and its port, and only bytes that
belong to it were written. -/
structure Confined (x y : Bridge × MemoryStore) : Prop where
  layout_eq : y.1.layout = x.1.layout
  port_eq : y.1.joystick.map (·.port) = x.1.joystick.map (·.port)
  wrote : Wrote x.1.Owns x.2 y.2

theorem Confined.refl (x : Bridge × MemoryStore) : Confined x x := ⟨rfl, rfl, Wrote.refl _ _⟩

theorem Confined.trans {x y z : Bridge × MemoryStore} (h : Confined x y) (h' : Confined y z) :
    Confined x z where
  layout_eq := h'.layout_eq.trans h.layout_eq
  port_eq := h'.port_eq.trans h.port_eq
  wrote := by
    have howns : y.1.Owns = x.1.Owns := funext fun _ => propext (owns_congr h.layout_eq h.port_eq)
    exact h.wrote.trans (howns ▸ h'.wrote)

theorem applyAll_singleton {σ : Type} [Store σ] (b : Bridge) (s : σ) (e : Event) :
    b.applyAll s [e] = b.apply s e := by
  rw [applyAll]
  rcases b.apply s e with ⟨_ | _, b', s'⟩ <;> rfl

theorem confined_apply (b : Bridge) (s : MemoryStore) (e : Event) :
    Confined (b, s) (b.apply s e).2 := by
  rw [apply_eq]
  exact ⟨layout_after b _, port_after b _, wrote_publish s fun w hw => owns_of_mem_route hw⟩

theorem confined_applyAll : ∀ (es : List Event) (b : Bridge) (s : MemoryStore),
    Confined (b, s) (b.applyAll s es).2
  | [], b, s => Confined.refl (b, s)
  | e :: es, b, s => by
    have hfirst := confined_apply b s e
    rw [applyAll]
    rcases hx : b.apply s e with ⟨_ | _, b', s'⟩
    · rw [hx] at hfirst
      exact hfirst
    · rw [hx] at hfirst
      exact hfirst.trans (confined_applyAll es b' s')

theorem confined_releaseAll (b : Bridge) (s : MemoryStore) :
    Confined (b, s) (b.releaseAll s).2 := by
  have howns : ∀ part size, ∀ w ∈ (b.after .releaseAll).writes size part, b.Owns w.1 :=
    fun part size w hw => (owns_after b .releaseAll w.1).mp (owns_of_mem_writes hw)
  rcases releaseAll_cases b s with ⟨err, -, h⟩ | ⟨-, h⟩
  · rw [h]
    exact ⟨rfl, rfl, wrote_publish s (howns .keyboard _)⟩
  · rw [h]
    refine ⟨rfl, port_after b .releaseAll, ?_⟩
    exact (wrote_publish s (howns .keyboard _)).trans (wrote_publish _ (howns .joystick _))

/-! ### What is logged -/

theorem inside_of_mem_writes {a : BridgeAction} {part : Part} (hv : b.layout.Valid)
    (hfits : b.layout.minLen.toNat ≤ size) {w : UInt64 × UInt8}
    (hw : w ∈ (b.after a).writes size part) :
    w.1.toNat < size ∧ w.1.toNat + 1 < UInt64.size := by
  have hl := layout_after b a
  exact (bounds_of_mem_writes (hl ▸ hv) (hl ▸ hfits) hw).2

/-- While writes succeed, an event logs what it publishes. -/
theorem log_apply (hv : b.layout.Valid) (hfits : b.layout.minLen.toNat ≤ s.bytes.size)
    (hf : s.failWrites = false) (e : Event) :
    (b.apply s e).1 = .ok () ∧
      (b.apply s e).2.2.log.toList = s.log.toList ++ (b.route e s.bytes.size).1.map (·.1) := by
  rw [apply_eq]
  refine log_publish hf fun w (hw : w ∈ (b.route e s.bytes.size).1) => ?_
  rcases fst_route_cases b e s.bytes.size with h | ⟨part, h⟩
  · rw [h] at hw
    cases hw
  · rw [fst_route_of_publishes _ h] at hw
    exact inside_of_mem_writes hv hfits hw

/-- While writes succeed, a batch is applied as a whole, one event after another. -/
theorem applyAll_eq_foldl : ∀ (es : List Event) {b : Bridge} {s : MemoryStore}, b.layout.Valid →
    b.layout.minLen.toNat ≤ s.bytes.size → s.failWrites = false →
    b.applyAll s es = (.ok (), es.foldl (fun x e => (x.1.apply x.2 e).2) (b, s))
  | [], _, _, _, _, _ => rfl
  | e :: es, b, s, hv, hfits, hf => by
    have hok := (log_apply hv hfits hf e).1
    obtain ⟨hl, -, hwrote⟩ := confined_apply b s e
    rcases hx : b.apply s e with ⟨_ | _, b', s'⟩
    · rw [hx] at hok
      cases hok
    · rw [hx] at hl hwrote
      have hrest := applyAll_eq_foldl es (b := b') (s := s') (hl ▸ hv)
        (by rw [show b'.layout = b.layout from hl, hwrote.size_eq]; exact hfits)
        (hwrote.failWrites_eq.trans hf)
      rw [applyAll, hx, List.foldl_cons, hx]
      exact hrest

/-- While writes succeed, letting all keys go logs the keyboard bytes and then the
byte of the joystick. -/
theorem log_releaseAll (hv : b.layout.Valid) (hfits : b.layout.minLen.toNat ≤ s.bytes.size)
    (hf : s.failWrites = false) :
    (b.releaseAll s).1 = .ok () ∧
      (b.releaseAll s).2.2.log.toList =
        s.log.toList ++ [b.layout.colOffset, b.layout.rowOffset] ++ b.joystickBytes s.bytes.size := by
  have hin : ∀ part, ∀ w ∈ (b.after .releaseAll).writes s.bytes.size part,
      w.1.toNat < s.bytes.size ∧ w.1.toNat + 1 < UInt64.size :=
    fun part w hw => inside_of_mem_writes hv hfits hw
  obtain ⟨hok, hlog⟩ := log_publish hf (hin .keyboard)
  set t := (publish s ((b.after .releaseAll).writes s.bytes.size .keyboard)).2 with ht
  have hsize : t.bytes.size = s.bytes.size := size_publish s _
  have hft : t.failWrites = false := (failWrites_publish s _).trans hf
  have hjoystick : ∀ w ∈ (b.after .releaseAll).writes s.bytes.size .joystick,
      w.1.toNat < t.bytes.size ∧ w.1.toNat + 1 < UInt64.size := hsize ▸ hin .joystick
  have hs : Store.size s = s.bytes.size := rfl
  rcases releaseAll_cases b s with ⟨err, hfail, -⟩ | ⟨-, h⟩
  · rw [hs, hok] at hfail
    cases hfail
  · rw [hs, ← ht, show Store.size t = s.bytes.size from hsize] at h
    obtain ⟨hok', hlog'⟩ := log_publish hft hjoystick
    rw [h]
    refine ⟨hok', hlog'.trans ?_⟩
    rw [hlog]
    exact congrArg _ ((map_fst_joystickWrites _ _).trans (joystickBytes_after b _ _))

end Bridge
end ScreenBridge
