/-
# A bridge never looks into its store

What a bridge does with a store, and whether that succeeds, depends on the size of
the store and on whether its writes fail, but on none of its bytes. So two stores
that agree on some of their bytes and on everything else still do after the same
events (`Bridge.applyAll_sameOn`) and after letting all keys go
(`Bridge.releaseAll_sameOn`), and the bridge ends up the same.

Key definitions: `MemoryStore.SameOn`, `Bridge.SameOutcome`.
Key theorems: `MemoryStore.SameOn.write`, `Bridge.applyAll_sameOn`,
`Bridge.releaseAll_sameOn`.
-/
import ScreenBridge.Proofs.Footprint

namespace ScreenBridge
namespace MemoryStore

open ByteStore

variable {seen : UInt64 → Prop} {s t : MemoryStore}

/-- The stores agree on some bytes, and on everything else but the bytes. -/
structure SameOn (seen : UInt64 → Prop) (s t : MemoryStore) : Prop where
  size_eq : t.bytes.size = s.bytes.size
  log_eq : t.log = s.log
  failReads_eq : t.failReads = s.failReads
  failWrites_eq : t.failWrites = s.failWrites
  byteAt_eq : ∀ offset, seen offset → byteAt t offset = byteAt s offset

/-- A byte is written into both stores or into none. -/
theorem SameOn.write (h : SameOn seen s t) (offset : UInt64) (value : UInt8) :
    (Store.write t offset value).1 = (Store.write s offset value).1 ∧
      SameOn seen (Store.write s offset value).2 (Store.write t offset value).2 := by
  change (t.write offset value).1 = (s.write offset value).1 ∧
    SameOn seen (s.write offset value).2 (t.write offset value).2
  unfold MemoryStore.write
  rw [h.failWrites_eq, h.size_eq]
  split
  · exact ⟨rfl, h⟩
  · split
    · refine ⟨rfl, ?_, ?_, h.failReads_eq, rfl, fun other hother => ?_⟩
      · exact (Array.size_setIfInBounds).trans (h.size_eq.trans Array.size_setIfInBounds.symm)
      · exact congrArg (·.push offset) h.log_eq
      · have hbyte : t.bytes[other.toNat]? = s.bytes[other.toNat]? := h.byteAt_eq other hother
        change (t.bytes.setIfInBounds _ _)[other.toNat]? = (s.bytes.setIfInBounds _ _)[other.toNat]?
        rw [Array.getElem?_setIfInBounds, Array.getElem?_setIfInBounds, h.size_eq, hbyte]
    · exact ⟨rfl, h⟩

theorem SameOn.writeAll : ∀ (writes : List (UInt64 × UInt8)) {s t : MemoryStore}, SameOn seen s t →
    (Store.writeAll t writes).1 = (Store.writeAll s writes).1 ∧
      SameOn seen (Store.writeAll s writes).2 (Store.writeAll t writes).2
  | [], _, _, h => ⟨rfl, h⟩
  | (offset, value) :: writes, s, t, h => by
    obtain ⟨hresult, hsame⟩ := h.write offset value
    rw [Store.writeAll, Store.writeAll]
    rcases hs : Store.write s offset value with ⟨_ | _, s'⟩ <;>
      rcases ht : Store.write t offset value with ⟨_ | _, t'⟩ <;>
        rw [hs, ht] at hresult hsame
    · exact ⟨hresult, hsame⟩
    · cases hresult
    · cases hresult
    · exact SameOn.writeAll writes hsame

theorem SameOn.poke (h : SameOn seen s t) {place place' : UInt64} (value value' : UInt8)
    (hs : ¬ seen place) (ht : ¬ seen place') :
    SameOn seen (ByteStore.poke s place value) (ByteStore.poke t place' value') where
  size_eq := by rw [size_poke, size_poke, h.size_eq]
  log_eq := by rw [poke_eq, poke_eq, h.log_eq]
  failReads_eq := by rw [poke_eq, poke_eq, h.failReads_eq]
  failWrites_eq := by rw [poke_eq, poke_eq, h.failWrites_eq]
  byteAt_eq offset ho := by
    have hne : place ≠ offset := fun heq => hs (heq ▸ ho)
    have hne' : place' ≠ offset := fun heq => ht (heq ▸ ho)
    rw [byteAt_poke, byteAt_poke, if_neg hne, if_neg hne', h.byteAt_eq offset ho]

end MemoryStore

namespace Bridge

open MemoryStore

variable {seen : UInt64 → Prop} {s t : MemoryStore}

theorem publish_sameOn (h : SameOn seen s t) (writes : List (UInt64 × UInt8)) :
    (publish t writes).1 = (publish s writes).1 ∧
      SameOn seen (publish s writes).2 (publish t writes).2 := by
  obtain ⟨hresult, hsame⟩ := SameOn.writeAll writes h
  unfold publish
  rcases hs : Store.writeAll s writes with ⟨_ | _, s'⟩ <;>
    rcases ht : Store.writeAll t writes with ⟨_ | _, t'⟩ <;>
      rw [hs, ht] at hresult hsame
  · obtain rfl := Except.error.inj hresult
    exact ⟨rfl, hsame⟩
  · cases hresult
  · cases hresult
  · exact ⟨rfl, hsame⟩

/-- Two ends of the same with two stores: the same result and the same bridge, over
stores that agree. -/
structure SameOutcome (seen : UInt64 → Prop)
    (x y : Except BridgeError Unit × Bridge × MemoryStore) : Prop where
  result_eq : y.1 = x.1
  bridge_eq : y.2.1 = x.2.1
  sameOn : SameOn seen x.2.2 y.2.2

theorem apply_sameOn (h : SameOn seen s t) (b : Bridge) (e : Event) :
    SameOutcome seen (b.apply s e) (b.apply t e) := by
  have hsize : Store.size t = Store.size s := h.size_eq
  rw [apply_eq, apply_eq, hsize]
  obtain ⟨hresult, hsame⟩ := publish_sameOn h (b.route e (Store.size s)).1
  exact ⟨hresult, rfl, hsame⟩

theorem applyAll_sameOn : ∀ (es : List Event) {s t : MemoryStore}, SameOn seen s t → ∀ b : Bridge,
    SameOutcome seen (b.applyAll s es) (b.applyAll t es)
  | [], _, _, h, _ => ⟨rfl, rfl, h⟩
  | e :: es, s, t, h, b => by
    obtain ⟨hresult, hbridge, hsame⟩ := apply_sameOn h b e
    rw [applyAll, applyAll]
    rcases hs : b.apply s e with ⟨_ | _, b', s'⟩ <;>
      rcases ht : b.apply t e with ⟨_ | _, b'', t'⟩ <;>
        rw [hs, ht] at hresult hbridge hsame
    · exact ⟨hresult, hbridge, hsame⟩
    · cases hresult
    · cases hresult
    · obtain rfl : b'' = b' := hbridge
      exact applyAll_sameOn es hsame b''

theorem releaseAll_sameOn (h : SameOn seen s t) (b : Bridge) :
    SameOutcome seen (b.releaseAll s) (b.releaseAll t) := by
  have hsize : Store.size t = Store.size s := h.size_eq
  obtain ⟨hkeyboard, hsame⟩ :=
    publish_sameOn h ((b.after .releaseAll).writes (Store.size s) .keyboard)
  rcases releaseAll_cases b s with ⟨err, hs, hs'⟩ | ⟨hs, hs'⟩ <;>
    rcases releaseAll_cases b t with ⟨err', ht, ht'⟩ | ⟨ht, ht'⟩ <;>
      rw [hsize, hkeyboard, hs] at ht
  · obtain rfl := Except.error.inj ht
    rw [hs', ht', hsize]
    exact ⟨rfl, rfl, hsame⟩
  · cases ht
  · cases ht
  · have hsize' : Store.size (publish t ((b.after .releaseAll).writes (Store.size s) .keyboard)).2 =
        Store.size (publish s ((b.after .releaseAll).writes (Store.size s) .keyboard)).2 :=
      hsame.size_eq
    rw [hs', ht', hsize, hsize']
    obtain ⟨hjoystick, hsame'⟩ := publish_sameOn hsame ((b.after .releaseAll).writes
      (Store.size (publish s ((b.after .releaseAll).writes (Store.size s) .keyboard)).2) .joystick)
    exact ⟨hjoystick, rfl, hsame'⟩

end Bridge
end ScreenBridge
