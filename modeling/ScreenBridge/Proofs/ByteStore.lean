/-
# Stores that are arrays of bytes

A store of bytes takes a byte at any offset inside it, and nothing but that byte
changes (`ByteStore`). The store in memory is one as long as its writes are not
told to fail, and so is an attached segment whose handle knows its length. What
the viewer publishes are lists of single bytes; a list that lies inside the
store is taken as a whole (`ByteStore.writeAll_eq`).

Key definitions: `ByteStore`, `ByteStore.byteAt`, `ByteStore.ShowsBits`,
`ByteStore.putAll`.
Key theorems: `ByteStore.writeAll_eq`.
-/
import Mathlib.Data.Nat.Notation
import ScreenBridge.Segment
import ScreenBridge.Store.Memory

namespace ScreenBridge

/-- A store that is an array of bytes. -/
class ByteStore (σ : Type) [Store σ] where
  bytes : σ → Array UInt8
  /-- No write inside the store is refused. -/
  Writable : σ → Prop
  /-- The store after the machine put a byte into it. -/
  poke : σ → UInt64 → UInt8 → σ
  size_eq {s : σ} : Writable s → Store.size s = (bytes s).size
  write_eq {s : σ} {offset : UInt64} (value : UInt8) :
    Writable s → offset.toNat < (bytes s).size → offset.toNat + 1 < UInt64.size →
      (Store.write s offset value).1 = .ok () ∧ Writable (Store.write s offset value).2 ∧
        bytes (Store.write s offset value).2 = (bytes s).setIfInBounds offset.toNat value
  poke_eq {s : σ} {offset : UInt64} (value : UInt8) :
    Writable s → offset.toNat < (bytes s).size → offset.toNat + 1 < UInt64.size →
      Writable (poke s offset value) ∧
        bytes (poke s offset value) = (bytes s).setIfInBounds offset.toNat value

theorem Store.checkRange_one {offset : UInt64} {size : ℕ} (h : offset.toNat < size)
    (ho : offset.toNat + 1 < UInt64.size) : Store.checkRange offset 1 size = .ok () := by
  have hend : (offset + 1).toNat = offset.toNat + 1 := by
    rw [UInt64.toNat_add]
    exact Nat.mod_eq_of_lt ho
  have hsum : Word.add? offset 1 = some (offset + 1) := Word.add?_eq_some_iff.mpr hend.symm
  have hle : (offset + 1).toNat ≤ size := by omega
  rw [Store.checkRange, hsum, Option.filter_some, if_pos (decide_eq_true hle)]

/-- The store in memory, while its writes do not fail. -/
instance : ByteStore MemoryStore where
  bytes s := s.bytes
  Writable s := s.failWrites = false
  poke s offset value :=
    match s.setByte offset value with
    | .ok s => s
    | .error _ => s
  size_eq _ := rfl
  write_eq {s offset} value hw h ho := by
    change (s.write offset value).1 = _ ∧ (s.write offset value).2.failWrites = false ∧
      (s.write offset value).2.bytes = _
    simp [MemoryStore.write, hw, Store.checkRange_one h ho]
  poke_eq {s offset} value hw h _ := by simp [MemoryStore.setByte, h, hw]

theorem SegmentTable.write_eq {t : SegmentTable} {h : SegmentHandle} {offset : UInt64}
    (value : UInt8) (hlt : offset.toNat < (t.bytes h.number).size) (ho : offset.toNat + 1 < UInt64.size) :
    (t.write h offset value).1 = .ok () ∧
      (t.write h offset value).2.bytes h.number =
        (t.bytes h.number).setIfInBounds offset.toNat value := by
  simp only [write, Store.checkRange_one hlt ho, true_and]
  simp only [bytes, Array.getElem?_modify, if_true, Option.map_map]
  cases hs : t.segments[h.number]? with
  | none => simp [bytes, hs] at hlt
  | some segment => rfl

/-- An attached segment whose handle knows its length. -/
instance : ByteStore AttachedStore where
  bytes s := s.bytes
  Writable s := s.handle.length.toNat = s.bytes.size
  poke s offset value := (Store.write s offset value).2
  size_eq hw := hw
  write_eq {s offset} value hw h ho := by
    obtain ⟨hok, hb⟩ := SegmentTable.write_eq value h ho
    refine ⟨hok, ?_, hb⟩
    change s.handle.length.toNat =
      ((s.table.write s.handle offset value).2.bytes s.handle.number).size
    rw [hb, Array.size_setIfInBounds]
    exact hw
  poke_eq {s offset} value hw h ho := by
    obtain ⟨-, hb⟩ := SegmentTable.write_eq value h ho
    refine ⟨?_, hb⟩
    change s.handle.length.toNat =
      ((s.table.write s.handle offset value).2.bytes s.handle.number).size
    rw [hb, Array.size_setIfInBounds]
    exact hw

namespace ByteStore

variable {σ : Type} [Store σ] [ByteStore σ] {s : σ}

/-- The byte at an offset, if it lies inside the store. -/
def byteAt (s : σ) (offset : UInt64) : Option UInt8 := (bytes s)[offset.toNat]?

/-- The bits of the byte at an offset are those with a property. -/
def ShowsBits (s : σ) (offset : UInt64) (p : Fin 8 → Prop) : Prop :=
  ∃ byte, byteAt s offset = some byte ∧ ∀ n : Fin 8, byte.toNat.testBit n = true ↔ p n

/-! ### Lists of bytes -/

/-- The bytes after some of them were put, one after another. -/
def putAll (bytes : Array UInt8) (writes : List (UInt64 × UInt8)) : Array UInt8 :=
  writes.foldl (fun bytes w => bytes.setIfInBounds w.1.toNat w.2) bytes

theorem size_putAll : ∀ (writes : List (UInt64 × UInt8)) (bytes : Array UInt8),
    (putAll bytes writes).size = bytes.size
  | [], _ => rfl
  | _ :: writes, _ => (size_putAll writes _).trans Array.size_setIfInBounds

theorem putAll_append (bytes : Array UInt8) (writes later : List (UInt64 × UInt8)) :
    putAll bytes (writes ++ later) = putAll (putAll bytes writes) later := List.foldl_append

theorem getElem?_putAll_of_ne {i : ℕ} : ∀ (writes : List (UInt64 × UInt8)) (bytes : Array UInt8),
    (∀ w ∈ writes, w.1.toNat ≠ i) → (putAll bytes writes)[i]? = bytes[i]?
  | [], _, _ => rfl
  | w :: writes, _, h => by
    refine (getElem?_putAll_of_ne writes _ fun w' hw' => h w' (List.mem_cons_of_mem _ hw')).trans ?_
    exact Array.getElem?_setIfInBounds_ne (h w List.mem_cons_self)

theorem putAll_eq_self {bytes : Array UInt8} : ∀ (writes : List (UInt64 × UInt8)),
    (∀ w ∈ writes, bytes[w.1.toNat]? = some w.2) → putAll bytes writes = bytes
  | [], _ => rfl
  | w :: writes, h => by
    obtain ⟨hlt, hvalue⟩ := Array.getElem?_eq_some_iff.mp (h w List.mem_cons_self)
    have hw : bytes.setIfInBounds w.1.toNat w.2 = bytes := by
      rw [← hvalue, Array.setIfInBounds, dif_pos hlt, Array.set_getElem_self]
    have hrest := putAll_eq_self writes fun w' hw' => h w' (List.mem_cons_of_mem _ hw')
    exact (congrArg (putAll · writes) hw).trans hrest

/-- A list of bytes inside a store that takes them is taken as a whole. -/
theorem writeAll_eq : ∀ (writes : List (UInt64 × UInt8)) (s : σ), Writable s →
    (∀ w ∈ writes, w.1.toNat < (bytes s).size ∧ w.1.toNat + 1 < UInt64.size) →
    (Store.writeAll s writes).1 = .ok () ∧ Writable (Store.writeAll s writes).2 ∧
      bytes (Store.writeAll s writes).2 = putAll (bytes s) writes
  | [], s, hw, _ => ⟨rfl, hw, rfl⟩
  | (offset, value) :: writes, s, hw, h => by
    obtain ⟨hlt, ho⟩ := h (offset, value) List.mem_cons_self
    obtain ⟨hok, hw', hb⟩ := write_eq value hw hlt ho
    have hsplit : Store.writeAll s ((offset, value) :: writes) =
        Store.writeAll (Store.write s offset value).2 writes := by
      rw [Store.writeAll]
      split
      · rename_i heq; rw [heq]
      · rename_i heq; rw [heq] at hok; cases hok
    have hrest : ∀ w ∈ writes, w.1.toNat < (bytes (Store.write s offset value).2).size ∧
        w.1.toNat + 1 < UInt64.size := by
      intro w hm
      rw [hb, Array.size_setIfInBounds]
      exact h w (List.mem_cons_of_mem _ hm)
    obtain ⟨hok', hw'', hb'⟩ := writeAll_eq writes _ hw' hrest
    rw [hsplit]
    exact ⟨hok', hw'', hb'.trans (by rw [hb]; rfl)⟩

end ByteStore
end ScreenBridge
