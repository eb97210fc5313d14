/-
# Stores without faults

A store without faults is an array of bytes with bounds: an access is refused if
it reaches behind the end, and only then (`Store.checkRange_eq`). The store in
memory is such a store while both of its switches are off, and so is an attached
segment whose handle knows its length.

Key definitions: `Store.pastEnd`, `PlainStore`, `PlainStore.Plain`.
Key theorems: `Store.checkRange_eq`, `PlainStore.Plain.read_eq`,
`PlainStore.Plain.write_inside`, `PlainStore.Plain.write_outside`.
-/
import ScreenBridge.Proofs.ByteStore

namespace ScreenBridge

namespace Store

/-- The fault of a range that reaches behind the end of a store. -/
def pastEnd (offset length : UInt64) (size : ℕ) : Fault :=
  .custom .unexpectedEof s!"range {offset}+{length} exceeds segment size {size}"

/-- **A range is refused if it reaches behind the end, and only then.** The end of
the range is a natural number here, so it never wraps. -/
theorem checkRange_eq (offset length : UInt64) {size : ℕ} (hsize : size < UInt64.size) :
    checkRange offset length size =
      if offset.toNat + length.toNat ≤ size then .ok () else .error (pastEnd offset length size) := by
  unfold checkRange Word.add?
  by_cases hsum : offset.toNat + length.toNat < UInt64.size
  · have hnat : (offset + length).toNat = offset.toNat + length.toNat := by
      rw [UInt64.toNat_add]
      exact Nat.mod_eq_of_lt hsum
    rw [if_pos hsum, Option.filter_some, hnat]
    by_cases hle : offset.toNat + length.toNat ≤ size
    · simp [hle]
    · simp [hle, pastEnd]
  · have hle : ¬ offset.toNat + length.toNat ≤ size := by omega
    simp [hsum, hle, pastEnd]

theorem readBytes_eq (bytes : Array UInt8) (offset length : UInt64)
    (hsize : bytes.size < UInt64.size) :
    readBytes bytes offset length =
      if offset.toNat + length.toNat ≤ bytes.size then
        .ok (bytes.extract offset.toNat (offset.toNat + length.toNat))
      else .error (.read offset length (pastEnd offset length bytes.size)) := by
  unfold readBytes
  rw [checkRange_eq offset length hsize]
  by_cases hle : offset.toNat + length.toNat ≤ bytes.size
  · simp [hle]
  · simp [hle]

theorem readBytes_prefix {bytes : Array UInt8} {length : UInt64} (hle : length.toNat ≤ bytes.size) :
    readBytes bytes 0 length = .ok (bytes.extract 0 length.toNat) := by
  have hsum : Word.add? 0 length = some length := Word.add?_eq_some_iff.mpr (Nat.zero_add _)
  simp [readBytes, checkRange, hsum, Option.filter_some, hle]

end Store

/-- A store that is an array of bytes also when it is read, and that refuses a
write only for its place. -/
class PlainStore (σ : Type) [Store σ] extends ByteStore σ where
  /-- No read inside the store is refused. -/
  Readable : σ → Prop
  read_eq {s : σ} (offset length : UInt64) : Readable s →
    Store.read s offset length = Store.readBytes (bytes s) offset length
  refused_eq {s : σ} {offset : UInt64} (value : UInt8) {cause : Fault} : Writable s →
    Store.checkRange offset 1 (bytes s).size = .error cause →
      Store.write s offset value = (.error (.write offset cause), s)
  readable_write {s : σ} (offset : UInt64) (value : UInt8) : Readable s →
    Readable (Store.write s offset value).2
  readable_poke {s : σ} (offset : UInt64) (value : UInt8) : Readable s →
    Readable (poke s offset value)

/-- The store in memory, while neither its reads nor its writes fail. -/
instance : PlainStore MemoryStore where
  Readable s := s.failReads = false
  read_eq {s} offset length hr := by
    change s.read offset length = _
    rw [MemoryStore.read, hr, if_neg Bool.false_ne_true]
    rfl
  refused_eq {s offset} value {cause} hw hcheck := by
    change s.write offset value = _
    have hw' : s.failWrites = false := hw
    have hcheck' : Store.checkRange offset 1 s.bytes.size = .error cause := hcheck
    simp [MemoryStore.write, hw', hcheck']
  readable_write {s} offset value hr := by
    change (s.write offset value).2.failReads = false
    unfold MemoryStore.write
    split
    · exact hr
    · split <;> exact hr
  readable_poke {s} offset value hr := by
    change (match s.setByte offset value with | .ok s => s | .error _ => s).failReads = false
    unfold MemoryStore.setByte
    split <;> rename_i heq
    · split at heq
      · obtain rfl := Except.ok.inj heq
        exact hr
      · cases heq
    · exact hr

/-- An attached segment whose handle knows its length. -/
instance : PlainStore AttachedStore where
  Readable _ := True
  read_eq _ _ _ := rfl
  refused_eq {s offset} value {cause} _ hcheck := by
    have hcheck' : Store.checkRange offset 1 (s.table.bytes s.handle.number).size = .error cause :=
      hcheck
    change (let (result, table) := s.table.write s.handle offset value
      (result, { s with table := table })) = _
    rw [SegmentTable.write, hcheck']
  readable_write _ _ _ := trivial
  readable_poke _ _ _ := trivial

namespace PlainStore

open ByteStore

variable {σ : Type} [Store σ] [PlainStore σ] {s : σ}

theorem readable_writeAll : ∀ (writes : List (UInt64 × UInt8)) (s : σ), Readable s →
    Readable (Store.writeAll s writes).2
  | [], _, h => h
  | (offset, value) :: writes, s, h => by
    have hfirst := readable_write offset value h
    unfold Store.writeAll
    split
    · rename_i heq
      rw [heq] at hfirst
      exact readable_writeAll writes _ hfirst
    · rename_i heq
      rw [heq] at hfirst
      exact hfirst

/-- Neither reads nor writes of the store fail for another reason than their place,
and its size is a word. -/
structure Plain (s : σ) : Prop where
  readable : Readable s
  writable : Writable s
  size_lt : (bytes s).size < UInt64.size

theorem Plain.read_eq (h : Plain s) (offset length : UInt64) :
    Store.read s offset length =
      if offset.toNat + length.toNat ≤ (bytes s).size then
        .ok ((bytes s).extract offset.toNat (offset.toNat + length.toNat))
      else .error (.read offset length (Store.pastEnd offset length (bytes s).size)) := by
  rw [PlainStore.read_eq offset length h.readable, Store.readBytes_eq _ _ _ h.size_lt]

/-- A byte inside the store is written, and nothing else changes. -/
theorem Plain.write_inside (h : Plain s) {offset : UInt64} (value : UInt8)
    (hlt : offset.toNat < (bytes s).size) :
    (Store.write s offset value).1 = .ok () ∧ Plain (Store.write s offset value).2 ∧
      bytes (Store.write s offset value).2 = (bytes s).setIfInBounds offset.toNat value := by
  have hsize := h.size_lt
  obtain ⟨hok, hw, hb⟩ := ByteStore.write_eq value h.writable hlt (by omega)
  refine ⟨hok, ⟨readable_write offset value h.readable, hw, ?_⟩, hb⟩
  rw [hb, Array.size_setIfInBounds]
  exact hsize

/-- A byte behind the end is refused, and nothing changes. -/
theorem Plain.write_outside (h : Plain s) {offset : UInt64} (value : UInt8)
    (hle : (bytes s).size ≤ offset.toNat) :
    Store.write s offset value =
      (.error (.write offset (Store.pastEnd offset 1 (bytes s).size)), s) := by
  have hnot : ¬ offset.toNat + (1 : UInt64).toNat ≤ (bytes s).size := by
    change ¬ offset.toNat + 1 ≤ _
    omega
  refine refused_eq value h.writable ?_
  rw [Store.checkRange_eq offset 1 h.size_lt, if_neg hnot]

end PlainStore
end ScreenBridge
