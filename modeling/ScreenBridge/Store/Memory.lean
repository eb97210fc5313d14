/-
# A store in memory

Bytes in memory, with two switches that make every read or every write fail, and
a log of the offsets that were written.

Key definitions: `MemoryStore`, `MemoryStore.ofBytes`, `MemoryStore.byte`,
`MemoryStore.setByte`.
-/
import ScreenBridge.Store

namespace ScreenBridge

/-- An offset outside the bytes of a store. -/
structure OutOfBounds where
  size : Nat
  offset : Nat
  deriving DecidableEq, Repr

namespace OutOfBounds

/-- The sentence a person is shown. -/
def message (e : OutOfBounds) : String :=
  s!"index out of bounds: the len is {e.size} but the index is {e.offset}"

end OutOfBounds

/-- A store in memory. -/
structure MemoryStore where
  bytes : Array UInt8
  /-- The offsets of the writes that succeeded, in order. -/
  log : Array UInt64
  failReads : Bool
  failWrites : Bool
  deriving DecidableEq, Repr

namespace MemoryStore

/-- A store of the given bytes in which nothing fails. -/
def ofBytes (bytes : Array UInt8) : MemoryStore := ⟨bytes, #[], false, false⟩

/-- A store of so many zero bytes. -/
def zeroed (size : Nat) : MemoryStore := ofBytes (Array.replicate size 0)

variable (s : MemoryStore)

/-- Reads a range of bytes. -/
def read (offset length : UInt64) : Except StoreError (Array UInt8) :=
  if s.failReads then .error (.read offset length (.custom .other "injected read failure"))
  else Store.readBytes s.bytes offset length

/-- Writes a byte and logs its offset. -/
def write (offset : UInt64) (value : UInt8) : Except StoreError Unit × MemoryStore :=
  if s.failWrites then (.error (.write offset (.custom .other "injected write failure")), s)
  else
    match Store.checkRange offset 1 s.bytes.size with
    | .ok () =>
      (.ok (), { s with
        bytes := s.bytes.setIfInBounds offset.toNat value
        log := s.log.push offset })
    | .error cause => (.error (.write offset cause), s)

instance : Store MemoryStore where
  size s := s.bytes.size
  read := read
  write := write

/-- The byte at an offset, whatever the switches say. -/
def byte (offset : UInt64) : Except OutOfBounds UInt8 :=
  match s.bytes[offset.toNat]? with
  | some value => .ok value
  | none => .error ⟨s.bytes.size, offset.toNat⟩

/-- Puts a byte at an offset as the machine would: it is not logged and never
fails because of a switch. -/
def setByte (offset : UInt64) (value : UInt8) : Except OutOfBounds MemoryStore :=
  if offset.toNat < s.bytes.size then
    .ok { s with bytes := s.bytes.setIfInBounds offset.toNat value }
  else .error ⟨s.bytes.size, offset.toNat⟩

/-- Puts bytes over the beginning of the store as the machine would. Bytes
behind its end are dropped. -/
def overwrite (bytes : Array UInt8) : MemoryStore :=
  { s with
    bytes := bytes.extract 0 s.bytes.size ++ s.bytes.extract (min bytes.size s.bytes.size) s.bytes.size }

end MemoryStore
end ScreenBridge
