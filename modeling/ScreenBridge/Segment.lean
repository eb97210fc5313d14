/-
# Shared memory segments

The operating system keeps a table of memory segments, found by a 32-bit key.
Whoever attaches to a segment reads and writes the same bytes. Key 0 is private:
it always makes a new segment, and no key finds that one again. Removing a
segment frees its key at once, while its bytes stay for those attached to it.

The system may refuse what the table would allow, for want of rights or of memory.
What it refuses is a parameter of a call.

Key definitions: `Segment`, `SegmentTable`, `SegmentHandle`, `SegmentRefusals`,
`SegmentTable.attach`, `SegmentTable.create`, `SegmentTable.remove`,
`AttachedStore`.
-/
import ScreenBridge.Store

namespace ScreenBridge

/-- A segment of the table. -/
structure Segment where
  key : UInt32
  bytes : Array UInt8
  /-- Its key is free again. -/
  removed : Bool
  deriving DecidableEq, Repr

/-- All segments there ever were, by number. -/
structure SegmentTable where
  segments : Array Segment
  deriving DecidableEq, Repr

/-- An attachment to a segment. -/
structure SegmentHandle where
  /-- The number of the segment in the table. -/
  number : Nat
  key : UInt32
  length : UInt64
  deriving DecidableEq, Repr

/-- What the system refuses during one call: that a segment of some length is made,
that the length of a segment is looked up, that a segment is mapped. -/
structure SegmentRefusals where
  make : UInt64 → Option Fault
  look : Nat → Option Fault
  map : Nat → Option Fault
  /-- Mapping takes the rights to read and to write, and looking only the first. -/
  look_of_map : ∀ number, map number = none → look number = none

namespace SegmentRefusals

/-- Nothing is refused. -/
def nothing : SegmentRefusals where
  make _ := none
  look _ := none
  map _ := none
  look_of_map _ _ := rfl

variable (r : SegmentRefusals)

/-- The fault with which the system refuses to make a segment of a length. There
is no segment without bytes. -/
def lengthFault? (length : UInt64) : Option Fault :=
  if length = 0 then some .invalidArgument else r.make length

/-- Maps a segment. -/
def handle (number : Nat) (key : UInt32) (length : UInt64) : Except StoreError SegmentHandle :=
  match r.map number with
  | some fault => .error (.attach key fault)
  | none => .ok ⟨number, key, length⟩

end SegmentRefusals

namespace SegmentTable

/-- The key under which every segment is a new one. -/
def privateKey : UInt32 := 0

/-- A table without segments. -/
def empty : SegmentTable := ⟨#[]⟩

variable (t : SegmentTable)

/-- The number of the segment that a key finds. -/
def find? (key : UInt32) : Option Nat :=
  if key = privateKey then none
  else t.segments.findIdx? fun s => s.key = key && !s.removed

/-- The bytes of a segment. -/
def bytes (number : Nat) : Array UInt8 :=
  (t.segments[number]?.map (·.bytes)).getD #[]

/-- Attaches to the segment of a key, if it has at least the required length. -/
def attach (r : SegmentRefusals) (key : UInt32) (required : UInt64) :
    Except StoreError SegmentHandle :=
  if key = privateKey then .error (.attach key .invalidArgument)
  else
    match t.find? key with
    | none => .error (.attach key .notFound)
    | some number =>
      match r.look number with
      | some fault => .error (.attach key fault)
      | none =>
        let length := (t.bytes number).size.toUInt64
        if length < required then .error (.tooSmall key length required)
        else r.handle number key length

/-- Attaches to the segment of a key, or makes one of zero bytes if there is
none. A segment that exists is taken as it is and only has to have the required
length; a new one has the larger of the two lengths, and stays even if it cannot
be mapped. -/
def create (r : SegmentRefusals) (key : UInt32) (required alloc : UInt64) :
    Except StoreError SegmentHandle × SegmentTable :=
  match t.find? key with
  | some _ => (t.attach r key required, t)
  | none =>
    let length := max alloc required
    match r.lengthFault? length with
    | some fault => (.error (.attach key fault), t)
    | none =>
      (r.handle t.segments.size key length,
        ⟨t.segments.push ⟨key, Array.replicate length.toNat 0, false⟩⟩)

/-- Frees the key of a segment. -/
def remove (h : SegmentHandle) : SegmentTable :=
  ⟨t.segments.modify h.number fun s => { s with removed := true }⟩

/-- Reads a range of bytes of a segment. -/
def read (h : SegmentHandle) (offset length : UInt64) : Except StoreError (Array UInt8) :=
  Store.readBytes (t.bytes h.number) offset length

/-- Writes a byte of a segment. -/
def write (h : SegmentHandle) (offset : UInt64) (value : UInt8) :
    Except StoreError Unit × SegmentTable :=
  match Store.checkRange offset 1 (t.bytes h.number).size with
  | .ok () =>
    (.ok (), ⟨t.segments.modify h.number fun s =>
      { s with bytes := s.bytes.setIfInBounds offset.toNat value }⟩)
  | .error cause => (.error (.write offset cause), t)

end SegmentTable

/-- A segment as a store: the table and the attachment through which it is
seen. -/
structure AttachedStore where
  table : SegmentTable
  handle : SegmentHandle
  deriving DecidableEq, Repr

namespace AttachedStore

/-- The bytes of the segment. -/
def bytes (s : AttachedStore) : Array UInt8 := s.table.bytes s.handle.number

instance : Store AttachedStore where
  size s := s.handle.length.toNat
  read s offset length := s.table.read s.handle offset length
  write s offset value :=
    let (result, table) := s.table.write s.handle offset value
    (result, { s with table := table })

end AttachedStore
end ScreenBridge
