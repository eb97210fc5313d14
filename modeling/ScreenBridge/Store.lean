/-
# Stores of bytes

The viewer reads the screen from a store and writes single bytes into it. Every
access names its bytes by a 64-bit offset; one that does not lie inside the
store is refused and changes nothing.

Key definitions: `StoreError`, `Store`, `Store.checkRange`, `Store.readBytes`,
`Store.writeAll`.
-/
import ScreenBridge.Fault
import ScreenBridge.Text.Numeral
import ScreenBridge.Word

namespace ScreenBridge

/-- Why a store could not be opened, read or written. -/
inductive StoreError
  | attach (key : UInt32) (cause : Fault)
  | tooSmall (key : UInt32) (actual required : UInt64)
  | read (offset length : UInt64) (cause : Fault)
  | write (offset : UInt64) (cause : Fault)
  deriving DecidableEq, Repr

/-- What was done to a store. -/
inductive StoreOperation
  | attach
  | read
  | write
  deriving DecidableEq, Repr

namespace StoreError

/-- The key of a segment as people write it: eight hexadecimal digits. -/
def keyText (key : UInt32) : String :=
  "0x" ++ String.ofList (Text.zeroPadded 8 (Text.hexDigits key.toNat))

/-- The operation that failed. -/
def operation : StoreError → StoreOperation
  | attach .. => .attach
  | tooSmall .. => .attach
  | read .. => .read
  | write .. => .write

/-- The fault behind the failure. A segment that is too small has none. -/
def cause? : StoreError → Option Fault
  | attach _ cause => some cause
  | tooSmall .. => none
  | read _ _ cause => some cause
  | write _ cause => some cause

/-- The sentence a person is shown. -/
def message : StoreError → String
  | attach key cause => s!"attach: shared memory key {keyText key}: {cause.message}"
  | tooSmall key actual required =>
    s!"attach: shared memory key {keyText key} is {actual} bytes, need at least {required}"
  | read offset length cause => s!"read: {length} bytes at offset {offset}: {cause.message}"
  | write offset cause => s!"write: offset {offset}: {cause.message}"

end StoreError

/-- A store of bytes. Writing yields the store after the attempt, also after one
that failed. -/
class Store (σ : Type) where
  size : σ → Nat
  read : σ → UInt64 → UInt64 → Except StoreError (Array UInt8)
  write : σ → UInt64 → UInt8 → Except StoreError Unit × σ

namespace Store

/-- Refuses a range of bytes that does not lie inside so many. A range whose end
is no 64-bit word lies inside nothing. -/
def checkRange (offset length : UInt64) (size : Nat) : Except Fault Unit :=
  match (Word.add? offset length).filter (·.toNat ≤ size) with
  | some _ => .ok ()
  | none => .error (.custom .unexpectedEof s!"range {offset}+{length} exceeds segment size {size}")

/-- The bytes of a range. -/
def readBytes (bytes : Array UInt8) (offset length : UInt64) :
    Except StoreError (Array UInt8) :=
  match checkRange offset length bytes.size with
  | .ok () => .ok (bytes.extract offset.toNat (offset.toNat + length.toNat))
  | .error cause => .error (.read offset length cause)

/-- Writes bytes one after another and stops at the first that is refused. -/
def writeAll {σ : Type} [Store σ] (s : σ) : List (UInt64 × UInt8) → Except StoreError Unit × σ
  | [] => (.ok (), s)
  | (offset, value) :: rest =>
    match write s offset value with
    | (.ok (), s) => writeAll s rest
    | (.error e, s) => (.error e, s)

end Store
end ScreenBridge
