/-
# The keyboard matrix

The machine's keyboard is wired as eight rows and eight columns, and a key sits
at a crossing. A key may sit at several crossings, and several keys at one.

Key definitions: `Cell`, `Matrix`, `Matrix.standard`, `Matrix.add`,
`Matrix.cellsFor`.
-/
import ScreenBridge.Key

namespace ScreenBridge

/-- Why a key cannot be placed in the matrix. -/
inductive MatrixError
  | cellOutOfRange (row col : UInt8)
  | unmappableKey (key : Key)
  deriving DecidableEq, Repr

namespace MatrixError

/-- The sentence a person is shown. -/
def message : MatrixError → String
  | cellOutOfRange row col => s!"matrix cell ({row}, {col}) is outside the 8x8 matrix"
  | unmappableKey key => s!"{key.name} cannot be placed in the matrix"

end MatrixError

/-- A crossing of the matrix. -/
structure Cell where
  row : Fin 8
  col : Fin 8
  deriving DecidableEq, Repr

namespace Cell

/-- The crossing of a row and a column given by number. -/
def new (row col : UInt8) : Except MatrixError Cell :=
  if h : row.toNat < 8 ∧ col.toNat < 8 then .ok ⟨⟨row.toNat, h.1⟩, ⟨col.toNat, h.2⟩⟩
  else .error (.cellOutOfRange row col)

end Cell

/-- Which keys sit at which crossings, in the order in which they were placed. -/
structure Matrix where
  entries : List (Cell × Key)
  deriving DecidableEq, Repr

namespace Matrix

/-- The matrix without keys. -/
def empty : Matrix := ⟨[]⟩

/-- The keys of the home computer, row by row. -/
def standardRows : List (List Key) :=
  [[.delete, .enter, .rightAlt, .f7, .f1, .f3, .f5, .arrowDown],
    [.digit3, .keyW, .keyA, .digit4, .keyZ, .keyS, .keyE, .leftShift],
    [.digit5, .keyR, .keyD, .digit6, .keyC, .keyF, .keyT, .keyX],
    [.digit7, .keyY, .keyG, .digit8, .keyB, .keyH, .keyU, .keyV],
    [.digit9, .keyI, .keyJ, .digit0, .keyM, .keyK, .keyO, .keyN],
    [.plus, .keyP, .keyL, .minus, .period, .colon, .atSign, .comma],
    [.dollar, .asterisk, .semicolon, .home, .rightShift, .equals, .caret, .slash],
    [.digit1, .backspace, .leftCtrl, .digit2, .space, .tab, .keyQ, .escape]]

/-- The matrix of the home computer. -/
def standard : Matrix :=
  ⟨((List.finRange 8).zip standardRows).flatMap fun (row, keys) =>
    ((List.finRange 8).zip keys).map fun (col, key) => (⟨row, col⟩, key)⟩

/-- Places a key at one more crossing. Placing it where it sits already changes
nothing, and the unknown key has no place. -/
def add (m : Matrix) (key : Key) (cell : Cell) : Except MatrixError Matrix :=
  if key = .unknown then .error (.unmappableKey key)
  else if (cell, key) ∈ m.entries then .ok m
  else .ok ⟨m.entries ++ [(cell, key)]⟩

/-- The crossings at which a key sits, in the order of the entries. -/
def cellsFor (m : Matrix) (key : Key) : List Cell :=
  (m.entries.filter (·.2 = key)).map (·.1)

/-- Does the key sit at some crossing? -/
def contains (m : Matrix) (key : Key) : Bool :=
  m.entries.any (·.2 = key)

/-- The number of entries. -/
def size (m : Matrix) : Nat := m.entries.length

end Matrix
end ScreenBridge
