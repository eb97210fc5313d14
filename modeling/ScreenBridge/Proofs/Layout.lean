/-
# Offsets of a layout do not wrap

`Layout.new` lets only such grids pass whose whole segment is addressed by
64-bit words. In a layout it yields, the bytes behind the grid therefore follow
one another as their offsets say: columns, rows, first and second joystick. The
grid and these four bytes are the whole segment, each offset in exactly one of
them (`Layout.segment_is_tiled`).

Key definitions: `Layout.Valid`, `Layout.portOffset`, `Layout.Exact`,
`Layout.parts`.
Key theorems: `Layout.valid_of_new`, `Layout.Valid.gridLen_add_lt`,
`Layout.Valid.toNat_rowOffset`, `Layout.Valid.toNat_fullLen`,
`Layout.Valid.toNat_portOffset`, `Layout.new_cases`, `Layout.segment_is_tiled`.
-/
import Mathlib.Data.List.Nodup
import ScreenBridge.Joystick
import ScreenBridge.Layout

namespace ScreenBridge
namespace Layout

/-- The layout is one that `new` yields. -/
def Valid (l : Layout) : Prop := new l.width l.height = .ok l

variable {l : Layout}

theorem valid_of_new {width height : UInt64} (h : new width height = .ok l) : l.Valid := by
  have hl : l = ⟨width, height⟩ := by
    unfold new at h
    split at h
    · cases h
    · split at h
      · exact (Except.ok.inj h).symm
      · cases h
  rw [hl] at h ⊢
  exact h

theorem Valid.toNat_gridLen (h : l.Valid) : l.gridLen.toNat = l.width.toNat * l.height.toNat := by
  unfold Valid new at h
  split at h
  · cases h
  · split at h
    · rename_i c hc
      obtain ⟨p, hp, -⟩ := Option.bind_eq_some_iff.mp hc
      have hprod := Word.mul?_eq_some_iff.mp hp
      rw [gridLen, UInt64.toNat_mul, hprod]
      exact Nat.mod_eq_of_lt p.toNat_lt
    · cases h

/-- The grid and four more bytes are addressed by words. -/
theorem Valid.gridLen_add_lt (h : l.Valid) : l.gridLen.toNat + 4 < UInt64.size := by
  have hgrid := h.toNat_gridLen
  unfold Valid new at h
  split at h
  · cases h
  · split at h
    · rename_i c hc
      obtain ⟨p, hp, hs⟩ := Option.bind_eq_some_iff.mp hc
      have hprod := Word.mul?_eq_some_iff.mp hp
      have hsum := Word.add?_eq_some_iff.mp hs
      rw [hgrid, hprod]
      exact hsum ▸ c.toNat_lt
    · cases h

theorem Valid.toNat_gridLen_add (h : l.Valid) {n : UInt64} (hn : n.toNat ≤ 4) :
    (l.gridLen + n).toNat = l.gridLen.toNat + n.toNat := by
  rw [UInt64.toNat_add]
  have := h.gridLen_add_lt
  exact Nat.mod_eq_of_lt (by change _ < UInt64.size; omega)

theorem Valid.toNat_rowOffset (h : l.Valid) : l.rowOffset.toNat = l.colOffset.toNat + 1 :=
  h.toNat_gridLen_add (n := 1) (by decide)

theorem Valid.toNat_minLen (h : l.Valid) : l.minLen.toNat = l.colOffset.toNat + 2 :=
  h.toNat_gridLen_add (n := 2) (by decide)

theorem Valid.toNat_fullLen (h : l.Valid) : l.fullLen.toNat = l.minLen.toNat + 2 := by
  have hlen := h.toNat_minLen
  have hlt := h.gridLen_add_lt
  have hcol : l.colOffset.toNat = l.gridLen.toNat := rfl
  rw [fullLen, UInt64.toNat_add]
  exact Nat.mod_eq_of_lt (by change _ + 2 < UInt64.size; omega)

/-- Where the byte of a port lies. -/
def portOffset (l : Layout) : Port → UInt64
  | .one => l.gridLen + 2
  | .two => l.gridLen + 3

theorem joystickOffset_number (l : Layout) (port : Port) :
    l.joystickOffset port.number = some (l.portOffset port) := by
  cases port <;> simp [joystickOffset, Port.number, portOffset, keyboardLen, UInt64.add_assoc]

theorem Valid.toNat_portOffset (h : l.Valid) (port : Port) :
    (l.portOffset port).toNat = l.colOffset.toNat + 1 + port.number.toNat := by
  cases port
  · exact h.toNat_gridLen_add (n := 2) (by decide)
  · exact h.toNat_gridLen_add (n := 3) (by decide)

theorem Valid.portOffset_bounds (h : l.Valid) (port : Port) :
    l.rowOffset.toNat < (l.portOffset port).toNat ∧
      (l.portOffset port).toNat + 1 < UInt64.size := by
  have hlt := h.gridLen_add_lt
  have hport := h.toNat_portOffset port
  rw [h.toNat_rowOffset]
  have hnum : 1 ≤ port.number.toNat ∧ port.number.toNat ≤ 2 := by cases port <;> decide
  have hcol : l.colOffset.toNat = l.gridLen.toNat := rfl
  omega

/-! ### Which grids have a layout -/

/-- What `new` can answer: one of the sides is zero, the segment is too long for
words, or there is a layout. -/
theorem new_cases (width height : UInt64) :
    ((width = 0 ∨ height = 0) ∧ new width height = .error (.emptyGrid width height)) ∨
    (¬ (width = 0 ∨ height = 0) ∧ UInt64.size ≤ width.toNat * height.toNat + 4 ∧
      new width height = .error (.overflow width height)) ∨
    (¬ (width = 0 ∨ height = 0) ∧ width.toNat * height.toNat + 4 < UInt64.size ∧
      new width height = .ok ⟨width, height⟩) := by
  by_cases hzero : width = 0 ∨ height = 0
  · exact Or.inl ⟨hzero, if_pos hzero⟩
  · refine Or.inr ?_
    cases hc : (Word.mul? width height).bind (Word.add? · (keyboardLen + joystickLen)) with
    | none =>
      refine Or.inl ⟨hzero, ?_, by rw [new, if_neg hzero, hc]⟩
      by_contra hlt
      -- product and sum are words, so the checked ones exist
      have hprod : Word.mul? width height = some (width * height) := if_pos (by omega)
      have hnat := Word.mul?_eq_some_iff.mp hprod
      rw [hprod, Option.bind_some] at hc
      have hsum : Word.add? (width * height) (keyboardLen + joystickLen) = some _ :=
        if_pos (by rw [← hnat]; exact Nat.lt_of_not_le hlt)
      rw [hc] at hsum
      cases hsum
    | some c =>
      refine Or.inr ⟨hzero, ?_, by rw [new, if_neg hzero, hc]⟩
      obtain ⟨p, hp, hs⟩ := Option.bind_eq_some_iff.mp hc
      have hprod := Word.mul?_eq_some_iff.mp hp
      have hsum := Word.add?_eq_some_iff.mp hs
      rw [hprod]
      exact hsum ▸ c.toNat_lt

/-! ### The parts of a segment -/

/-- The lengths and offsets of a layout are those of numbers without a bound: none
of them has wrapped. -/
structure Exact (l : Layout) : Prop where
  gridLen : l.gridLen.toNat = l.width.toNat * l.height.toNat
  colOffset : l.colOffset.toNat = l.width.toNat * l.height.toNat
  rowOffset : l.rowOffset.toNat = l.width.toNat * l.height.toNat + 1
  minLen : l.minLen.toNat = l.width.toNat * l.height.toNat + 2
  joystickOffset : ∀ port, l.joystickOffset port.number = some (l.portOffset port) ∧
    (l.portOffset port).toNat = l.width.toNat * l.height.toNat + 1 + port.number.toNat
  fullLen : l.fullLen.toNat = l.width.toNat * l.height.toNat + 4

theorem Valid.exact (h : l.Valid) : l.Exact where
  gridLen := h.toNat_gridLen
  colOffset := h.toNat_gridLen
  rowOffset := by rw [h.toNat_rowOffset, colOffset, h.toNat_gridLen]
  minLen := by rw [h.toNat_minLen, colOffset, h.toNat_gridLen]
  joystickOffset port :=
    ⟨l.joystickOffset_number port, by rw [h.toNat_portOffset, colOffset, h.toNat_gridLen]⟩
  fullLen := by rw [h.toNat_fullLen, h.toNat_minLen, colOffset, h.toNat_gridLen]

/-- The offsets of each part of a segment: grid, columns, rows, and the joysticks
by their numbers. -/
def parts (l : Layout) : List (List ℕ) :=
  [List.range l.gridLen.toNat, [l.colOffset.toNat], [l.rowOffset.toNat],
    (l.joystickOffset 1).toList.map (·.toNat), (l.joystickOffset 2).toList.map (·.toNat)]

/-- One part follows the other, up to the end of the segment. -/
theorem Exact.flatten_parts (h : l.Exact) : l.parts.flatten = List.range l.fullLen.toNat := by
  obtain ⟨hone, hone'⟩ := h.joystickOffset .one
  obtain ⟨htwo, htwo'⟩ := h.joystickOffset .two
  simp only [Port.number] at hone hone' htwo htwo'
  have h1 : (1 : UInt8).toNat = 1 := rfl
  have h2 : (2 : UInt8).toNat = 2 := rfl
  rw [parts, hone, htwo]
  simp only [Option.toList_some, List.map_cons, List.map_nil, List.flatten_cons, List.flatten_nil,
    List.append_nil, List.singleton_append]
  rw [hone', htwo', h.gridLen, h.colOffset, h.rowOffset, h.fullLen, h1, h2]
  generalize l.width.toNat * l.height.toNat = n
  simp [List.range_succ]

theorem Exact.disjoint_parts (h : l.Exact) : l.parts.Pairwise List.Disjoint :=
  (List.nodup_flatten.mp (h.flatten_parts ▸ List.nodup_range)).2

/-- **The segment of a layout is tiled by its parts.** There is no layout for a grid
without a cell, nor for one whose cells and four more bytes are more than words
count; every other grid has one. Its lengths and offsets have not wrapped, and grid,
keyboard bytes and joystick bytes are the whole segment, one behind the other and
without a common offset. A segment of the least length has the keyboard bytes. -/
theorem segment_is_tiled (width height : UInt64) :
    (new width height = .error (.emptyGrid width height) ↔ width = 0 ∨ height = 0) ∧
    (new width height = .error (.overflow width height) ↔
      (width ≠ 0 ∧ height ≠ 0) ∧ UInt64.size ≤ width.toNat * height.toNat + 4) ∧
    (new width height = .ok ⟨width, height⟩ ↔
      (width ≠ 0 ∧ height ≠ 0) ∧ width.toNat * height.toNat + 4 < UInt64.size) ∧
    ∀ l, new width height = .ok l →
      (l.width = width ∧ l.height = height ∧ l.Exact) ∧
      l.parts.flatten = List.range l.fullLen.toNat ∧ l.parts.Pairwise List.Disjoint ∧
      ∀ size, l.minLen ≤ size → l.colOffset < size ∧ l.rowOffset < size := by
  have hcases := new_cases width height
  simp only [not_or] at hcases
  refine ⟨?_, ?_, ?_, fun l hl => ?_⟩
  · rcases hcases with ⟨hzero, hnew⟩ | ⟨hne, -, hnew⟩ | ⟨hne, -, hnew⟩ <;> rw [hnew]
    · simp [hzero]
    · simp [hne.1, hne.2]
    · simp [hne.1, hne.2]
  · rcases hcases with ⟨hzero, hnew⟩ | ⟨hne, hlong, hnew⟩ | ⟨hne, hshort, hnew⟩ <;> rw [hnew]
    · simp only [Except.error.injEq, reduceCtorEq, false_iff, not_and]
      exact fun hne => absurd hzero (by simp [hne.1, hne.2])
    · exact iff_of_true rfl ⟨hne, by omega⟩
    · exact iff_of_false (by simp) fun h => by omega
  · rcases hcases with ⟨hzero, hnew⟩ | ⟨hne, hlong, hnew⟩ | ⟨hne, hshort, hnew⟩ <;> rw [hnew]
    · exact iff_of_false (by simp) fun h => absurd hzero (by simp [h.1.1, h.1.2])
    · exact iff_of_false (by simp) fun h => by omega
    · exact iff_of_true rfl ⟨hne, by omega⟩
  · have hvalid := valid_of_new hl
    have hexact := hvalid.exact
    have hself : l.width = width ∧ l.height = height := by
      rcases hcases with ⟨-, hnew⟩ | ⟨-, -, hnew⟩ | ⟨-, -, hnew⟩ <;> rw [hnew] at hl <;> cases hl
      exact ⟨rfl, rfl⟩
    refine ⟨⟨hself.1, hself.2, hexact⟩, hexact.flatten_parts, hexact.disjoint_parts, fun size hle => ?_⟩
    rw [UInt64.lt_iff_toNat_lt, UInt64.lt_iff_toNat_lt]
    have hmin := hexact.minLen
    have hle' : l.minLen.toNat ≤ size.toNat := UInt64.le_iff_toNat_le.mp hle
    rw [hexact.colOffset, hexact.rowOffset]
    omega

/-- A single column that is as high as words allow: the last byte of its segment has
the last offset but one that a word can name, and one more row is too much. -/
theorem longest_column_is_tiled :
    let l : Layout := ⟨1, 18446744073709551611⟩
    new 1 18446744073709551611 = .ok l ∧ l.fullLen.toNat + 1 = UInt64.size ∧
      l.parts.Pairwise List.Disjoint ∧
      new 1 18446744073709551612 = .error (.overflow 1 18446744073709551612) := by
  intro l
  have hnew : new 1 18446744073709551611 = .ok l := by decide
  obtain ⟨-, -, -, htiled⟩ := segment_is_tiled 1 18446744073709551611
  obtain ⟨⟨-, -, hexact⟩, -, hdisjoint, -⟩ := htiled l hnew
  exact ⟨hnew, (congrArg (· + 1) hexact.fullLen).trans (by decide), hdisjoint, by decide⟩

end Layout
end ScreenBridge
