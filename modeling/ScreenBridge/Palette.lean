/-
# The palette

Sixteen colors. A grid byte names one of them by its low four bits.

Key definitions: `Palette`, `Palette.ofHex`, `Palette.standard`, `Palette.lookup`.
-/
import ScreenBridge.Color

namespace ScreenBridge

/-- Sixteen colors, by number. -/
structure Palette where
  entries : Vector Color 16
  deriving DecidableEq, Repr

namespace Palette

/-- The colors of the constants, or the first constant that names none. -/
def ofHex (constants : Vector String 16) : Except InvalidHex Palette :=
  match constants.mapM Color.ofHex with
  | .ok entries => .ok ⟨entries⟩
  | .error e => .error e

/-- The color constants of the home computer, from black to light grey. -/
def standardHex : Vector String 16 :=
  #v["000000", "FFFFFF", "68372b", "70a4b2", "6f3d86", "588d43", "352879", "b8c76f",
    "6f4f25", "433900", "9a6759", "444444", "6c6c6c", "9ad284", "6c5eB5", "959595"]

/-- The palette of the home computer: the colors of its constants. -/
def standard : Palette :=
  match ofHex standardHex with
  | .ok p => p
  | .error _ => ⟨.replicate 16 .black⟩

/-- The constants of the home computer are a palette. -/
theorem ofHex_standardHex : ofHex standardHex = .ok standard := by
  have hok : (ofHex standardHex).isOk = true := by decide +kernel
  unfold standard
  cases hhex : ofHex standardHex with
  | ok p => rfl
  | error e =>
    rw [hhex] at hok
    cases hok

/-- The color of a grid byte. Its high four bits do not count. -/
def lookup (p : Palette) (raw : UInt8) : Color :=
  p.entries.get (Fin.ofNat 16 raw.toNat)

end Palette
end ScreenBridge
