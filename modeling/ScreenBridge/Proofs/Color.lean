/-
# A color is its three channels

The pixel word of a color that people name holds blue, green and red in its lower
three bytes and nothing above them (`Color.Named.pixel_lt`). Such a color is read
off as three bytes and put together from them again (`Color.Named.ofRgb_channels`).

Key definitions: `Color.Named`.
Key theorems: `Color.toNat_pixel_ofRgb`, `Text.readDigits_lt`, `Color.Named.pixel_lt`,
`Color.Named.ofRgb_channels`.
-/
import Mathlib.Algebra.Group.Nat.Defs
import ScreenBridge.Color

namespace ScreenBridge

namespace Text

theorem digitIn_lt {radix d : ℕ} {c : Char} (h : digitIn radix c = some d) : d < radix := by
  unfold digitIn at h
  simpa using (Option.filter_eq_some_iff.mp h).2

/-- Each digit multiplies the bound of the value by the radix. -/
theorem readDigits_lt {radix bound : ℕ} {overflow : NumeralError} {n : ℕ} :
    ∀ (cs : List Char) (acc : ℕ), readDigits radix bound overflow acc cs = .ok n →
      n < (acc + 1) * radix ^ cs.length
  | [], acc, h => by
    simp only [readDigits, Except.ok.injEq] at h
    simp [← h]
  | c :: cs, acc, h => by
    unfold readDigits at h
    split at h
    · cases h
    · rename_i d hd
      split at h
      · have hlt := digitIn_lt hd
        have hstep : acc * radix + d + 1 ≤ (acc + 1) * radix := by
          rw [Nat.succ_mul]
          omega
        calc n < (acc * radix + d + 1) * radix ^ cs.length := readDigits_lt cs _ h
          _ ≤ (acc + 1) * radix * radix ^ cs.length := Nat.mul_le_mul_right _ hstep
          _ = (acc + 1) * radix ^ (c :: cs).length := by
            rw [List.length_cons, Nat.pow_succ, Nat.mul_assoc, Nat.mul_comm radix]
      · cases h

end Text

namespace Color

/-- The pixel word as a number. -/
theorem toNat_pixel_ofRgb (r g b : UInt8) :
    (ofRgb r g b).pixel.toNat = b.toNat * 65536 + g.toNat * 256 + r.toNat := by
  have hr : r.toNat < 2 ^ 8 := r.toNat_lt
  have hg : g.toNat < 2 ^ 8 := g.toNat_lt
  have hb : b.toNat < 2 ^ 8 := b.toNat_lt
  have hgreen : g.toNat <<< 8 < 2 ^ 16 := by
    rw [Nat.shiftLeft_eq]
    omega
  have hupper : b.toNat <<< 16 + g.toNat <<< 8 = (b.toNat * 256 + g.toNat) <<< 8 := by
    simp only [Nat.shiftLeft_eq]
    omega
  have hword : (ofRgb r g b).pixel.toNat = b.toNat <<< 16 ||| g.toNat <<< 8 ||| r.toNat := by
    -- the size of a word is written out, as `simp` leaves it
    have hb' : b.toNat <<< 16 < 4294967296 := by
      rw [Nat.shiftLeft_eq]
      omega
    have hg' : g.toNat <<< 8 < 4294967296 := by omega
    simp [ofRgb, UInt32.toNat_or, UInt32.toNat_shiftLeft, Nat.mod_eq_of_lt hb',
      Nat.mod_eq_of_lt hg']
  rw [hword, ← Nat.shiftLeft_add_eq_or_of_lt hgreen, hupper, ← Nat.shiftLeft_add_eq_or_of_lt hr,
    Nat.shiftLeft_eq]
  omega

theorem toNat_channels (c : Color) : c.r.toNat = c.pixel.toNat % 256 ∧
    c.g.toNat = c.pixel.toNat / 256 % 256 ∧ c.b.toNat = c.pixel.toNat / 65536 % 256 := by
  simp [r, g, b, Nat.shiftRight_eq_div_pow]

/-- A color with nothing above its channels is the one its channels make. -/
theorem ofRgb_channels {c : Color} (h : c.pixel.toNat < 2 ^ 24) : ofRgb c.r c.g c.b = c := by
  obtain ⟨hr, hg, hb⟩ := c.toNat_channels
  have hpixel : (ofRgb c.r c.g c.b).pixel = c.pixel := by
    rw [← UInt32.toNat_inj, toNat_pixel_ofRgb, hr, hg, hb]
    omega
  exact congrArg mk hpixel

/-- The color was made from channels or from a constant. -/
def Named (c : Color) : Prop :=
  (∃ r g b, ofRgb r g b = c) ∨ ∃ constant, ofHex constant = .ok c

theorem length_swapDigits {digits swapped : List Char} (h : swapDigits digits = some swapped) :
    swapped.length = 6 := by
  unfold swapDigits at h
  split at h
  · split at h
    · rw [← Option.some.inj h]
      rfl
    · cases h
  · cases h

/-- A constant has six digits, and those reach no further than the channels. -/
theorem pixel_lt_of_ofHex {constant : String} {c : Color} (h : ofHex constant = .ok c) :
    c.pixel.toNat < 2 ^ 24 := by
  unfold ofHex at h
  split at h
  · rename_i swapped hswap
    split at h
    · rename_i n hn
      have hlt := Text.readDigits_lt swapped 0 hn
      rw [length_swapDigits hswap] at hlt
      obtain rfl := Except.ok.inj h
      change n % 2 ^ 32 < 2 ^ 24
      omega
    · cases h
  · cases h

/-- There is nothing above the channels of a color that people name. -/
theorem Named.pixel_lt {c : Color} (h : c.Named) : c.pixel.toNat < 2 ^ 24 := by
  rcases h with ⟨r, g, b, rfl⟩ | ⟨constant, hconstant⟩
  · have hr := r.toNat_lt
    have hg := g.toNat_lt
    have hb := b.toNat_lt
    rw [toNat_pixel_ofRgb]
    omega
  · exact pixel_lt_of_ofHex hconstant

/-- **A color that people name is the one its channels make.** -/
theorem Named.ofRgb_channels {c : Color} (h : c.Named) : ofRgb c.r c.g c.b = c :=
  Color.ofRgb_channels h.pixel_lt

end Color
end ScreenBridge
