/-
# Checked word arithmetic

Lengths and offsets are 64-bit words. A sum or a product is formed only where
it fits into a word.

Key definitions: `Word.add?`, `Word.mul?`.
Key theorems: `Word.add?_eq_some_iff`, `Word.mul?_eq_some_iff`.
-/

namespace ScreenBridge
namespace Word

/-- The sum, if it is a word. -/
def add? (a b : UInt64) : Option UInt64 :=
  if a.toNat + b.toNat < UInt64.size then some (a + b) else none

/-- The product, if it is a word. -/
def mul? (a b : UInt64) : Option UInt64 :=
  if a.toNat * b.toNat < UInt64.size then some (a * b) else none

/-- A checked sum is the sum of the numbers. -/
theorem add?_eq_some_iff {a b c : UInt64} :
    add? a b = some c ↔ a.toNat + b.toNat = c.toNat := by
  unfold add?
  have hc : c.toNat < UInt64.size := c.toNat_lt
  split
  · rename_i h
    rw [Option.some.injEq, ← UInt64.toNat_inj, UInt64.toNat_add, Nat.mod_eq_of_lt h]
  · simp only [reduceCtorEq, false_iff]
    omega

/-- A checked product is the product of the numbers. -/
theorem mul?_eq_some_iff {a b c : UInt64} :
    mul? a b = some c ↔ a.toNat * b.toNat = c.toNat := by
  unfold mul?
  have hc : c.toNat < UInt64.size := c.toNat_lt
  split
  · rename_i h
    rw [Option.some.injEq, ← UInt64.toNat_inj, UInt64.toNat_mul, Nat.mod_eq_of_lt h]
  · simp only [reduceCtorEq, false_iff]
    omega

end Word
end ScreenBridge
