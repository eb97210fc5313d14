/-
# Matrices that can be built

A matrix begins empty or as that of the home computer and grows one crossing at
a time. So none of its entries occurs twice and the unknown key has none
(`Built.nodup`, `Built.ne_unknown`): a matrix has at most one entry for each of
the 64 crossings and 77 keys (`Built.size_le`), and no crossing of a key is
listed twice (`Built.nodup_cellsFor`).

Key definitions: `Matrix.Built`.
Key theorems: `Matrix.Built.nodup`, `Matrix.Built.size_le`,
`Matrix.countP_cellsFor`.
-/
import Mathlib.Data.List.Nodup
import Mathlib.Data.List.Perm.Subperm
import Mathlib.Data.List.ProdSigma
import ScreenBridge.Matrix

namespace ScreenBridge
namespace Matrix

/-- The matrices one comes to by adding keys to the empty matrix or to that of
the home computer. -/
inductive Built : Matrix → Prop
  | empty : Built .empty
  | standard : Built .standard
  | add {m m' : Matrix} {key : Key} {cell : Cell} :
      Built m → m.add key cell = .ok m' → Built m'

theorem nodup_standard : standard.entries.Nodup := by decide +kernel

theorem ne_unknown_standard : ∀ e ∈ standard.entries, e.2 ≠ .unknown := by decide +kernel

/-- What adding can do: the key has a name, and the matrix stays as it is or
gets one new entry at its end. -/
theorem add_cases {m m' : Matrix} {key : Key} {cell : Cell} (h : m.add key cell = .ok m') :
    key ≠ .unknown ∧ (m' = m ∨ (cell, key) ∉ m.entries ∧ m'.entries = m.entries ++ [(cell, key)]) := by
  unfold add at h
  split at h
  · cases h
  · rename_i hkey
    refine ⟨hkey, ?_⟩
    split at h
    · exact Or.inl (Except.ok.inj h).symm
    · rename_i hnew
      exact Or.inr ⟨hnew, by rw [← Except.ok.inj h]⟩

variable {m : Matrix}

theorem Built.nodup (h : Built m) : m.entries.Nodup := by
  induction h with
  | empty => exact List.nodup_nil
  | standard => exact nodup_standard
  | add _ ha ih =>
    obtain ⟨-, rfl | ⟨hnew, he⟩⟩ := add_cases ha
    · exact ih
    · rw [he, List.nodup_append]
      refine ⟨ih, List.nodup_singleton _, fun a hm b hb hab => hnew ?_⟩
      rw [List.mem_singleton] at hb
      exact hb ▸ hab ▸ hm

theorem Built.ne_unknown (h : Built m) : ∀ e ∈ m.entries, e.2 ≠ .unknown := by
  induction h with
  | empty => intro e he; cases he
  | standard => exact ne_unknown_standard
  | add _ ha ih =>
    obtain ⟨hkey, rfl | ⟨-, he⟩⟩ := add_cases ha
    · exact ih
    · intro e hm
      rw [he, List.mem_append, List.mem_singleton] at hm
      rcases hm with hm | rfl
      · exact ih e hm
      · exact hkey

/-- Every crossing with every key that has a name. -/
def places : List (Cell × Key) :=
  ((List.finRange 8 ×ˢ List.finRange 8).map fun p => (⟨p.1, p.2⟩ : Cell)) ×ˢ Key.all

theorem length_places : places.length = 4928 := by
  simp only [places, List.length_product, List.length_map, List.length_finRange]
  rfl

/-- A matrix has at most one entry for each crossing and key. -/
theorem Built.size_le (h : Built m) : m.size ≤ 4928 := by
  have hsub : m.entries ⊆ places := by
    rintro ⟨⟨row, col⟩, key⟩ he
    refine List.pair_mem_product.mpr ⟨?_, Key.mem_all_iff.mpr (h.ne_unknown _ he)⟩
    exact List.mem_map.mpr ⟨(row, col),
      List.pair_mem_product.mpr ⟨List.mem_finRange _, List.mem_finRange _⟩, rfl⟩
  calc m.size ≤ places.length := (h.nodup.subperm hsub).length_le
    _ = 4928 := length_places

@[simp] theorem mem_cellsFor {key : Key} {cell : Cell} :
    cell ∈ m.cellsFor key ↔ (cell, key) ∈ m.entries := by
  simp [cellsFor]

theorem Built.nodup_cellsFor (h : Built m) (key : Key) : (m.cellsFor key).Nodup := by
  refine List.Nodup.map_on ?_ (h.nodup.filter _)
  rintro ⟨c, k⟩ hc ⟨c', k'⟩ hc' rfl
  simp only [List.mem_filter, decide_eq_true_eq] at hc hc'
  rw [hc.2, hc'.2]

theorem Built.cellsFor_unknown (h : Built m) : m.cellsFor .unknown = [] := by
  rw [List.eq_nil_iff_forall_not_mem]
  intro cell hc
  exact h.ne_unknown _ (mem_cellsFor.mp hc) rfl

/-- Crossings of a key are counted by entries. -/
theorem countP_cellsFor (key : Key) (p : Cell → Bool) :
    (m.cellsFor key).countP p = m.entries.countP fun e => decide (e.2 = key) && p e.1 := by
  rw [cellsFor, List.countP_map, List.countP_filter]
  refine List.countP_congr fun e _ => ?_
  simp [and_comm]

/-- The matrix of the home computer in which the key for the cursor going up
stands for the right shift key with the key for the cursor going down. -/
def withCursorUp : Matrix :=
  ⟨standard.entries ++ [(⟨6, 4⟩, .arrowUp)] ++ [(⟨0, 7⟩, .arrowUp)]⟩

theorem built_withCursorUp : withCursorUp.Built := by
  have hshift : standard.add .arrowUp ⟨6, 4⟩ = .ok ⟨standard.entries ++ [(⟨6, 4⟩, .arrowUp)]⟩ := rfl
  have hdown : add ⟨standard.entries ++ [(⟨6, 4⟩, .arrowUp)]⟩ .arrowUp ⟨0, 7⟩ = .ok withCursorUp := rfl
  exact (Built.standard.add hshift).add hdown

end Matrix
end ScreenBridge
