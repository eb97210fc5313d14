/-
# Faithful libraries

A value that was read holds a tree if the same texts, numbers and flags stand in it
under the same keys, in whatever order the entries stand and however the tables came to
be (`Toml.Holds`). A library is faithful if it reads what it has written, as far as the
tree is a plain one: a table of tables, each of which has plain fields, or nothing but a
list of tables that have. Numbers are signed words of 64 bits, and others are not written
(`Toml.Library.Faithful`).

A tree stays plain when tables or fields are cut out of it (`Toml.Plain.cut`).

Key definitions: `Toml.Holds`, `Toml.Tree.Plain`, `Toml.Tree.Wide`,
`Toml.Library.Faithful`, `Toml.Cut`, `Toml.Tree.cut`.
Key theorems: `Toml.lookup_filter`, `Toml.lookup_cut`, `Toml.Tree.Plain.cut`.
-/
import Mathlib.Data.List.Forall2
import ScreenBridge.Proofs.Toml.Statement
import ScreenBridge.Toml.Library

namespace ScreenBridge
namespace Toml

/-! ### Values and trees -/

/-- The value holds the tree. -/
inductive Holds : Value → Tree → Prop
  | text (s : String) : Holds (.string s) (.text s)
  | number (n : ℕ) : Holds (.integer n) (.number n)
  | flag (b : Bool) : Holds (.boolean b) (.flag b)
  | list {values : List Value} {items : List Tree} :
      List.Forall₂ Holds values items → Holds (.array values) (.list items)
  | tables {elements : List Entries} {items : List Tree} :
      List.Forall₂ Holds (elements.map (.table .header)) items →
        Holds (.tables elements) (.list items)
  | table {kind : TableKind} {values : Entries} {entries : List (String × Tree)} :
      (∀ key, Option.Rel Holds (values.lookup key) (entries.lookup key)) →
        Holds (.table kind values) (.table entries)

namespace Tree

/-- A field that stands in one line. -/
inductive Simple : Tree → Prop
  | text (s : String) : Simple (.text s)
  | number {n : ℕ} : n < Text.signedBound → Simple (.number n)
  | flag (b : Bool) : Simple (.flag b)
  | none : Simple (.list [])

/-- Different fields, each of which stands in one line. -/
structure Flat (fields : List (String × Tree)) : Prop where
  nodup : (fields.map Prod.fst).Nodup
  simple : ∀ field ∈ fields, IsBare field.1 ∧ Simple field.2

/-- A table of simple fields, or of a list of such tables. -/
inductive Group : Tree → Prop
  | fields {fields : List (String × Tree)} : Flat fields → Group (.table fields)
  | elements {name : String} {tables : List (List (String × Tree))} : IsBare name →
      tables ≠ [] → (∀ fields ∈ tables, Flat fields) →
        Group (.table [(name, .list (tables.map .table))])

/-- A table of groups. -/
inductive Plain : Tree → Prop
  | table {entries : List (String × Tree)} : (entries.map Prod.fst).Nodup →
      (∀ entry ∈ entries, IsBare entry.1 ∧ Group entry.2) → Plain (.table entries)

/-- A number of the tree is no signed word. -/
inductive Wide : Tree → Prop
  | number {n : ℕ} : Text.signedBound ≤ n → Wide (.number n)
  | list {item : Tree} {items : List Tree} : item ∈ items → Wide item → Wide (.list items)
  | table {entry : String × Tree} {entries : List (String × Tree)} : entry ∈ entries →
      Wide entry.2 → Wide (.table entries)

end Tree

/-- The library reads what it writes of a plain tree, and writes no number that is no
signed word. -/
structure Library.Faithful (toml : Library) : Prop where
  read_write {t : Tree} : t.Plain →
    ∃ text root, toml.write t = some text ∧ toml.read text = some root ∧
      Holds (.table .header root) t
  write_wide {t : Tree} : t.Wide → toml.write t = none

/-! ### Parts of a tree -/

/-- What is kept of a document: some tables, and some fields of them. -/
structure Cut where
  tables : String → Bool
  fields : String → String → Bool

/-- Everything is kept. -/
def Cut.whole : Cut := ⟨fun _ => true, fun _ _ => true⟩

namespace Tree

/-- The table with the fields that are kept. -/
def keepFields (keep : String → Bool) : Tree → Tree
  | .table fields => .table (fields.filter fun field => keep field.1)
  | t => t

/-- The tree with the tables and fields that are kept. -/
def cut (c : Cut) : Tree → Tree
  | .table entries => .table ((entries.filter fun entry => c.tables entry.1).map
      fun entry => (entry.1, entry.2.keepFields (c.fields entry.1)))
  | t => t

end Tree

variable {α β : Type}

theorem lookup_cons_eq_ite (k key : String) (v : α) (es : List (String × α)) :
    List.lookup k ((key, v) :: es) = if k = key then some v else es.lookup k := by
  rw [List.lookup_cons]
  by_cases h : k = key
  · simp [h]
  · rw [beq_eq_false_iff_ne.mpr h, if_neg h]

/-- What is found among the entries that are kept. -/
theorem lookup_filter (keep : String → Bool) (key : String) : ∀ es : List (String × α),
    (es.filter fun e => keep e.1).lookup key = if keep key then es.lookup key else none
  | [] => by simp
  | (k, v) :: es => by
    have ih := lookup_filter keep key es
    rw [List.filter_cons]
    by_cases hk : keep k = true
    · rw [if_pos hk, lookup_cons_eq_ite, lookup_cons_eq_ite, ih]
      by_cases heq : key = k
      · rw [if_pos heq, if_pos heq, heq, if_pos hk]
      · rw [if_neg heq, if_neg heq]
    · rw [if_neg hk, ih, lookup_cons_eq_ite]
      by_cases heq : key = k
      · rw [heq, if_neg hk, if_neg hk]
      · rw [if_neg heq]

theorem lookup_map (f : String → α → β) (key : String) : ∀ es : List (String × α),
    (es.map fun e => (e.1, f e.1 e.2)).lookup key = (es.lookup key).map (f key)
  | [] => rfl
  | (k, v) :: es => by
    rw [List.map_cons, lookup_cons_eq_ite, lookup_cons_eq_ite, lookup_map f key es]
    by_cases heq : key = k
    · rw [if_pos heq, if_pos heq, heq, Option.map_some]
    · rw [if_neg heq, if_neg heq]

/-- **What is found in a tree that is cut**: the tables that are kept, and of them the
fields that are. -/
theorem lookup_cut (c : Cut) (key : String) (entries : List (String × Tree)) :
    ((entries.filter fun entry => c.tables entry.1).map
        fun entry => (entry.1, entry.2.keepFields (c.fields entry.1))).lookup key =
      if c.tables key then (entries.lookup key).map (Tree.keepFields (c.fields key)) else none := by
  rw [lookup_map fun key t => Tree.keepFields (c.fields key) t, lookup_filter]
  split_ifs <;> rfl

namespace Tree

theorem Flat.filter {fields : List (String × Tree)} (h : Flat fields) (keep : String → Bool) :
    Flat (fields.filter fun field => keep field.1) :=
  ⟨h.nodup.sublist (List.filter_sublist.map Prod.fst), fun field hfield =>
    h.simple field (List.mem_of_mem_filter hfield)⟩

theorem flat_nil : Flat [] := ⟨List.nodup_nil, fun _ h => by cases h⟩

theorem Group.keepFields {t : Tree} (h : Group t) (keep : String → Bool) :
    Group (t.keepFields keep) := by
  cases h with
  | fields hflat => exact .fields (hflat.filter keep)
  | @elements name tables hname hne hflat =>
    rw [Tree.keepFields, List.filter_cons, List.filter_nil]
    split_ifs
    · exact .elements hname hne hflat
    · exact .fields flat_nil

theorem keepFields_whole (t : Tree) : t.keepFields (fun _ => true) = t := by
  cases t with
  | table fields => rw [keepFields, List.filter_true]
  | _ => rfl

@[simp] theorem cut_whole (t : Tree) : t.cut .whole = t := by
  cases t with
  | table entries => simp [cut, Cut.whole, keepFields_whole]
  | _ => rfl

/-- **What is left of a plain tree is plain.** -/
theorem Plain.cut {t : Tree} (h : Plain t) (c : Cut) : Plain (t.cut c) := by
  obtain ⟨hnodup, hgroups⟩ := h
  refine .table ?_ fun entry hentry => ?_
  · rw [List.map_map]
    exact hnodup.sublist (List.filter_sublist.map Prod.fst)
  · obtain ⟨entry, hmem, rfl⟩ := List.mem_map.mp hentry
    obtain ⟨hkey, hgroup⟩ := hgroups entry (List.mem_of_mem_filter hmem)
    exact ⟨hkey, hgroup.keepFields _⟩

end Tree
end Toml
end ScreenBridge
