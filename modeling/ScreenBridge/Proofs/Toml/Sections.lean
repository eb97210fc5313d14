/-
# Trees written as sections are read back

The library that writes a tree as sections is faithful (`Toml.faithful_library`). What
stands under a key of a plain tree becomes sections of that key alone, and the value
that these sections give to the key holds it (`Toml.Tree.Group.written`); so the document
of all sections is one in which each key has such a value (`Toml.Tree.Plain.written`). A
number that is no signed word has no field, and so the tree around it has no sections
(`Toml.Tree.Wide.sections?_eq`).

Key definitions: `Toml.Renders`.
Key theorems: `Toml.Tree.Flat.fieldsOf?_eq`, `Toml.Tree.Group.written`,
`Toml.Tree.Plain.written`, `Toml.Tree.Wide.sections?_eq`, `Toml.faithful_library`.
-/
import ScreenBridge.Proofs.Toml.Tables
import ScreenBridge.Toml.Section

namespace ScreenBridge
namespace Toml

variable {key : String} {ss : List Section} {t : Tree}

/-! ### Fields -/

theorem Tree.Simple.ofTree?_eq (h : t.Simple) :
    ∃ l, Literal.ofTree? t = some l ∧ l.Fits ∧ Holds l.value t := by
  cases h with
  | text s => exact ⟨_, rfl, trivial, .text s⟩
  | number hn => exact ⟨_, if_pos hn, hn, .number _⟩
  | flag b => exact ⟨_, rfl, trivial, .flag b⟩
  | none => exact ⟨_, rfl, trivial, .list .nil⟩

/-- **Simple fields are written**, each as a field of its own. -/
theorem fieldsOf?_eq : ∀ {fields : List (String × Tree)},
    (∀ field ∈ fields, IsBare field.1 ∧ field.2.Simple) →
    ∃ ls, fieldsOf? fields = some ls ∧ ls.map Prod.fst = fields.map Prod.fst ∧
      (∀ l ∈ ls, IsBare l.1 ∧ l.2.Fits) ∧
      ∀ key, Option.Rel Holds ((ls.map fieldEntry).lookup key) (fields.lookup key)
  | [], _ => ⟨[], rfl, rfl, by simp, fun _ => .none⟩
  | (name, t) :: fields, h => by
    obtain ⟨⟨hname, hsimple⟩, h⟩ := List.forall_mem_cons.mp h
    obtain ⟨l, hl, hfits, hholds⟩ := hsimple.ofTree?_eq
    obtain ⟨ls, hls, hnames, hall, hrel⟩ := fieldsOf?_eq h
    refine ⟨(name, l) :: ls, ?_, congrArg (name :: ·) hnames,
      List.forall_mem_cons.mpr ⟨⟨hname, hfits⟩, hall⟩, fun key => ?_⟩
    · unfold fieldsOf? at hls ⊢
      rw [List.mapM_cons, hls, hl]
      rfl
    · rw [List.map_cons, fieldEntry, lookup_cons_eq_ite, lookup_cons_eq_ite]
      split_ifs
      · exact .some hholds
      · exact hrel key

/-! ### Groups -/

/-- The sections are about a key, and what they give it holds the tree. -/
structure Renders (key : String) (ss : List Section) (t : Tree) : Prop where
  root : ∀ s ∈ ss, s.heading.root = key
  readable : ∀ s ∈ ss, s.Readable
  tidy : Tidy ss
  value : ∃ v, valueOfSections ss = some v ∧ Holds v t

theorem Tree.Flat.sectionOf {fields : List (String × Tree)} (h : Flat fields) {heading : Heading}
    (hheading : heading.Readable) :
    ∃ ls, fieldsOf? fields = some ls ∧ Section.Readable ⟨heading, ls⟩ ∧ (ls.map Prod.fst).Nodup ∧
      Holds (.table .header (Section.entries ⟨heading, ls⟩)) (.table fields) := by
  obtain ⟨ls, hls, hnames, hall, hrel⟩ := fieldsOf?_eq h.simple
  exact ⟨ls, hls, ⟨hheading, hall⟩, hnames ▸ h.nodup, .table hrel⟩

/-- A list of such tables is a list of sections. -/
theorem elementsOf {parent name : String} (hparent : IsBare parent) (hname : IsBare name) :
    ∀ {tables : List (List (String × Tree))}, (∀ fields ∈ tables, Tree.Flat fields) →
    ∃ ss, (tables.map Tree.table).mapM (elementOf? parent name) = some ss ∧
      (∀ s ∈ ss, s.heading = .element parent name ∧ s.Readable ∧ (s.fields.map Prod.fst).Nodup) ∧
      List.Forall₂ Holds ((ss.map Section.entries).map (.table .header)) (tables.map Tree.table)
  | [], _ => ⟨[], rfl, by simp, .nil⟩
  | fields :: tables, h => by
    obtain ⟨hflat, h⟩ := List.forall_mem_cons.mp h
    obtain ⟨ls, hls, hreadable, hnodup, hholds⟩ :=
      hflat.sectionOf (show Heading.Readable (.element parent name) from ⟨hparent, hname⟩)
    obtain ⟨ss, hss, hall, hrel⟩ := elementsOf hparent hname h
    refine ⟨⟨.element parent name, ls⟩ :: ss, ?_,
      List.forall_mem_cons.mpr ⟨⟨rfl, hreadable, hnodup⟩, hall⟩, .cons hholds hrel⟩
    rw [List.map_cons, List.mapM_cons, hss, elementOf?, hls]
    rfl

/-- The sections of a table of simple fields. -/
theorem Tree.Flat.sectionsOf?_eq {fields : List (String × Tree)} (h : Flat fields) (key : String) :
    sectionsOf? key (.table fields) =
      (fieldsOf? fields).map fun ls => [⟨.table key, ls⟩] := by
  unfold sectionsOf?
  split
  · -- a list that is not empty is no simple field
    rename_i name item items heq
    obtain rfl := Tree.table.inj heq
    cases (h.simple _ List.mem_cons_self).2
  · rename_i entries _ heq
    obtain rfl := Tree.table.inj heq
    rfl
  · rename_i hother
    exact absurd rfl (hother fields)

/-- **What stands under a key is written** as sections about that key. -/
theorem Tree.Group.written (h : t.Group) (hkey : IsBare key) :
    ∃ ss, sectionsOf? key t = some ss ∧ Renders key ss t := by
  cases h with
  | fields hflat =>
    obtain ⟨ls, hls, hreadable, hnodup, hholds⟩ :=
      hflat.sectionOf (show Heading.Readable (.table key) from hkey)
    refine ⟨[⟨.table key, ls⟩], by rw [hflat.sectionsOf?_eq, hls]; rfl, ?_, ?_, ?_, _, rfl, hholds⟩
    · simp [Heading.root]
    · simpa using hreadable
    · exact ⟨List.pairwise_singleton .., by simpa using hnodup⟩
  | @elements name tables hname hne hflat =>
    obtain ⟨ss, hss, hall, hrel⟩ := elementsOf hkey hname hflat
    obtain ⟨fields, rest, rfl⟩ := List.exists_cons_of_ne_nil hne
    refine ⟨ss, hss, fun s hs => by rw [(hall s hs).1]; rfl, fun s hs => (hall s hs).2.1,
      ⟨?_, fun s hs => (hall s hs).2.2⟩, ?_⟩
    · refine List.pairwise_of_forall_mem_list fun s hs s' hs' _ => ?_
      exact ⟨key, name, (hall s hs).1, (hall s' hs').1⟩
    · cases ss with
      | nil => cases hrel
      | cons s ss =>
        refine ⟨_, by rw [valueOfSections, (hall s List.mem_cons_self).1], .table fun k => ?_⟩
        rw [lookup_cons_eq_ite, lookup_cons_eq_ite]
        split_ifs
        · exact .some (.tables hrel)
        · exact .none

/-! ### Trees -/

/-- The sections of some entries under different keys give each key what it has. -/
theorem entriesWritten : ∀ {entries : List (String × Tree)}, (entries.map Prod.fst).Nodup →
    (∀ entry ∈ entries, IsBare entry.1 ∧ entry.2.Group) →
    ∃ sss, (entries.mapM fun entry => sectionsOf? entry.1 entry.2) = some sss ∧
      (∀ s ∈ sss.flatten, s.Readable ∧ s.heading.root ∈ entries.map Prod.fst) ∧
      Tidy sss.flatten ∧
      ∀ key, Option.Rel Holds (valueUnder key sss.flatten) (entries.lookup key)
  | [], _, _ => ⟨[], rfl, by simp, ⟨.nil, by simp⟩, fun _ => .none⟩
  | (k, t) :: entries, hnodup, h => by
    obtain ⟨⟨hkey, hgroup⟩, h⟩ := List.forall_mem_cons.mp h
    rw [List.map_cons, List.nodup_cons] at hnodup
    obtain ⟨ss, hss, hrenders⟩ := hgroup.written hkey
    obtain ⟨sss, hsss, hall, htidy, hrel⟩ := entriesWritten hnodup.2 h
    have hapart : ∀ s ∈ ss, ∀ s' ∈ sss.flatten, s.heading.root ≠ s'.heading.root :=
      fun s hs s' hs' heq => hnodup.1 (hrenders.root s hs ▸ heq ▸ (hall s' hs').2)
    refine ⟨ss :: sss, by rw [List.mapM_cons, hss, hsss]; rfl, ?_,
      hrenders.tidy.append htidy hapart, fun key => ?_⟩
    · intro s hs
      rcases List.mem_append.mp hs with hs | hs
      · exact ⟨hrenders.readable s hs, hrenders.root s hs ▸ List.mem_cons_self⟩
      · exact ⟨(hall s hs).1, List.mem_cons_of_mem _ (hall s hs).2⟩
    · rw [List.flatten_cons, lookup_cons_eq_ite, valueUnder, sectionsUnder, List.filter_append]
      split_ifs with heq
      · subst heq
        have hself : ss.filter (·.heading.root = key) = ss :=
          List.filter_eq_self.mpr fun s hs => by simpa using hrenders.root s hs
        have hnone : sss.flatten.filter (·.heading.root = key) = [] :=
          List.filter_eq_nil_iff.mpr fun s hs hroot => by
            rw [decide_eq_true_eq] at hroot
            exact hnodup.1 (hroot ▸ (hall s hs).2)
        obtain ⟨v, hv, hholds⟩ := hrenders.value
        rw [hself, hnone, List.append_nil, hv]
        exact .some hholds
      · have hnone : ss.filter (·.heading.root = key) = [] :=
          List.filter_eq_nil_iff.mpr fun s hs hroot => by
            rw [decide_eq_true_eq, hrenders.root s hs] at hroot
            exact heq hroot.symm
        rw [hnone, List.nil_append]
        exact hrel key

/-- **A plain tree is written** as a document that is read as the tree. -/
theorem Tree.Plain.written (h : t.Plain) :
    ∃ ss, t.sections? = some ss ∧ ∃ root, parse (documentText ss) = some root ∧
      Holds (.table .header root) t := by
  obtain ⟨hnodup, hgroups⟩ := h
  obtain ⟨sss, hsss, hall, htidy, hrel⟩ := entriesWritten hnodup hgroups
  obtain ⟨root, hroot, hdescribes⟩ := parse_documentText (fun s hs => (hall s hs).1) htidy
  refine ⟨sss.flatten, by rw [Tree.sections?, hsss]; rfl, root, hroot, .table fun key => ?_⟩
  rw [hdescribes key]
  exact hrel key

/-! ### Numbers that are no signed words -/

theorem mapM_eq_none {α β : Type} {f : α → Option β} {x : α} (hx : f x = none) :
    ∀ {xs : List α}, x ∈ xs → xs.mapM f = none
  | y :: ys, h => by
    rw [List.mapM_cons]
    rcases List.mem_cons.mp h with rfl | h
    · rw [hx]
      rfl
    · rw [mapM_eq_none hx h]
      cases f y <;> rfl

theorem Tree.Wide.ofTree?_eq (h : t.Wide) : Literal.ofTree? t = none := by
  cases h with
  | number hn => exact if_neg (Nat.not_lt.mpr hn)
  | @list item items hitem _ =>
    obtain ⟨first, rest, rfl⟩ := List.exists_cons_of_ne_nil (List.ne_nil_of_mem hitem)
    rfl
  | table _ _ => rfl

theorem fieldsOf?_eq_none {fields : List (String × Tree)} {field : String × Tree}
    (hfield : field ∈ fields) (h : field.2.Wide) : fieldsOf? fields = none :=
  mapM_eq_none (x := field) (by rw [h.ofTree?_eq]; rfl) hfield

theorem Tree.Wide.elementOf?_eq (h : t.Wide) (parent name : String) :
    elementOf? parent name t = none := by
  cases h with
  | number _ => rfl
  | list _ _ => rfl
  | table hfield hwide => rw [elementOf?, fieldsOf?_eq_none hfield hwide, Option.map_none]

theorem Tree.Wide.sectionsOf?_eq (h : t.Wide) (key : String) : sectionsOf? key t = none := by
  cases h with
  | number _ => rfl
  | list _ _ => rfl
  | @table entry entries hentry hwide =>
    unfold sectionsOf?
    split
    · rename_i name item items heq
      obtain rfl := Tree.table.inj heq
      obtain rfl := List.mem_singleton.mp hentry
      cases hwide with
      | list hitem hwide => exact mapM_eq_none (hwide.elementOf?_eq key name) hitem
    · rename_i entries' _ heq
      obtain rfl := Tree.table.inj heq
      rw [fieldsOf?_eq_none hentry hwide, Option.map_none]
    · rfl

/-- **A tree with a number that is no signed word** has no sections. -/
theorem Tree.Wide.sections?_eq (h : t.Wide) : t.sections? = none := by
  cases h with
  | number _ => rfl
  | list _ _ => rfl
  | @table entry entries hentry hwide =>
    rw [Tree.sections?, mapM_eq_none (x := entry) (hwide.sectionsOf?_eq entry.1) hentry,
      Option.map_none]

/-- **The library that writes sections is faithful.** -/
theorem faithful_library : library.Faithful where
  read_write h := by
    obtain ⟨ss, hss, root, hroot, hholds⟩ := h.written
    exact ⟨documentText ss, root, congrArg (Option.map documentText) hss, hroot, hholds⟩
  write_wide h := congrArg (Option.map documentText) h.sections?_eq

end Toml
end ScreenBridge
