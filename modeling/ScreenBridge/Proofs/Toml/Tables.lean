/-
# What sections build

The statements of a section change one value of the document: a header opens a table,
and the fields behind it fill that table and no other (`Toml.Focus`). If no two sections
are about the same key, but for the elements of one list of tables (`Toml.Tidy`), each
key of the document comes to have the value its sections give it
(`Toml.parse_documentText`).

Key definitions: `Toml.Focus`, `Toml.Section.entries`, `Toml.Heading.Apart`,
`Toml.Tidy`, `Toml.valueUnder`, `Toml.Describes`.
Key theorems: `Toml.Focus.fields`, `Toml.Describes.apply`, `Toml.Describes.foldlM`,
`Toml.parse_documentText`.
-/
import ScreenBridge.Proofs.Toml.Faithful
import ScreenBridge.Toml.Document

namespace ScreenBridge
namespace Toml

/-! ### Entries -/

namespace Entries

variable {key k : String} {v w : Value} {es : Entries}

theorem lookup_set (key : String) (v : Value) (k : String) : ∀ es : Entries,
    (es.set key v).lookup k = if k = key then some v else es.lookup k
  | [] => lookup_cons_eq_ite ..
  | (k', w) :: es => by
    have ih := lookup_set key v k es
    rw [set]
    by_cases hkey : k' = key
    · rw [if_pos hkey, lookup_cons_eq_ite, lookup_cons_eq_ite, hkey]
      split_ifs <;> rfl
    · rw [if_neg hkey, lookup_cons_eq_ite, lookup_cons_eq_ite, ih]
      split_ifs with h h'
      · exact absurd (h.symm.trans h') hkey
      all_goals rfl

theorem set_set (key : String) (v w : Value) : ∀ es : Entries,
    (es.set key v).set key w = es.set key w
  | [] => by simp [set]
  | (k, x) :: es => by
    have ih := set_set key v w es
    by_cases hkey : k = key
    · simp [set, hkey]
    · simp [set, hkey, ih]

theorem set_of_lookup_eq_none : ∀ {es : Entries}, es.lookup key = none →
    es.set key v = es ++ [(key, v)]
  | [], _ => rfl
  | (k, x) :: es, h => by
    rw [lookup_cons_eq_ite] at h
    split_ifs at h with hkey
    rw [set, if_neg (Ne.symm hkey), set_of_lookup_eq_none h, List.cons_append]

theorem lookup_of_mem : ∀ {es : Entries}, (es.map Prod.fst).Nodup → (key, v) ∈ es →
    es.lookup key = some v
  | (k, w) :: es, hnodup, h => by
    rw [List.map_cons, List.nodup_cons] at hnodup
    rw [lookup_cons_eq_ite]
    rcases List.mem_cons.mp h with heq | h
    · obtain ⟨rfl, rfl⟩ := Prod.mk.inj heq
      exact if_pos rfl
    · have hkey : key ∈ es.map Prod.fst := List.mem_map.mpr ⟨(key, v), h, rfl⟩
      have hne : key ≠ k := fun heq => hnodup.1 (heq ▸ hkey)
      rw [if_neg hne, lookup_of_mem hnodup.2 h]

end Entries

/-! ### The table that is filled -/

/-- The path leads to a table of the document, and `root` puts entries into that table
and leaves the others as they are. -/
def Focus (path : List String) (root : Entries → Entries) : Prop :=
  ∀ (change : Entries → Option Entries) (es : Entries),
    modifyAt .byHeader (fun _ => change) path .header (root es) = (change es).map root

theorem focus_table (key : String) (root : Entries) :
    Focus [key] fun es => root.set key (.table .header es) := by
  intro change es
  rw [modifyAt, Entries.lookup_set, if_pos rfl]
  simp [Descent.byHeader, modifyAt, Entries.set_set]

theorem focus_element (parent key : String) (els : List Entries) (root : Entries) :
    Focus [parent, key] fun es =>
      root.set parent (.table .implied [(key, .tables (els ++ [es]))]) := by
  intro change es
  rw [modifyAt, Entries.lookup_set, if_pos rfl]
  cases hchange : change es <;>
    simp [Descent.byHeader, modifyAt, Entries.set_set, Entries.set, hchange]

/-- What a field adds to its table. -/
def fieldEntry (field : String × Literal) : String × Value := (field.1, field.2.value)

theorem apply_field {path : List String} {root : Entries → Entries} (hfocus : Focus path root)
    {es : Entries} {field : String × Literal} (hfree : es.lookup field.1 = none) :
    Document.apply ⟨root es, path⟩ (fieldStatement field) =
      some ⟨root (es ++ [fieldEntry field]), path⟩ := by
  have hchange : insert .byDottedKey ⟨[], field.1⟩ field.2.value es = some (es ++ [fieldEntry field]) := by
    simp [insert, modifyAt, addNew, hfree, fieldEntry]
  rw [fieldStatement, Document.apply, hfocus, hchange]
  rfl

/-- **Fields fill the table** that the path leads to, in their order. -/
theorem Focus.fields {path : List String} {root : Entries → Entries} (hfocus : Focus path root) :
    ∀ {fields : List (String × Literal)} {es : Entries}, (fields.map Prod.fst).Nodup →
      (∀ field ∈ fields, es.lookup field.1 = none) →
      (fields.map fieldStatement).foldlM Document.apply ⟨root es, path⟩ =
        some ⟨root (es ++ fields.map fieldEntry), path⟩
  | [], es, _, _ => by simp
  | field :: fields, es, hnodup, hfree => by
    rw [List.map_cons, List.nodup_cons] at hnodup
    obtain ⟨hfield, hfree⟩ := List.forall_mem_cons.mp hfree
    have hnext : ∀ f ∈ fields, (es ++ [fieldEntry field]).lookup f.1 = none := fun f hf => by
      have hne : f.1 ≠ field.1 := fun h => hnodup.1 (h ▸ List.mem_map_of_mem hf)
      rw [List.lookup_append, hfree f hf]
      simp [fieldEntry, hne]
    rw [List.map_cons, List.foldlM_cons, apply_field hfocus hfield]
    exact (hfocus.fields hnodup.2 hnext).trans (by simp)

/-! ### One section -/

/-- What the fields of a section add to its table. -/
def Section.entries (s : Section) : Entries := s.fields.map fieldEntry

/-- **A table of its own.** -/
theorem apply_table {key : String} {fields : List (String × Literal)} {root : Entries}
    (hnodup : (fields.map Prod.fst).Nodup) (hfree : root.lookup key = none) (path : List String) :
    (Section.statements ⟨.table key, fields⟩).foldlM Document.apply ⟨root, path⟩ =
      some ⟨root.set key (.table .header (fields.map fieldEntry)), [key]⟩ := by
  have hopen : Document.apply ⟨root, path⟩ (.header ⟨[], key⟩) =
      some ⟨root.set key (.table .header []), [key]⟩ := by
    simp [Document.apply, modifyAt, openTable, hfree, Entries.set_of_lookup_eq_none hfree,
      KeyPath.keys]
  rw [Section.statements, List.foldlM_cons, Heading.statement, hopen]
  exact (focus_table key root).fields hnodup (by simp)

/-- **One more of the tables at a path**, where these tables stand already or nothing
does. -/
theorem apply_element {parent key : String} {fields : List (String × Literal)} {root : Entries}
    {els : List Entries} (hnodup : (fields.map Prod.fst).Nodup)
    (hels : root.lookup parent = none ∧ els = [] ∨
      root.lookup parent = some (.table .implied [(key, .tables els)])) (path : List String) :
    (Section.statements ⟨.element parent key, fields⟩).foldlM Document.apply ⟨root, path⟩ =
      some ⟨root.set parent (.table .implied [(key, .tables (els ++ [fields.map fieldEntry]))]),
        [parent, key]⟩ := by
  have hopen : Document.apply ⟨root, path⟩ (.elementHeader ⟨[parent], key⟩) =
      some ⟨root.set parent (.table .implied [(key, .tables (els ++ [[]]))]), [parent, key]⟩ := by
    rcases hels with ⟨hfree, rfl⟩ | hthere
    · simp [Document.apply, modifyAt, openElement, hfree, Entries.set_of_lookup_eq_none hfree,
        KeyPath.keys, Descent.byHeader]
    · simp [Document.apply, modifyAt, openElement, hthere, Entries.set, KeyPath.keys,
        Descent.byHeader]
  rw [Section.statements, List.foldlM_cons, Heading.statement, hopen]
  exact (focus_element parent key els root).fields hnodup (by simp)

/-! ### All sections -/

namespace Heading

/-- The key of the document that the header is about. -/
def root : Heading → String
  | table key => key
  | element parent _ => parent

/-- Two headers of a document do not collide: they are about different keys, or name the
same list of tables. -/
def Apart (h h' : Heading) : Prop :=
  h.root = h'.root → ∃ parent key, h = .element parent key ∧ h' = .element parent key

end Heading

/-- The sections make up a document: no two headers collide, and no field of a section
is written twice. -/
structure Tidy (ss : List Section) : Prop where
  headings : ss.Pairwise fun s t => s.heading.Apart t.heading
  fields : ∀ s ∈ ss, (s.fields.map Prod.fst).Nodup

theorem Tidy.append {ss ts : List Section} (hss : Tidy ss) (hts : Tidy ts)
    (hroots : ∀ s ∈ ss, ∀ t ∈ ts, s.heading.root ≠ t.heading.root) : Tidy (ss ++ ts) where
  headings := List.pairwise_append.mpr ⟨hss.headings, hts.headings, fun s hs t ht h =>
    absurd h (hroots s hs t ht)⟩
  fields := List.forall_mem_append.mpr ⟨hss.fields, hts.fields⟩

/-- The sections about a key. -/
def sectionsUnder (key : String) (ss : List Section) : List Section :=
  ss.filter (·.heading.root = key)

/-- The value that sections about one key give it. -/
def valueOfSections : List Section → Option Value
  | [] => none
  | s :: ss =>
    match s.heading with
    | .table _ => some (.table .header s.entries)
    | .element _ key => some (.table .implied [(key, .tables ((s :: ss).map Section.entries))])

/-- The value that sections give to a key. -/
def valueUnder (key : String) (ss : List Section) : Option Value :=
  valueOfSections (sectionsUnder key ss)

/-- Every key has the value that the sections give it. -/
def Describes (root : Entries) (ss : List Section) : Prop :=
  ∀ key, root.lookup key = valueUnder key ss

variable {root : Entries} {ss : List Section} {s : Section}

theorem mem_sectionsUnder {key : String} {t : Section} :
    t ∈ sectionsUnder key ss ↔ t ∈ ss ∧ t.heading.root = key := by
  simp [sectionsUnder]

theorem sectionsUnder_append_self : sectionsUnder s.heading.root (ss ++ [s]) =
    sectionsUnder s.heading.root ss ++ [s] := by
  simp [sectionsUnder, List.filter_append]

theorem sectionsUnder_append_of_ne {key : String} (h : s.heading.root ≠ key) :
    sectionsUnder key (ss ++ [s]) = sectionsUnder key ss := by
  simp [sectionsUnder, List.filter_append, h]

theorem describes_nil : Describes [] [] := fun _ => rfl

theorem Describes.set (h : Describes root ss) {value : Value}
    (hvalue : valueOfSections (sectionsUnder s.heading.root ss ++ [s]) = some value) :
    Describes (root.set s.heading.root value) (ss ++ [s]) := by
  intro key
  rw [Entries.lookup_set, valueUnder]
  split_ifs with hkey
  · rw [hkey, sectionsUnder_append_self, hvalue]
  · rw [h key, valueUnder, sectionsUnder_append_of_ne (Ne.symm hkey)]

/-- **What one section builds**: the value of the key it is about, and nothing else. -/
theorem Describes.apply (h : Describes root ss) (htidy : Tidy (ss ++ [s])) (path : List String) :
    ∃ root' path', s.statements.foldlM Document.apply ⟨root, path⟩ = some ⟨root', path'⟩ ∧
      Describes root' (ss ++ [s]) := by
  have hnodup := htidy.fields s (List.mem_append_right ss List.mem_cons_self)
  have hapart : ∀ t ∈ sectionsUnder s.heading.root ss, ∃ parent key,
      t.heading = .element parent key ∧ s.heading = .element parent key := fun t ht => by
    obtain ⟨hmem, hroot⟩ := mem_sectionsUnder.mp ht
    exact (List.pairwise_append.mp htidy.headings).2.2 t hmem s List.mem_cons_self hroot
  have hlookup := h s.heading.root
  have hset : ∀ value, valueOfSections (sectionsUnder s.heading.root ss ++ [s]) = some value →
      Describes (root.set s.heading.root value) (ss ++ [s]) := fun _ => h.set
  rw [valueUnder] at hlookup
  obtain ⟨heading, fields⟩ := s
  rcases hunder : sectionsUnder heading.root ss with _ | ⟨t, rest⟩
  · rw [hunder] at hlookup hset
    cases heading with
    | table key => exact ⟨_, _, apply_table hnodup hlookup path, hset _ rfl⟩
    | element parent key =>
      exact ⟨_, _, apply_element hnodup (Or.inl ⟨hlookup, rfl⟩) path, hset _ rfl⟩
  · -- another section about this key has the same double header
    obtain ⟨parent, key, ht, rfl⟩ : ∃ parent key, t.heading = .element parent key ∧
        heading = .element parent key := hapart t (hunder ▸ List.mem_cons_self)
    rw [hunder] at hlookup hset
    rw [valueOfSections, ht] at hlookup
    refine ⟨_, _, apply_element hnodup (Or.inr hlookup) path, hset _ ?_⟩
    rw [List.cons_append, valueOfSections, ht]
    simp [Section.entries]

/-- **What sections build**, one after another. -/
theorem Describes.foldlM : ∀ {ts ss : List Section} {root : Entries}, Describes root ss →
    Tidy (ss ++ ts) → ∀ path, ∃ root' path',
      (ts.flatMap Section.statements).foldlM Document.apply ⟨root, path⟩ = some ⟨root', path'⟩ ∧
        Describes root' (ss ++ ts)
  | [], ss, root, h, _, path => ⟨root, path, rfl, by rwa [List.append_nil]⟩
  | t :: ts, ss, root, h, htidy, path => by
    have hsplit : ss ++ t :: ts = (ss ++ [t]) ++ ts := by simp
    rw [hsplit] at htidy ⊢
    have hfirst : Tidy (ss ++ [t]) :=
      ⟨htidy.headings.sublist (List.sublist_append_left ..),
        fun s hs => htidy.fields s (List.mem_append_left ts hs)⟩
    obtain ⟨root', path', happly, hdescribes⟩ := h.apply hfirst path
    rw [List.flatMap_cons, List.foldlM_append, happly]
    exact hdescribes.foldlM htidy path'

/-- **A document of sections is read back**: each key of it has the value that the
sections give it. -/
theorem parse_documentText {ss : List Section} (hreadable : ∀ s ∈ ss, s.Readable)
    (htidy : Tidy ss) :
    ∃ root, parse (documentText ss) = some root ∧ Describes root ss := by
  obtain ⟨root, path, hroot, hdescribes⟩ := describes_nil.foldlM (show Tidy ([] ++ ss) from htidy) []
  refine ⟨root, ?_, hdescribes⟩
  rw [parse, statements_documentText hreadable, Option.bind_some, build, Document.empty, hroot,
    Option.map_some]

end Toml
end ScreenBridge
