/-
# Whoever knows the key meets on the same bytes

Handles come and go: segments are created and attached, read and written, and
handles are dropped, in any order, but no segment is removed. Each handle goes on
standing for the segment of its key (`Sharing.Sound`), and the bytes of a segment
are those that were written last through handles of its key
(`Sharing.bytes_actAll`). What the system refuses may change from call to call; a
handle is had again whenever it lets segments be mapped.

The private key is the exception. Nobody attaches to it
(`SegmentTable.attach_privateKey`), and under it every segment is another one
(`SegmentTable.number_ne_of_create_privateKey`), so nobody who is given it gets to see
a segment that was made under it (`Sharing.key_zero_meets_nobody`).

Key definitions: `Sharing`, `SegmentAction`, `Sharing.act`, `Sharing.puts`,
`Sharing.Sound`.
Key theorems: `Sharing.Sound.act`, `Sharing.Sound.actAll`, `Sharing.bytes_actAll`,
`Sharing.same_key_same_bytes`, `SegmentTable.attach_privateKey`,
`SegmentTable.number_ne_of_create_privateKey`.
-/
import Mathlib.Logic.Function.Basic
import ScreenBridge.Arguments
import ScreenBridge.Proofs.Opening

namespace ScreenBridge

/-- The segments and the handles that are held on them, each at a place of its own. -/
structure Sharing where
  table : SegmentTable
  handles : ℕ → Option SegmentHandle

/-- What is done with segments, and what the system refuses of it. A handle is named by
its place. -/
inductive SegmentAction
  | create (place : ℕ) (r : SegmentRefusals) (key : UInt32) (required alloc : UInt64)
  | attach (place : ℕ) (r : SegmentRefusals) (key : UInt32) (required : UInt64)
  | write (place : ℕ) (offset : UInt64) (value : UInt8)
  | read (place : ℕ) (offset length : UInt64)
  | drop (place : ℕ)

namespace Sharing

open ByteStore SegmentTable

/-- A table of segments on which no handles are held. -/
def unopened (table : SegmentTable) : Sharing := ⟨table, fun _ => none⟩

/-- Does something with the segments. A handle that is made takes the place of the
one that was there; an attempt that fails leaves it. -/
def act (s : Sharing) : SegmentAction → Sharing
  | .create place r key required alloc =>
    match s.table.create r key required alloc with
    | (.ok h, table) => ⟨table, Function.update s.handles place (some h)⟩
    | (.error _, table) => { s with table := table }
  | .attach place r key required =>
    match s.table.attach r key required with
    | .ok h => { s with handles := Function.update s.handles place (some h) }
    | .error _ => s
  | .write place offset value =>
    match s.handles place with
    | some h => { s with table := (s.table.write h offset value).2 }
    | none => s
  | .read .. => s
  | .drop place => { s with handles := Function.update s.handles place none }

def actAll (s : Sharing) (actions : List SegmentAction) : Sharing := actions.foldl act s

/-- The byte that an action puts through a handle with the key, if it does. -/
def put? (key : UInt32) (s : Sharing) : SegmentAction → Option (UInt64 × UInt8)
  | .write place offset value =>
    match s.handles place with
    | some h => if h.key = key ∧ offset.toNat < h.length.toNat then some (offset, value) else none
    | none => none
  | _ => none

/-- The bytes that some actions put through handles with the key, in order. -/
def puts (key : UInt32) (s : Sharing) : List SegmentAction → List (UInt64 × UInt8)
  | [] => []
  | a :: actions => (s.put? key a).toList ++ puts key (s.act a) actions

theorem table_act_create (s : Sharing) (place : ℕ) (r : SegmentRefusals) (key : UInt32)
    (required alloc : UInt64) :
    (s.act (.create place r key required alloc)).table =
      (s.table.create r key required alloc).2 := by
  unfold act
  dsimp only
  split <;> rename_i heq <;> rw [heq]

/-! ### Handles stand for the segments of their keys -/

/-- Every handle stands for a segment, and its key finds that segment. -/
structure Sound (s : Sharing) : Prop where
  addressable : s.table.Addressable
  opens : ∀ place h, s.handles place = some h → s.table.Opens h

variable {s : Sharing} {h : SegmentHandle}

theorem sound_unopened {table : SegmentTable} (ht : table.Addressable) : (unopened table).Sound :=
  ⟨ht, fun _ _ hh => by cases hh⟩

theorem Sound.of_keeps (hs : s.Sound) {table : SegmentTable} (ht : table.Addressable)
    (hk : Keeps s.table table) : Sound ⟨table, s.handles⟩ :=
  ⟨ht, fun place h hh => (hs.opens place h hh).of_keeps hk⟩

theorem Sound.update (hs : s.Sound) (place : ℕ) {handle : Option SegmentHandle}
    (ho : ∀ h, handle = some h → s.table.Opens h) :
    Sound ⟨s.table, Function.update s.handles place handle⟩ := by
  refine ⟨hs.addressable, fun place' h hh => ?_⟩
  by_cases heq : place' = place
  · subst heq
    exact ho h (by simpa using hh)
  · exact hs.opens place' h (by simpa [heq] using hh)

/-- **One action.** The handles stay sound, and the segments that were there stay
with their keys and lengths. -/
theorem Sound.act (hs : s.Sound) (a : SegmentAction) :
    (s.act a).Sound ∧ Keeps s.table (s.act a).table := by
  cases a with
  | create place r key required alloc =>
    obtain ⟨hext, ht, hopens⟩ := create_sound hs.addressable r key required alloc
    rcases hcreate : s.table.create r key required alloc with ⟨e | h, table⟩ <;>
      rw [hcreate] at hext ht hopens <;> simp only [Sharing.act, hcreate]
    · exact ⟨hs.of_keeps ht hext.keeps, hext.keeps⟩
    · have ho := (hopens h rfl).1
      exact ⟨(hs.of_keeps ht hext.keeps).update place fun h' hh => Option.some.inj hh ▸ ho,
        hext.keeps⟩
  | attach place r key required =>
    cases hattach : s.table.attach r key required with
    | error e =>
      simp only [Sharing.act, hattach]
      exact ⟨hs, Keeps.refl _⟩
    | ok h =>
      have ho := (opens_of_attach hs.addressable hattach).1
      simp only [Sharing.act, hattach]
      exact ⟨hs.update place fun h' hh => Option.some.inj hh ▸ ho, Keeps.refl _⟩
  | write place offset value =>
    cases hh : s.handles place with
    | none =>
      simp only [Sharing.act, hh]
      exact ⟨hs, Keeps.refl _⟩
    | some h =>
      have hk := keeps_write s.table h offset value
      simp only [Sharing.act, hh]
      exact ⟨hs.of_keeps (hs.addressable.write h offset value) hk, hk⟩
  | read place offset length => exact ⟨hs, Keeps.refl _⟩
  | drop place => exact ⟨hs.update place (fun h hh => by cases hh), Keeps.refl _⟩

/-- **Any actions.** -/
theorem Sound.actAll : ∀ (actions : List SegmentAction) {s : Sharing}, s.Sound →
    (s.actAll actions).Sound ∧ Keeps s.table (s.actAll actions).table
  | [], s, hs => ⟨hs, Keeps.refl _⟩
  | a :: actions, s, hs => by
    obtain ⟨hs', hk⟩ := hs.act a
    obtain ⟨hs'', hk'⟩ := hs'.actAll actions
    exact ⟨hs'', hk.trans hk'⟩

/-! ### What the bytes of a segment are -/

/-- **One action.** It puts into a segment what it writes through a handle of its
key, and nothing else. -/
theorem bytes_act (hs : s.Sound) (ho : s.table.Opens h) (hp : h.key ≠ privateKey)
    (a : SegmentAction) :
    (s.act a).table.bytes h.number = putAll (s.table.bytes h.number) (s.put? h.key a).toList := by
  cases a with
  | create place r key required alloc =>
    obtain ⟨hext, -, -⟩ := create_sound hs.addressable r key required alloc
    obtain ⟨segment, hsegment, -⟩ := ho.segment
    have hstay := hext _ _ hsegment
    rw [table_act_create]
    simp [put?, putAll, SegmentTable.bytes, hsegment, hstay]
  | attach place r key required =>
    cases hattach : s.table.attach r key required <;> simp [Sharing.act, hattach, put?, putAll]
  | write place offset value =>
    cases hh : s.handles place with
    | none => simp [Sharing.act, hh, put?, putAll]
    | some h' =>
      have ho' := hs.opens place h' hh
      by_cases hkey : h'.key = h.key
      · obtain rfl := ho.eq_of_key_eq ho' hp hkey
        by_cases hlt : offset.toNat < h'.length.toNat
        · simp [Sharing.act, hh, put?, putAll, hlt, (ho.write_inside value hlt).2]
        · have hrefused := ho.write_outside value (Nat.le_of_not_lt hlt)
          simp [Sharing.act, hh, put?, putAll, hlt, hrefused]
      · have hne := ho'.number_ne ho (Ne.symm hkey)
        simp [Sharing.act, hh, put?, hkey, putAll, bytes_write_of_ne _ _ _ _ hne]
  | read place offset length => rfl
  | drop place => rfl

theorem bytes_actAll (hp : h.key ≠ privateKey) : ∀ (actions : List SegmentAction) {s : Sharing},
    s.Sound → s.table.Opens h →
      (s.actAll actions).table.bytes h.number =
        putAll (s.table.bytes h.number) (puts h.key s actions)
  | [], _, _, _ => rfl
  | a :: actions, s, hs, ho => by
    obtain ⟨hs', hk⟩ := hs.act a
    have hrest := bytes_actAll hp actions hs' (ho.of_keeps hk)
    rw [puts, putAll_append, ← bytes_act hs ho hp a]
    exact hrest

/-! ### Meeting -/

/-- **Whoever knows the key meets on the same bytes.** Once a segment was created or
found under a key that is not private, then whatever is done afterwards, every
attempt to attach or create a segment of that key that asks for no more than its
length yields the same handle, as long as the system lets segments be mapped, and all
handles with the key are that one. Through it one reads the bytes that were put last
through handles with the key, and a byte that is written is what one reads next.
Handles with other keys stand for other bytes. -/
theorem same_key_same_bytes {table : SegmentTable} (ht : table.Addressable) {key : UInt32}
    (hkey : key ≠ privateKey) (before : List SegmentAction) {place : ℕ} {r : SegmentRefusals}
    {required alloc : UInt64} {h : SegmentHandle}
    (hcreate : (((unopened table).actAll before).table.create r key required alloc).1 = .ok h)
    (later : List SegmentAction) :
    let created := ((unopened table).actAll before).act (.create place r key required alloc)
    let s := created.actAll later
    (∀ required' ≤ h.length, ∀ r' : SegmentRefusals, r'.Maps →
      s.table.attach r' key required' = .ok h ∧
        ∀ alloc', s.table.create r' key required' alloc' = (.ok h, s.table)) ∧
    (∀ place' h', s.handles place' = some h' → h'.key = key → h' = h) ∧
    (∀ offset length : UInt64, offset.toNat + length.toNat ≤ h.length.toNat →
      s.table.read h offset length =
        .ok ((putAll (created.table.bytes h.number) (puts key created later)).extract
          offset.toNat (offset.toNat + length.toNat))) ∧
    (∀ (offset : UInt64) (value : UInt8), offset.toNat < h.length.toNat →
      (s.table.write h offset value).1 = .ok () ∧
        (s.table.write h offset value).2.read h offset 1 = .ok #[value]) ∧
    (∀ place₁ place₂ h₁ h₂, s.handles place₁ = some h₁ → s.handles place₂ = some h₂ →
      h₁.key ≠ h₂.key → ∀ (offset : UInt64) (value : UInt8),
        (s.table.write h₁ offset value).2.bytes h₂.number = s.table.bytes h₂.number) := by
  intro created s
  have hbefore := ((sound_unopened ht).actAll before).1
  obtain ⟨hcreated, -⟩ := hbefore.act (.create place r key required alloc)
  obtain ⟨hs, hk⟩ := hcreated.actAll later
  have hopen : created.table.Opens h ∧ h.key = key := by
    rw [table_act_create]
    exact (create_sound hbefore.addressable r key required alloc).2.2 h hcreate
  obtain ⟨ho, rfl⟩ := hopen
  have ho' : s.table.Opens h := ho.of_keeps hk
  refine ⟨fun required' hle r' hr => ?_, fun place' h' hh hsame => ?_, fun offset length hle => ?_,
    fun offset value hlt => ?_, fun place₁ place₂ h₁ h₂ hh₁ hh₂ hne offset value => ?_⟩
  · exact ⟨ho'.attach_eq hr hkey hle, ho'.create_eq hr hkey hle⟩
  · exact ho'.eq_of_key_eq (hs.opens place' h' hh) hkey hsame
  · rw [ho'.read_eq, if_pos hle, bytes_actAll hkey later hcreated ho]
  · exact ⟨(ho'.write_inside value hlt).1, ho'.read_write value hlt⟩
  · have hnumber := (hs.opens place₁ h₁ hh₁).number_ne (hs.opens place₂ h₂ hh₂) (Ne.symm hne)
    exact bytes_write_of_ne s.table h₁ offset value hnumber

/-- The handle through which a byte was written is dropped, and the byte is still read
by whoever attaches to key 5. Key 9 has a byte of its own at that place. -/
theorem byte_outlives_its_handle :
    let n : SegmentRefusals := .nothing
    let created := ((unopened .empty).actAll [.create 3 n 9 4 4]).act (.create 0 n 5 2 4)
    let s := created.actAll [.write 0 3 7, .drop 0, .write 3 3 8]
    s.table.attach n 5 3 = .ok ⟨1, 5, 4⟩ ∧ s.table.read ⟨1, 5, 4⟩ 2 2 = .ok #[0, 7] := by
  intro n
  have hmax : max (4 : UInt64) 4 = 4 := rfl
  have hmax' : max (4 : UInt64) 2 = 4 := rfl
  have hfirst : (unopened .empty).actAll [.create 3 n 9 4 4] =
      ⟨⟨#[⟨9, .replicate 4 0, false⟩]⟩, Function.update (fun _ => none) 3 (some ⟨0, 9, 4⟩)⟩ := by
    simp [unopened, actAll, act, create, find?, empty, privateKey, n, SegmentRefusals.nothing,
      SegmentRefusals.lengthFault?, SegmentRefusals.handle, hmax]
  have hcreate : ((unopened .empty).actAll [.create 3 n 9 4 4]).table.create n 5 2 4 =
      (.ok ⟨1, 5, 4⟩, ⟨#[⟨9, .replicate 4 0, false⟩, ⟨5, .replicate 4 0, false⟩]⟩) := by
    rw [hfirst]
    simp [create, find?, privateKey, n, SegmentRefusals.nothing, SegmentRefusals.lengthFault?,
      SegmentRefusals.handle, hmax']
  have hcreated : ((unopened .empty).actAll [.create 3 n 9 4 4]).act (.create 0 n 5 2 4) =
      ⟨⟨#[⟨9, .replicate 4 0, false⟩, ⟨5, .replicate 4 0, false⟩]⟩,
        Function.update (Function.update (fun _ => none) 3 (some ⟨0, 9, 4⟩)) 0 (some ⟨1, 5, 4⟩)⟩ := by
    rw [act, hcreate, hfirst]
  have hempty : SegmentTable.empty.Addressable := fun _ _ hs => by cases hs
  have hkey : (5 : UInt32) ≠ privateKey := by decide
  obtain ⟨hattach, -, hread, -⟩ := @same_key_same_bytes .empty hempty 5 hkey [.create 3 n 9 4 4]
    0 n 2 4 ⟨1, 5, 4⟩ (congrArg Prod.fst hcreate) [.write 0 3 7, .drop 0, .write 3 3 8]
  refine ⟨(hattach 3 (by decide) n SegmentRefusals.maps_nothing).1,
    (hread 2 2 (by decide)).trans ?_⟩
  rw [hcreated]
  rfl

end Sharing

/-! ### The private key -/

namespace SegmentTable

/-- Nobody attaches to the private key. -/
theorem attach_privateKey (t : SegmentTable) (r : SegmentRefusals) (required : UInt64) :
    t.attach r privateKey required = .error (.attach privateKey .invalidArgument) := if_pos rfl

/-- Under the private key every segment is another one. -/
theorem number_ne_of_create_privateKey {t u v : SegmentTable} {r r' : SegmentRefusals}
    {h h' : SegmentHandle} {required alloc required' alloc' : UInt64}
    (hcreate : t.create r privateKey required alloc = (.ok h, u))
    (hcreate' : u.create r' privateKey required' alloc' = (.ok h', v)) : h'.number ≠ h.number := by
  have hfind : ∀ t : SegmentTable, t.find? privateKey = none := fun _ => if_pos rfl
  obtain ⟨-, -, rfl, rfl⟩ := (create_eq_ok_iff (hfind t)).mp hcreate
  obtain ⟨-, -, rfl, -⟩ := (create_eq_ok_iff (hfind _)).mp hcreate'
  simp [grown]

end SegmentTable

namespace Sharing

open SegmentTable

/-- Zero is accepted as a key and is the private one. After a segment was created
under it, one cannot attach to it, and creating it once more yields other bytes. -/
theorem key_zero_meets_nobody :
    Arguments.readKey "0" = .ok privateKey ∧
    ∃ h h' table table', SegmentTable.empty.create .nothing privateKey 14 16 = (.ok h, table) ∧
      table.attach .nothing privateKey 14 = .error (.attach privateKey .invalidArgument) ∧
      table.create .nothing privateKey 14 16 = (.ok h', table') ∧ h'.number ≠ h.number ∧
      (table'.write h 0 1).2.read h' 0 1 = .ok #[0] := by
  have hfirst : SegmentTable.empty.create .nothing privateKey 14 16 =
      (.ok ⟨0, 0, 16⟩, SegmentTable.empty.grown 0 16) := rfl
  have hsecond : (SegmentTable.empty.grown 0 16).create .nothing privateKey 14 16 =
      (.ok ⟨1, 0, 16⟩, (SegmentTable.empty.grown 0 16).grown 0 16) := rfl
  exact ⟨rfl, _, _, _, _, hfirst, attach_privateKey _ _ _, hsecond,
    number_ne_of_create_privateKey hfirst hsecond, rfl⟩

end Sharing
end ScreenBridge
