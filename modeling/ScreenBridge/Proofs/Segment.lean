/-
# Segments stay where their keys find them

While no segment is removed, nothing that happens to the table moves a segment,
changes its length or takes its key away (`SegmentTable.Keeps`). So a key that
finds a segment goes on finding it (`SegmentTable.Keeps.find?_eq`), and a handle
goes on standing for its segment (`SegmentTable.Opens.of_keeps`). Two handles
with a key that is not private stand for one segment, and two with different keys
never do. Whatever the system refuses, that stays so; attaching works where it lets
segments be mapped (`SegmentRefusals.Maps`).

Key definitions: `SegmentRefusals.Maps`, `SegmentTable.Addressable`,
`SegmentTable.Keeps`, `SegmentTable.Extends`, `SegmentTable.Opens`.
Key theorems: `SegmentTable.find?_eq_some_iff`, `SegmentTable.Keeps.find?_eq`,
`SegmentTable.Opens.read_eq`, `SegmentTable.Opens.write_inside`,
`SegmentTable.opens_of_attach`, `SegmentTable.writable_of_attach`,
`SegmentTable.create_sound`, `SegmentTable.Opens.attach_eq`, `SegmentTable.Opens.eq_of_key_eq`,
`SegmentTable.Opens.read_write`, `SegmentTable.bytes_write_of_ne`.
-/
import ScreenBridge.Proofs.PlainStore

namespace ScreenBridge

/-! ### What the system refuses -/

namespace SegmentRefusals

/-- The system lets every segment be mapped. -/
def Maps (r : SegmentRefusals) : Prop := ∀ number, r.map number = none

variable {r : SegmentRefusals} {number : ℕ} {key : UInt32} {length : UInt64} {h : SegmentHandle}

theorem maps_nothing : nothing.Maps := fun _ => rfl

theorem Maps.look_eq (hr : r.Maps) (number : ℕ) : r.look number = none :=
  r.look_of_map number (hr number)

theorem Maps.handle_eq (hr : r.Maps) : r.handle number key length = .ok ⟨number, key, length⟩ := by
  rw [handle, hr number]

theorem eq_of_handle (hh : r.handle number key length = .ok h) : h = ⟨number, key, length⟩ := by
  unfold handle at hh
  split at hh
  · cases hh
  · exact (Except.ok.inj hh).symm

end SegmentRefusals

namespace SegmentTable

variable {t u v : SegmentTable} {r : SegmentRefusals} {key : UInt32} {number : ℕ}
  {h h' : SegmentHandle}

/-- The size of every segment is a word. -/
def Addressable (t : SegmentTable) : Prop :=
  ∀ (number : ℕ) (segment : Segment), t.segments[number]? = some segment →
    segment.bytes.size < UInt64.size

/-- A key finds the first segment that has it and was not removed. -/
theorem find?_eq_some_iff : t.find? key = some number ↔ key ≠ privateKey ∧
    (∃ segment, t.segments[number]? = some segment ∧ segment.key = key ∧ segment.removed = false) ∧
    ∀ earlier < number, ∀ segment, t.segments[earlier]? = some segment →
      ¬ (segment.key = key ∧ segment.removed = false) := by
  unfold find?
  by_cases hkey : key = privateKey
  · simp [hkey]
  · rw [if_neg hkey, Array.findIdx?_eq_some_iff_getElem]
    constructor
    · rintro ⟨hlt, hmatch, hfirst⟩
      refine ⟨hkey, ⟨_, Array.getElem?_eq_getElem hlt, by simpa using hmatch⟩, ?_⟩
      intro earlier hearlier segment hs
      have hnot := hfirst earlier hearlier
      obtain ⟨hin, rfl⟩ := Array.getElem?_eq_some_iff.mp hs
      simpa using hnot
    · rintro ⟨-, ⟨segment, hs, hmatch⟩, hfirst⟩
      obtain ⟨hlt, rfl⟩ := Array.getElem?_eq_some_iff.mp hs
      refine ⟨hlt, by simpa using hmatch, fun earlier hearlier => ?_⟩
      have hnot := hfirst earlier hearlier _ (Array.getElem?_eq_getElem (by omega))
      simpa using hnot

/-! ### What stays -/

/-- The segments of a table stand in another with their keys and lengths. -/
def Keeps (t u : SegmentTable) : Prop :=
  ∀ (number : ℕ) (segment : Segment), t.segments[number]? = some segment →
    ∃ bytes, u.segments[number]? = some { segment with bytes := bytes } ∧
      bytes.size = segment.bytes.size

theorem Keeps.refl (t : SegmentTable) : Keeps t t := fun _ segment hs => ⟨segment.bytes, hs, rfl⟩

theorem Keeps.trans (h : Keeps t u) (h' : Keeps u v) : Keeps t v := by
  intro number segment hs
  obtain ⟨bytes, hu, hsize⟩ := h number segment hs
  obtain ⟨bytes', hv, hsize'⟩ := h' number _ hu
  exact ⟨bytes', hv, hsize'.trans hsize⟩

/-- The segments of a table stand in another as they are. -/
def Extends (t u : SegmentTable) : Prop :=
  ∀ (number : ℕ) (segment : Segment), t.segments[number]? = some segment →
    u.segments[number]? = some segment

theorem Extends.refl (t : SegmentTable) : t.Extends t := fun _ _ hs => hs

theorem Extends.trans (h : t.Extends u) (h' : u.Extends v) : t.Extends v :=
  fun number segment hs => h' number segment (h number segment hs)

theorem Extends.keeps (h : t.Extends u) : Keeps t u :=
  fun number segment hs => ⟨segment.bytes, h number segment hs, rfl⟩

/-- The table with one more segment, of zero bytes. -/
def grown (t : SegmentTable) (key : UInt32) (length : UInt64) : SegmentTable :=
  ⟨t.segments.push ⟨key, Array.replicate length.toNat 0, false⟩⟩

theorem extends_grown (t : SegmentTable) (key : UInt32) (length : UInt64) :
    t.Extends (t.grown key length) := by
  intro number segment hs
  have hlt := (Array.getElem?_eq_some_iff.mp hs).1
  rw [grown, Array.getElem?_push, if_neg (by omega), hs]

theorem Addressable.grown (ht : t.Addressable) (key : UInt32) (length : UInt64) :
    (t.grown key length).Addressable := by
  intro number segment hs
  rw [SegmentTable.grown, Array.getElem?_push] at hs
  split at hs
  · obtain rfl := Option.some.inj hs
    change (Array.replicate length.toNat (0 : UInt8)).size < UInt64.size
    rw [Array.size_replicate]
    exact length.toNat_lt
  · exact ht number segment hs

/-- **A key that finds a segment goes on finding it.** -/
theorem Keeps.find?_eq (h : Keeps t u) (hfind : t.find? key = some number) :
    u.find? key = some number := by
  obtain ⟨hkey, ⟨segment, hs, hmatch⟩, hfirst⟩ := find?_eq_some_iff.mp hfind
  obtain ⟨bytes, hu, -⟩ := h number segment hs
  refine find?_eq_some_iff.mpr ⟨hkey, ⟨_, hu, hmatch⟩, fun earlier hlt segment' hs' => ?_⟩
  have hin : earlier < t.segments.size := by
    have hnumber := (Array.getElem?_eq_some_iff.mp hs).1
    omega
  -- what stands in front of the segment stood there before, with the same key
  obtain ⟨bytes', hu', -⟩ := h earlier _ (Array.getElem?_eq_getElem hin)
  rw [hu'] at hs'
  obtain rfl := Option.some.inj hs'
  have hnot := hfirst earlier hlt _ (Array.getElem?_eq_getElem hin)
  exact hnot

/-! ### Handles -/

/-- The handle stands for a segment of the table, and its key finds that segment. -/
structure Opens (t : SegmentTable) (h : SegmentHandle) : Prop where
  segment : ∃ segment, t.segments[h.number]? = some segment ∧ segment.key = h.key ∧
    segment.bytes.size = h.length.toNat
  found : h.key ≠ privateKey → t.find? h.key = some h.number

theorem Opens.size_bytes (ho : t.Opens h) : (t.bytes h.number).size = h.length.toNat := by
  obtain ⟨segment, hs, -, hsize⟩ := ho.segment
  simp [SegmentTable.bytes, hs, hsize]

theorem Opens.of_keeps (ho : t.Opens h) (hk : Keeps t u) : u.Opens h := by
  obtain ⟨segment, hs, hkey, hsize⟩ := ho.segment
  obtain ⟨bytes, hu, hbytes⟩ := hk h.number segment hs
  exact ⟨⟨_, hu, hkey, hbytes.trans hsize⟩, fun hp => hk.find?_eq (ho.found hp)⟩

/-- **Handles with one key are the same**, unless the key is private. -/
theorem Opens.eq_of_key_eq (ho : t.Opens h) (ho' : t.Opens h') (hp : h.key ≠ privateKey)
    (hkey : h'.key = h.key) : h' = h := by
  have hfind := ho.found hp
  have hnumber : h'.number = h.number := by
    have hfind' := ho'.found (hkey ▸ hp)
    rw [hkey, hfind] at hfind'
    exact (Option.some.inj hfind').symm
  have hlength : h'.length = h.length := by
    have hsize := ho.size_bytes
    rw [← hnumber, ho'.size_bytes] at hsize
    exact UInt64.toNat_inj.mp hsize
  obtain ⟨number, key, length⟩ := h
  obtain ⟨number', key', length'⟩ := h'
  dsimp only at hkey hnumber hlength
  rw [hkey, hnumber, hlength]

theorem Opens.number_ne (ho : t.Opens h) (ho' : t.Opens h') (hkey : h'.key ≠ h.key) :
    h'.number ≠ h.number := by
  intro hnumber
  obtain ⟨segment, hs, hk, -⟩ := ho.segment
  obtain ⟨segment', hs', hk', -⟩ := ho'.segment
  rw [hnumber, hs] at hs'
  obtain rfl := Option.some.inj hs'
  exact hkey (hk'.symm.trans hk)

/-- Attaching to a segment that is long enough gives its handle. -/
theorem Opens.attach_eq (ho : t.Opens h) (hr : r.Maps) (hp : h.key ≠ privateKey)
    {required : UInt64} (hle : required ≤ h.length) : t.attach r h.key required = .ok h := by
  have hlength : (t.bytes h.number).size.toUInt64 = h.length := by
    rw [ho.size_bytes]
    exact UInt64.ofNat_toNat
  have hnot : ¬ h.length < required := UInt64.not_lt.mpr hle
  simp [attach, hp, ho.found hp, hr.look_eq, hlength, hnot, hr.handle_eq]

theorem Opens.create_eq (ho : t.Opens h) (hr : r.Maps) (hp : h.key ≠ privateKey)
    {required : UInt64} (hle : required ≤ h.length) (alloc : UInt64) :
    t.create r h.key required alloc = (.ok h, t) := by
  simp [create, ho.found hp, ho.attach_eq hr hp hle]

/-- **What attaching guarantees.** The handle stands for a segment of the key that is
as long as required. -/
theorem opens_of_attach (ht : t.Addressable) {required : UInt64}
    (hattach : t.attach r key required = .ok h) :
    t.Opens h ∧ h.key = key ∧ required ≤ h.length := by
  unfold attach at hattach
  split at hattach
  · cases hattach
  split at hattach
  · cases hattach
  rename_i number hfind
  split at hattach
  · cases hattach
  dsimp only at hattach
  split at hattach
  · cases hattach
  rename_i hlength
  obtain rfl := SegmentRefusals.eq_of_handle hattach
  obtain ⟨-, ⟨segment, hs, hkey, -⟩, -⟩ := find?_eq_some_iff.mp hfind
  refine ⟨⟨⟨segment, hs, hkey, ?_⟩, fun _ => hfind⟩, rfl, UInt64.not_lt.mp hlength⟩
  have hsize := ht number segment hs
  have hbytes : t.bytes number = segment.bytes := by simp [SegmentTable.bytes, hs]
  change segment.bytes.size = (t.bytes number).size.toUInt64.toNat
  rw [hbytes]
  exact (Nat.mod_eq_of_lt hsize).symm

theorem find?_eq_none (hp : key ≠ privateKey) (hfind : t.find? key = none) {segment : Segment}
    (hs : t.segments[number]? = some segment) : ¬ (segment.key = key ∧ segment.removed = false) := by
  unfold find? at hfind
  rw [if_neg hp, Array.findIdx?_eq_none_iff] at hfind
  simpa using hfind segment (Array.mem_of_getElem? hs)

theorem opens_grown (hfind : t.find? key = none) (length : UInt64) :
    (t.grown key length).Opens ⟨t.segments.size, key, length⟩ where
  segment := ⟨_, Array.getElem?_push_size, rfl, Array.size_replicate⟩
  found hp := by
    refine find?_eq_some_iff.mpr ⟨hp, ⟨_, Array.getElem?_push_size, rfl, rfl⟩, ?_⟩
    intro earlier hlt segment hs
    have hlt' : earlier < t.segments.size := hlt
    rw [grown, Array.getElem?_push, if_neg (by omega)] at hs
    exact find?_eq_none hp hfind hs

/-- An attached segment takes every byte inside it and is as long as required. -/
theorem writable_of_attach (ht : t.Addressable) {required : UInt64}
    (hattach : t.attach r key required = .ok h) :
    ByteStore.Writable (⟨t, h⟩ : AttachedStore) ∧
      required.toNat ≤ (ByteStore.bytes (⟨t, h⟩ : AttachedStore)).size := by
  obtain ⟨ho, -, hle⟩ := opens_of_attach ht hattach
  have hsize : (ByteStore.bytes (⟨t, h⟩ : AttachedStore)).size = h.length.toNat := ho.size_bytes
  refine ⟨hsize.symm, ?_⟩
  rw [hsize]
  exact UInt64.le_iff_toNat_le.mp hle

theorem create_of_found (hfind : t.find? key = some number) (r : SegmentRefusals)
    (required alloc : UInt64) : t.create r key required alloc = (t.attach r key required, t) := by
  simp only [create, hfind]

/-- **Creating a segment that is not there** adds one of zero bytes, if the system
makes segments of that length. -/
theorem create_of_not_found (hfind : t.find? key = none) (r : SegmentRefusals)
    (required alloc : UInt64) :
    t.create r key required alloc =
      match r.lengthFault? (max alloc required) with
      | some fault => (.error (.attach key fault), t)
      | none => (r.handle t.segments.size key (max alloc required),
          t.grown key (max alloc required)) := by
  simp only [create, hfind]
  rfl

/-- **What creating guarantees.** Whether or not there is a new segment, those that were
there stay as they are, and a handle stands for a segment of the key. -/
theorem create_sound (ht : t.Addressable) (r : SegmentRefusals) (key : UInt32)
    (required alloc : UInt64) :
    t.Extends (t.create r key required alloc).2 ∧ (t.create r key required alloc).2.Addressable ∧
      ∀ h, (t.create r key required alloc).1 = .ok h →
        (t.create r key required alloc).2.Opens h ∧ h.key = key := by
  cases hfind : t.find? key with
  | some number =>
    rw [create_of_found hfind]
    refine ⟨.refl t, ht, fun h hok => ?_⟩
    obtain ⟨ho, hkey, -⟩ := opens_of_attach ht hok
    exact ⟨ho, hkey⟩
  | none =>
    rw [create_of_not_found hfind]
    cases r.lengthFault? (max alloc required) with
    | some fault => exact ⟨.refl t, ht, nofun⟩
    | none =>
      refine ⟨t.extends_grown _ _, ht.grown _ _, fun h hok => ?_⟩
      obtain rfl := SegmentRefusals.eq_of_handle hok
      exact ⟨opens_grown hfind _, rfl⟩

/-! ### Reading and writing -/

theorem Opens.size_lt (ho : t.Opens h) : (t.bytes h.number).size < UInt64.size := by
  rw [ho.size_bytes]
  exact h.length.toNat_lt

theorem Opens.read_eq (ho : t.Opens h) (offset length : UInt64) :
    t.read h offset length =
      if offset.toNat + length.toNat ≤ h.length.toNat then
        .ok ((t.bytes h.number).extract offset.toNat (offset.toNat + length.toNat))
      else .error (.read offset length (Store.pastEnd offset length h.length.toNat)) := by
  rw [SegmentTable.read, Store.readBytes_eq _ _ _ ho.size_lt, ho.size_bytes]

theorem Opens.write_inside (ho : t.Opens h) {offset : UInt64} (value : UInt8)
    (hlt : offset.toNat < h.length.toNat) :
    (t.write h offset value).1 = .ok () ∧
      (t.write h offset value).2.bytes h.number =
        (t.bytes h.number).setIfInBounds offset.toNat value := by
  have hword := h.length.toNat_lt
  exact write_eq value (ho.size_bytes ▸ hlt) (by change _ < 2 ^ 64; omega)

theorem Opens.write_outside (ho : t.Opens h) {offset : UInt64} (value : UInt8)
    (hle : h.length.toNat ≤ offset.toNat) :
    t.write h offset value = (.error (.write offset (Store.pastEnd offset 1 h.length.toNat)), t) := by
  have hnot : ¬ offset.toNat + (1 : UInt64).toNat ≤ h.length.toNat := by
    change ¬ offset.toNat + 1 ≤ _
    omega
  rw [write, Store.checkRange_eq offset 1 ho.size_lt, ho.size_bytes, if_neg hnot]

theorem keeps_write (t : SegmentTable) (h : SegmentHandle) (offset : UInt64) (value : UInt8) :
    Keeps t (t.write h offset value).2 := by
  intro number segment hs
  unfold write
  split
  · dsimp only
    rw [Array.getElem?_modify, hs]
    by_cases heq : h.number = number
    · exact ⟨segment.bytes.setIfInBounds offset.toNat value, by simp [heq],
        Array.size_setIfInBounds⟩
    · exact ⟨segment.bytes, by simp [heq], rfl⟩
  · exact ⟨segment.bytes, hs, rfl⟩

theorem Addressable.write (ht : t.Addressable) (h : SegmentHandle) (offset : UInt64)
    (value : UInt8) : (t.write h offset value).2.Addressable := by
  intro number segment hs
  have hlt : number < t.segments.size := by
    have hin := (Array.getElem?_eq_some_iff.mp hs).1
    unfold SegmentTable.write at hin
    split at hin
    · simpa using hin
    · exact hin
  have hold := Array.getElem?_eq_getElem hlt
  obtain ⟨bytes, hnew, hsize⟩ := keeps_write t h offset value number _ hold
  rw [hnew] at hs
  obtain rfl := Option.some.inj hs
  exact hsize ▸ ht number _ hold

/-- A byte that is written is read next. -/
theorem Opens.read_write (ho : t.Opens h) {offset : UInt64} (value : UInt8)
    (hlt : offset.toNat < h.length.toNat) :
    (t.write h offset value).2.read h offset 1 = .ok #[value] := by
  have hin : offset.toNat < (t.bytes h.number).size := ho.size_bytes ▸ hlt
  have hone : ((t.bytes h.number).setIfInBounds offset.toNat value).extract offset.toNat
      (offset.toNat + 1) = #[value] := by
    refine Array.ext (by simp; omega) fun i hi hi' => ?_
    have hzero : i = 0 := by simpa using hi'
    subst hzero
    simp
  have hwritten := ho.of_keeps (keeps_write t h offset value)
  have hle : offset.toNat + (1 : UInt64).toNat ≤ h.length.toNat := hlt
  rw [hwritten.read_eq, if_pos hle, (ho.write_inside value hlt).2]
  exact congrArg Except.ok hone

/-- What is written through a handle does not reach other segments. -/
theorem bytes_write_of_ne (t : SegmentTable) (h : SegmentHandle) (offset : UInt64) (value : UInt8)
    (hne : number ≠ h.number) : (t.write h offset value).2.bytes number = t.bytes number := by
  unfold write
  split
  · simp [SegmentTable.bytes, Array.getElem?_modify, Ne.symm hne]
  · rfl

end SegmentTable
end ScreenBridge
