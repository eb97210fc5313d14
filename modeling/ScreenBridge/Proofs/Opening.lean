/-
# Opening a segment disturbs none

A handle is got by attaching to the segment of a key or by creating it. Either
call leaves every segment of the table as it was, byte for byte
(`SegmentTable.Extends`), and one that is refused leaves the whole table, unless a
segment was made that cannot be mapped. A segment that is there is never made anew:
creating it is attaching to it. Only where a key finds none does creating add a
segment, and it adds one of zero bytes.

What a run of calls hands out stands for segments that are as long as each call
required, and goes on doing so while further calls follow.

Key definitions: `OpenCall`, `SegmentTable.serve`, `SegmentTable.serveAll`,
`SegmentTable.Held`, `SegmentTable.Vacant`.
Key theorems: `SegmentTable.held_or_vacant`, `SegmentTable.attach_of_held`,
`SegmentTable.attach_of_vacant`, `SegmentTable.create_eq_ok_iff`,
`SegmentTable.serve_sound`, `SegmentTable.serveAll_sound`,
`SegmentTable.opening_disturbs_no_segment`.
-/
import Mathlib.Data.List.Forall2
import ScreenBridge.Proofs.Segment

namespace ScreenBridge

/-- What one asks of the system to get a handle. -/
inductive OpenCall
  | attach (key : UInt32) (required : UInt64)
  | create (key : UInt32) (required alloc : UInt64)
  deriving DecidableEq, Repr

namespace OpenCall

/-- The key of the segment that is asked for. -/
def key : OpenCall → UInt32
  | attach key _ => key
  | create key _ _ => key

/-- The length it has to have. -/
def required : OpenCall → UInt64
  | attach _ required => required
  | create _ required _ => required

end OpenCall

namespace SegmentTable

/-- The answer to a call, and the table after it. -/
def serve (t : SegmentTable) (r : SegmentRefusals) :
    OpenCall → Except StoreError SegmentHandle × SegmentTable
  | .attach key required => (t.attach r key required, t)
  | .create key required alloc => t.create r key required alloc

/-- The answers to calls that follow one another, each with what the system refuses
during it, and the table after them. -/
def serveAll (t : SegmentTable) :
    List (SegmentRefusals × OpenCall) → List (Except StoreError SegmentHandle) × SegmentTable
  | [] => ([], t)
  | (r, call) :: calls =>
    let (answer, u) := t.serve r call
    let (answers, v) := u.serveAll calls
    (answer :: answers, v)

/-- The segment is the one that has the key: no other stands in front of it. -/
structure Held (t : SegmentTable) (key : UInt32) (number : ℕ) (segment : Segment) : Prop where
  stands : t.segments[number]? = some segment
  named : segment.key = key
  lives : segment.removed = false
  first : ∀ earlier < number, ∀ other, t.segments[earlier]? = some other →
    ¬ (other.key = key ∧ other.removed = false)

/-- No segment has the key. -/
def Vacant (t : SegmentTable) (key : UInt32) : Prop :=
  ∀ (number : ℕ) (segment : Segment), t.segments[number]? = some segment →
    ¬ (segment.key = key ∧ segment.removed = false)

variable {t u : SegmentTable} {r : SegmentRefusals} {key : UInt32} {number : ℕ}
  {segment : Segment} {h : SegmentHandle}

/-! ### A key that has a segment -/

theorem Held.find?_eq (hheld : t.Held key number segment) (hp : key ≠ privateKey) :
    t.find? key = some number :=
  find?_eq_some_iff.mpr ⟨hp, ⟨segment, hheld.stands, hheld.named, hheld.lives⟩, hheld.first⟩

theorem Vacant.find?_eq (hvacant : t.Vacant key) : t.find? key = none := by
  cases hfind : t.find? key with
  | none => rfl
  | some number =>
    obtain ⟨-, ⟨segment, hs, hmatch⟩, -⟩ := find?_eq_some_iff.mp hfind
    exact absurd hmatch (hvacant number segment hs)

theorem find?_eq_none_iff : t.find? key = none ↔ key = privateKey ∨ t.Vacant key := by
  constructor
  · intro hfind
    by_cases hp : key = privateKey
    · exact Or.inl hp
    · exact Or.inr fun _ _ hs => find?_eq_none hp hfind hs
  · rintro (hp | hvacant)
    · exact if_pos hp
    · exact hvacant.find?_eq

/-- A key has a segment or has none. -/
theorem held_or_vacant (t : SegmentTable) (hp : key ≠ privateKey) :
    (∃ number segment, t.Held key number segment) ∨ t.Vacant key := by
  cases hfind : t.find? key with
  | none => exact Or.inr ((find?_eq_none_iff.mp hfind).resolve_left hp)
  | some number =>
    obtain ⟨-, ⟨segment, hs, hkey, hlives⟩, hfirst⟩ := find?_eq_some_iff.mp hfind
    exact Or.inl ⟨number, segment, hs, hkey, hlives, hfirst⟩

/-- **Attaching to a segment that is there** yields a handle of its own length, unless
that is too small or the system does not let the segment be mapped. -/
theorem attach_of_held (ht : t.Addressable) (hp : key ≠ privateKey)
    (hheld : t.Held key number segment) (hmap : r.map number = none) (required : UInt64) :
    ∃ length : UInt64, length.toNat = segment.bytes.size ∧
      t.attach r key required =
        if required ≤ length then .ok ⟨number, key, length⟩
        else .error (.tooSmall key length required) := by
  have hbytes : t.bytes number = segment.bytes := by simp [SegmentTable.bytes, hheld.stands]
  have hlook := r.look_of_map number hmap
  refine ⟨segment.bytes.size.toUInt64, Nat.mod_eq_of_lt (ht number segment hheld.stands), ?_⟩
  simp only [attach, if_neg hp, hheld.find?_eq hp, hlook, hbytes]
  by_cases hle : required ≤ segment.bytes.size.toUInt64
  · rw [if_neg (UInt64.not_lt.mpr hle), if_pos hle, SegmentRefusals.handle, hmap]
  · rw [if_pos (UInt64.not_le.mp hle), if_neg hle]

theorem attach_of_unseen (hp : key ≠ privateKey) (hheld : t.Held key number segment)
    {fault : Fault} (hlook : r.look number = some fault) (required : UInt64) :
    t.attach r key required = .error (.attach key fault) := by
  simp only [attach, if_neg hp, hheld.find?_eq hp, hlook]

theorem attach_of_vacant (hp : key ≠ privateKey) (hvacant : t.Vacant key) (r : SegmentRefusals)
    (required : UInt64) : t.attach r key required = .error (.attach key .notFound) := by
  simp only [attach, if_neg hp, hvacant.find?_eq]

/-- **Creating a segment that is not there** works just where the system makes segments
of that length and lets the new one be mapped. -/
theorem create_eq_ok_iff (hfind : t.find? key = none) {required alloc : UInt64} :
    t.create r key required alloc = (.ok h, u) ↔
      r.lengthFault? (max alloc required) = none ∧ r.map t.segments.size = none ∧
        h = ⟨t.segments.size, key, max alloc required⟩ ∧ u = t.grown key (max alloc required) := by
  rw [create_of_not_found hfind]
  cases r.lengthFault? (max alloc required) with
  | some fault => simp
  | none =>
    unfold SegmentRefusals.handle
    cases r.map t.segments.size with
    | some fault => simp
    | none => simp [eq_comm]

theorem table_of_create_error (hr : r.Maps) {required alloc : UInt64} {e : StoreError}
    (herror : t.create r key required alloc = (.error e, u)) : u = t := by
  cases hfind : t.find? key with
  | some number =>
    rw [create_of_found hfind] at herror
    exact (congrArg Prod.snd herror).symm
  | none =>
    rw [create_of_not_found hfind, hr.handle_eq] at herror
    split at herror
    · exact (congrArg Prod.snd herror).symm
    · cases herror

/-! ### Calls -/

theorem required_le_max (alloc required : UInt64) : required ≤ max alloc required := by
  by_cases hle : alloc ≤ required
  · rw [show max alloc required = required from if_pos hle]
    exact UInt64.le_refl required
  · rw [show max alloc required = alloc from if_neg hle]
    exact UInt64.le_of_lt (UInt64.not_le.mp hle)

theorem required_le_of_create (ht : t.Addressable) {required alloc : UInt64}
    (hcreate : (t.create r key required alloc).1 = .ok h) : required ≤ h.length := by
  cases hfind : t.find? key with
  | some number =>
    rw [create_of_found hfind] at hcreate
    exact (opens_of_attach ht hcreate).2.2
  | none =>
    obtain ⟨-, -, rfl, -⟩ := (create_eq_ok_iff hfind).mp (Prod.ext hcreate rfl)
    exact required_le_max alloc required

/-- **One call.** Every segment stays, and a handle is as long as required. If the call
is refused and segments can be mapped, the table stays. -/
theorem serve_sound (ht : t.Addressable) (r : SegmentRefusals) (call : OpenCall) :
    t.Extends (t.serve r call).2 ∧ (t.serve r call).2.Addressable ∧
      (r.Maps → ∀ e, (t.serve r call).1 = .error e → (t.serve r call).2 = t) ∧
      ∀ h, (t.serve r call).1 = .ok h →
        (t.serve r call).2.Opens h ∧ h.key = call.key ∧ call.required ≤ h.length := by
  cases call with
  | attach key required =>
    exact ⟨.refl t, ht, fun _ _ _ => rfl, fun h hok => opens_of_attach ht hok⟩
  | create key required alloc =>
    obtain ⟨hext, hu, hopens⟩ := create_sound ht r key required alloc
    refine ⟨hext, hu, fun hr e herror => table_of_create_error hr (Prod.ext herror rfl),
      fun h hok => ?_⟩
    obtain ⟨ho, hkey⟩ := hopens h hok
    exact ⟨ho, hkey, required_le_of_create ht hok⟩

/-- **Any calls.** The segments stay as they are, and what is handed out still stands
for a segment that is long enough when all calls are over. -/
theorem serveAll_sound : ∀ (calls : List (SegmentRefusals × OpenCall)) {t : SegmentTable},
    t.Addressable → t.Extends (t.serveAll calls).2 ∧
      List.Forall₂ (fun call answer => ∀ h, answer = .ok h →
        (t.serveAll calls).2.Opens h ∧ h.key = call.2.key ∧ call.2.required ≤ h.length)
        calls (t.serveAll calls).1
  | [], t, _ => ⟨.refl t, .nil⟩
  | (r, call) :: calls, t, ht => by
    obtain ⟨hext, hu, -, hgives⟩ := serve_sound ht r call
    obtain ⟨hrest, hanswers⟩ := serveAll_sound calls hu
    refine ⟨hext.trans hrest, .cons (fun h hok => ?_) hanswers⟩
    obtain ⟨ho, hkey, hle⟩ := hgives h hok
    exact ⟨ho.of_keeps hrest.keeps, hkey, hle⟩

/-- **Opening never disturbs what is there**, whatever the system refuses. Take any key
but the private one. No call for it changes a segment of the table, and a refused one
does not change the table, if segments can be mapped. If a segment has the key, then
creating is attaching, and attaching to a segment that can be mapped yields a handle of
its own length or finds it too small; one whose length the system does not tell is
refused. If none has the key, then attaching finds nothing; creating works just where the
system makes segments of that length and lets the new one be mapped, and what it adds is
a single segment of zero bytes that is as long as the larger of the two lengths, as its
handle says.

So after any calls every segment is what it was, and every handle that was handed out
stands for a segment that is as long as its call required. -/
theorem opening_disturbs_no_segment (ht : t.Addressable) (hp : key ≠ privateKey)
    (required alloc : UInt64) :
    (∀ r call, t.Extends (t.serve r call).2 ∧
      (r.Maps → ∀ e, (t.serve r call).1 = .error e → (t.serve r call).2 = t)) ∧
    ((∃ number segment, t.Held key number segment) ∨ t.Vacant key) ∧
    (∀ number segment, t.Held key number segment → ∀ r,
      t.serve r (.create key required alloc) = t.serve r (.attach key required) ∧
      (r.map number = none → ∃ length : UInt64, length.toNat = segment.bytes.size ∧
        t.serve r (.attach key required) =
          (if required ≤ length then .ok ⟨number, key, length⟩
            else .error (.tooSmall key length required), t)) ∧
      ∀ fault, r.look number = some fault →
        t.serve r (.attach key required) = (.error (.attach key fault), t)) ∧
    (t.Vacant key → ∀ r,
      t.serve r (.attach key required) = (.error (.attach key .notFound), t) ∧
      ∀ h u, t.serve r (.create key required alloc) = (.ok h, u) ↔
        r.lengthFault? (max alloc required) = none ∧ r.map t.segments.size = none ∧
          h = ⟨t.segments.size, key, max alloc required⟩ ∧
          u = ⟨t.segments.push ⟨key, Array.replicate (max alloc required).toNat 0, false⟩⟩) ∧
    ∀ calls : List (SegmentRefusals × OpenCall), t.Extends (t.serveAll calls).2 ∧
      List.Forall₂ (fun call answer => ∀ h, answer = .ok h →
        (t.serveAll calls).2.Opens h ∧ h.key = call.2.key ∧ call.2.required ≤ h.length)
        calls (t.serveAll calls).1 := by
  refine ⟨fun r call => ?_, held_or_vacant t hp, fun number segment hheld r => ⟨?_, fun hmap => ?_,
    fun fault hlook => ?_⟩, fun hvacant r => ?_, fun calls => serveAll_sound calls ht⟩
  · obtain ⟨hext, -, hrefused, -⟩ := serve_sound ht r call
    exact ⟨hext, hrefused⟩
  · exact create_of_found (hheld.find?_eq hp) r required alloc
  · obtain ⟨length, hlength, hattach⟩ := attach_of_held ht hp hheld hmap required
    exact ⟨length, hlength, congrArg (·, t) hattach⟩
  · exact congrArg (·, t) (attach_of_unseen hp hheld hlook required)
  · exact ⟨congrArg (·, t) (attach_of_vacant hp hvacant r required),
      fun h u => create_eq_ok_iff hvacant.find?_eq⟩

/-- A segment of fourteen bytes that its machine made and wrote to. One that would be
of sixteen bytes is attached to instead, as it is, and one under another key is made
beside it. If the length of the first is not told, it stays all the same. -/
theorem fourteen_bytes_are_kept :
    let written : Array UInt8 := (Array.replicate 14 0).setIfInBounds 12 0x42
    let t : SegmentTable := ⟨#[⟨5, written, false⟩]⟩
    let n : SegmentRefusals := .nothing
    let blind : SegmentRefusals :=
      { n with look := fun _ => some (.system 13), map := fun _ => some (.system 13)
               look_of_map := fun _ hmap => by cases hmap }
    t.serveAll [(n, .create 5 14 16), (n, .create 5 16 16), (n, .create 6 2 4)] =
      ([.ok ⟨0, 5, 14⟩, .error (.tooSmall 5 14 16), .ok ⟨1, 6, 4⟩],
        ⟨#[⟨5, written, false⟩, ⟨6, .replicate 4 0, false⟩]⟩) ∧
    t.Extends (t.serveAll [(n, .create 5 14 16), (n, .create 5 16 16), (n, .create 6 2 4)]).2 ∧
    t.serve blind (.create 5 14 16) = (.error (.attach 5 (.system 13)), t) := by
  intro written t n blind
  have ht : t.Addressable := by
    intro number segment hs
    obtain ⟨hlt, rfl⟩ := Array.getElem?_eq_some_iff.mp hs
    obtain rfl : number = 0 := Nat.lt_one_iff.mp hlt
    simp [t, written, UInt64.size]
  have hp : (5 : UInt32) ≠ privateKey := by decide
  have hheld : t.Held 5 0 ⟨5, written, false⟩ :=
    ⟨rfl, rfl, rfl, fun _ hlt => absurd hlt (Nat.not_lt_zero _)⟩
  obtain ⟨-, -, hthere, -, hcalls⟩ := opening_disturbs_no_segment ht hp 14 16
  obtain ⟨hsame, -, hblind⟩ := hthere 0 _ hheld blind
  have hmax : max (4 : UInt64) 2 = 4 := rfl
  refine ⟨?_, (hcalls _).1, hsame.trans (hblind _ rfl)⟩
  simp [t, n, written, serveAll, serve, create, attach, find?, privateKey, SegmentTable.bytes,
    SegmentRefusals.nothing, SegmentRefusals.lengthFault?, SegmentRefusals.handle, hmax]

end SegmentTable
end ScreenBridge
