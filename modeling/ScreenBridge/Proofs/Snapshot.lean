/-
# Snapshots are replaced whole

Presenting a frame writes a draft beside the target and then moves it there. Writing the
draft, as far as it gets, changes nothing but the draft (`Snapshot.writeDraft_cases`), and
the path of the target leads past it (`Snapshot.find?_writeDraft`). Moving replaces the
target by all of the draft or does nothing (`Snapshot.presentUnder_ok`,
`Snapshot.presentUnder_error`). So whatever is refused in a run of attempts, the target
holds the image of the last frame that was shown, or what it held at first
(`Snapshot.find?_attemptAll`).

Key definitions: `Snapshot.places`, `Snapshot.Unhindered`, `Snapshot.Attempt`,
`Snapshot.attemptAll`, `Snapshot.lastShown`.
Key theorems: `Snapshot.writeDraft_cases`, `Snapshot.publish_cases`,
`Snapshot.presentUnder_eq_ok_iff`, `Snapshot.presentUnder_ok`,
`Snapshot.presentUnder_error`, `Snapshot.changesOnly_attemptAll`,
`Snapshot.targets_are_replaced_whole`.
-/
import ScreenBridge.Proofs.Moves
import ScreenBridge.Snapshot

namespace ScreenBridge

theorem Refusals.taken_of_cut?_eq_none {r : Refusals} {image : List UInt8}
    (h : r.cut? image = none) : r.taken image = image := by
  unfold cut? at h
  unfold taken
  cases hroom : r.write with
  | none => rfl
  | some room =>
    simp only [hroom] at h
    split_ifs at h with hlt
    exact List.take_of_length_le (Nat.le_of_not_lt hlt)

namespace Snapshot

open FileSystem

variable {s t : Snapshot} {r : Refusals} {frame : Frame} {before : List (List Char)}
  {name : List Char} {e : RenderError} {q : Place}

/-! ### The places of an attempt -/

/-- The places that the paths of the target and of the draft name. -/
def places (s : Snapshot) : Set Place := s.files.named s.path ∪ s.files.named s.draftPath

theorem draftPath_congr (h : t.path = s.path) : t.draftPath = s.draftPath := by
  rw [draftPath, draftPath, h]

theorem endsInName_draftPath (h : Path.EndsInName s.path before name) :
    Path.EndsInName s.draftPath before (name ++ ['.', 't', 'm', 'p']) :=
  h.append (by decide) (by decide)

theorem draft_name_ne (name : List Char) :
    some (name ++ ['.', 't', 'm', 'p']) ≠ some name := by
  intro heq
  have hlength := congrArg List.length (Option.some.inj heq)
  simp at hlength

theorem not_mem_named_path (h : Path.EndsInName s.path before name)
    (hq : q ∈ s.files.named s.draftPath) : q ∉ s.files.named s.path := fun hq' =>
  draft_name_ne name ((getLast?_of_mem_named (endsInName_draftPath h) hq).symm.trans
    (getLast?_of_mem_named h hq'))

/-! ### The steps of an attempt -/

/-- **What writing a draft does**: it changes nothing but the draft, and if it succeeds,
all of the image was written. -/
theorem writeDraft_cases (s : Snapshot) (r : Refusals) (frame : Frame) :
    (s.writeDraft r frame).2.path = s.path ∧
      ChangesOnly (s.files.named s.draftPath) s.files (s.writeDraft r frame).2.files ∧
      ((∃ cause, (s.writeDraft r frame).1 = .error (.file s.draftPath cause)) ∨
        (s.writeDraft r frame).1 = .ok () ∧
          s.files.write s.draftPath (Netpbm.encode frame).toArray =
            (.ok (), (s.writeDraft r frame).2.files)) := by
  have hwrite := changesOnly_write s.files s.draftPath (r.taken (Netpbm.encode frame)).toArray
  unfold writeDraft
  cases hcreate : r.create with
  | some e => exact ⟨rfl, changesOnly_refl _ _, .inl ⟨e, rfl⟩⟩
  | none =>
    rcases hresult : s.files.write s.draftPath (r.taken (Netpbm.encode frame)).toArray with
      ⟨e | _, files⟩ <;> rw [hresult] at hwrite <;> dsimp only <;> rw [hresult]
    · exact ⟨rfl, hwrite, .inl ⟨e, rfl⟩⟩
    · dsimp only
      cases hcut : r.cut? (Netpbm.encode frame) with
      | some e => exact ⟨rfl, hwrite, .inl ⟨e, rfl⟩⟩
      | none =>
        rw [Refusals.taken_of_cut?_eq_none hcut] at hresult
        exact ⟨rfl, hwrite, .inr ⟨rfl, hresult⟩⟩

/-- **What publishing does**: it moves the draft, or nothing happens. -/
theorem publish_cases (s : Snapshot) (r : Refusals) :
    (∃ cause, s.publish r = (.error (.file s.path cause), s)) ∨
      ∃ files, s.publish r = (.ok (), { s with files := files }) ∧
        s.files.moveFile s.draftPath s.path = (.ok (), files) := by
  unfold publish
  cases hmove : r.move with
  | some e => exact .inl ⟨e, rfl⟩
  | none =>
    rcases hresult : s.files.moveFile s.draftPath s.path with ⟨e | _, files⟩
    · have hsame := moveFile_of_error (congrArg Prod.fst hresult)
      rw [hresult] at hsame
      obtain rfl := hsame
      exact .inl ⟨e, rfl⟩
    · exact .inr ⟨files, rfl, rfl⟩

/-- An attempt ends with its draft, or with publishing it. -/
theorem presentUnder_cases (s : Snapshot) (r : Refusals) (frame : Frame) :
    (∃ cause, (s.writeDraft r frame).1 = .error (.file s.draftPath cause) ∧
        s.presentUnder r frame = s.writeDraft r frame) ∨
      (s.writeDraft r frame).1 = .ok () ∧
        s.presentUnder r frame = (s.writeDraft r frame).2.publish r := by
  have hdraft := (writeDraft_cases s r frame).2.2
  unfold presentUnder
  rcases hresult : s.writeDraft r frame with ⟨e | _, drafted⟩ <;> rw [hresult] at hdraft
  · obtain ⟨cause, hcause⟩ | ⟨hok, -⟩ := hdraft
    · exact .inl ⟨cause, hcause, rfl⟩
    · cases hok
  · exact .inr ⟨rfl, rfl⟩

theorem writeDraft_eq_ok_iff : (s.writeDraft r frame).1 = .ok () ↔
    r.create = none ∧ r.cut? (Netpbm.encode frame) = none ∧
      (s.files.write s.draftPath (Netpbm.encode frame).toArray).1 = .ok () := by
  unfold writeDraft
  cases r.create with
  | some e => simp
  | none =>
    dsimp only
    cases hcut : r.cut? (Netpbm.encode frame) with
    | some e =>
      rcases s.files.write s.draftPath (r.taken (Netpbm.encode frame)).toArray with ⟨_ | _, files⟩ <;>
        simp
    | none =>
      rw [Refusals.taken_of_cut?_eq_none hcut]
      rcases s.files.write s.draftPath (Netpbm.encode frame).toArray with ⟨_ | _, files⟩ <;> simp

theorem publish_eq_ok_iff : (s.publish r).1 = .ok () ↔
    r.move = none ∧ (s.files.moveFile s.draftPath s.path).1 = .ok () := by
  unfold publish
  cases r.move with
  | some e => simp
  | none => rcases s.files.moveFile s.draftPath s.path with ⟨_ | _, files⟩ <;> simp

/-- **A draft does not show** where the target is. -/
theorem find?_writeDraft (h : Path.EndsInName s.path before name) (r : Refusals) (frame : Frame) :
    (s.writeDraft r frame).2.files.find? s.path = s.files.find? s.path := by
  refine find?_of_changesOnly (writeDraft_cases s r frame).2.1 fun q hlocate hq => ?_
  have hname : q.getLast? = some name :=
    hlocate.elim (getLast?_of_locate h) (getLast?_of_locate h)
  exact draft_name_ne name ((getLast?_of_mem_named (endsInName_draftPath h) hq).symm.trans hname)

/-- **A successful attempt** puts the whole image at its target, and no draft is left. -/
theorem presentUnder_ok (h : Path.EndsInName s.path before name)
    (hok : (s.presentUnder r frame).1 = .ok ()) :
    (s.presentUnder r frame).2.files.find? s.path = some (.file (Netpbm.encode frame).toArray) ∧
      (s.presentUnder r frame).2.files.find? s.draftPath = none := by
  obtain ⟨hpath, -, hdraft⟩ := writeDraft_cases s r frame
  rcases presentUnder_cases s r frame with ⟨cause, hfail, heq⟩ | ⟨hwritten, heq⟩ <;> rw [heq] at hok ⊢
  · rw [hfail] at hok
    cases hok
  · set drafted := (s.writeDraft r frame).2
    have hdraftPath : drafted.draftPath = s.draftPath := draftPath_congr hpath
    obtain ⟨cause, hfail⟩ | ⟨-, hwrite⟩ := hdraft
    · rw [hfail] at hwritten
      cases hwritten
    obtain ⟨cause, hpublish⟩ | ⟨files, hpublish, hmove⟩ := publish_cases drafted r <;>
      rw [hpublish] at hok ⊢
    · cases hok
    have himage : drafted.files.find? drafted.draftPath =
        some (.file (Netpbm.encode frame).toArray) := by
      have hread := read_write (congrArg Prod.fst hwrite)
      rw [hwrite] at hread
      rw [hdraftPath]
      exact find?_of_read hread
    have hmoved := find?_moveFile (congrArg Prod.fst hmove) himage
      fun q hq => not_mem_named_path (hpath ▸ h) hq
    rw [hmove, hdraftPath, hpath] at hmoved
    exact hmoved

/-- The place of a draft that was written, and what stands there. -/
theorem drafted_cases (h : Path.EndsInName s.path before name)
    (hok : (s.writeDraft r frame).1 = .ok ()) :
    ∃ directory,
      s.files.lastStep s.draftPath = .ok (.name directory (name ++ ['.', 't', 'm', 'p'])) ∧
      s.files.lastStep s.path = .ok (.name directory name) ∧
      (s.writeDraft r frame).2.files.node? (directory ++ [name ++ ['.', 't', 'm', 'p']]) =
        some (.file (Netpbm.encode frame).toArray) := by
  obtain ⟨-, -, ⟨cause, hfail⟩ | ⟨-, hwrite⟩⟩ := writeDraft_cases s r frame
  · rw [hfail] at hok
    cases hok
  · obtain ⟨directory, name', hlast, -, -, -, hput⟩ := write_cases (congrArg Prod.fst hwrite)
    obtain ⟨rfl, htarget⟩ := lastStep_of_append h (by decide) (by decide) hlast
    refine ⟨directory, hlast, htarget, ?_⟩
    rw [hwrite] at hput
    dsimp only at hput
    rw [hput]
    exact (node?_put (by simp) _ _ _).trans (if_pos rfl)

/-- Once a draft is written, only a directory at the target is in the way of moving it. -/
theorem publish_draft_eq_ok_iff (h : Path.EndsInName s.path before name) {directory : Place}
    (hwritten : (s.writeDraft r frame).1 = .ok ())
    (hlast : s.files.lastStep s.draftPath = .ok (.name directory (name ++ ['.', 't', 'm', 'p'])))
    (hlong : isTooLong (name ++ ['.', 't', 'm', 'p']) = false) :
    ((s.writeDraft r frame).2.publish r).1 = .ok () ↔
      r.move = none ∧ s.files.node? (directory ++ [name]) ≠ some .directory := by
  obtain ⟨hpath, hdrafted, -⟩ := writeDraft_cases s r frame
  obtain ⟨directory', hlast', htarget, himage⟩ := drafted_cases h hwritten
  rw [hlast] at hlast'
  obtain ⟨rfl, -⟩ := LastStep.name.inj (Except.ok.inj hlast')
  rw [publish_eq_ok_iff, draftPath_congr hpath, hpath, moveFile_eq_ok_iff
    (lastStep_of_changesOnly hdrafted hlast) (lastStep_of_changesOnly hdrafted htarget) himage
    (endsInName_draftPath h).noSlash h.noSlash]
  simp only [isTooLong_of_append hlong, true_and, ne_eq, hdrafted.directory]

theorem presentUnder_eq_ok_iff_steps : (s.presentUnder r frame).1 = .ok () ↔
    (s.writeDraft r frame).1 = .ok () ∧ ((s.writeDraft r frame).2.publish r).1 = .ok () := by
  rcases presentUnder_cases s r frame with ⟨cause, hfail, heq⟩ | ⟨hwritten, heq⟩ <;> rw [heq]
  · simp [hfail]
  · simp [hwritten]

/-- Nothing is in the way of an attempt: nothing is refused, the paths lead into a
directory, the name of the draft is not too long, and neither the draft nor the target is
a directory. -/
def Unhindered (s : Snapshot) (name : List Char) (r : Refusals) (frame : Frame) : Prop :=
  r.create = none ∧ r.cut? (Netpbm.encode frame) = none ∧ r.move = none ∧
    ∃ directory,
      s.files.lastStep s.draftPath = .ok (.name directory (name ++ ['.', 't', 'm', 'p'])) ∧
      isTooLong (name ++ ['.', 't', 'm', 'p']) = false ∧
      s.files.node? (directory ++ [name ++ ['.', 't', 'm', 'p']]) ≠ some .directory ∧
      s.files.node? (directory ++ [name]) ≠ some .directory

/-- **An attempt succeeds** exactly if nothing is in its way. -/
theorem presentUnder_eq_ok_iff (h : Path.EndsInName s.path before name) :
    (s.presentUnder r frame).1 = .ok () ↔ s.Unhindered name r frame := by
  rw [presentUnder_eq_ok_iff_steps]
  constructor
  · rintro ⟨hwritten, hpublished⟩
    obtain ⟨hcreate, hcut, hwrite⟩ := writeDraft_eq_ok_iff.mp hwritten
    obtain ⟨directory, name', hlast, -, hlong, hfree⟩ := write_eq_ok_iff.mp hwrite
    obtain ⟨rfl, -⟩ := lastStep_of_append h (by decide) (by decide) hlast
    obtain ⟨hmove, htarget⟩ := (publish_draft_eq_ok_iff h hwritten hlast hlong).mp hpublished
    exact ⟨hcreate, hcut, hmove, directory, hlast, hlong, hfree, htarget⟩
  · rintro ⟨hcreate, hcut, hmove, directory, hlast, hlong, hfree, htarget⟩
    have hslash := (endsInName_draftPath h).noSlash
    have hwritten : (s.writeDraft r frame).1 = .ok () := writeDraft_eq_ok_iff.mpr
      ⟨hcreate, hcut, write_eq_ok_iff.mpr ⟨directory, _, hlast, hslash, hlong, hfree⟩⟩
    exact ⟨hwritten, (publish_draft_eq_ok_iff h hwritten hlast hlong).mpr ⟨hmove, htarget⟩⟩

/-- **A failed attempt** leaves its target as it was. It is the draft that could not be
written, or the target that could not be replaced. -/
theorem presentUnder_error (h : Path.EndsInName s.path before name)
    (herror : (s.presentUnder r frame).1 = .error e) :
    (s.presentUnder r frame).2.files.find? s.path = s.files.find? s.path ∧
      ((s.writeDraft r frame).1 = .error e ∧ (∃ cause, e = .file s.draftPath cause) ∨
        (s.writeDraft r frame).1 = .ok () ∧ ∃ cause, e = .file s.path cause) := by
  have hsame := find?_writeDraft h r frame
  obtain ⟨hpath, -, -⟩ := writeDraft_cases s r frame
  rcases presentUnder_cases s r frame with ⟨cause, hfail, heq⟩ | ⟨hwritten, heq⟩ <;>
    rw [heq] at herror ⊢
  · rw [hfail] at herror
    obtain rfl := Except.error.inj herror
    exact ⟨hsame, .inl ⟨hfail, cause, rfl⟩⟩
  · obtain ⟨cause, hpublish⟩ | ⟨files, hpublish, -⟩ := publish_cases (s.writeDraft r frame).2 r <;>
      rw [hpublish] at herror ⊢
    · obtain rfl := Except.error.inj herror
      exact ⟨hsame, .inr ⟨hwritten, cause, by rw [hpath]⟩⟩
    · cases herror

/-- **An attempt** keeps its path, and changes nothing but the target and the draft. -/
theorem changesOnly_presentUnder (s : Snapshot) (r : Refusals) (frame : Frame) :
    (s.presentUnder r frame).2.path = s.path ∧
      ChangesOnly s.places s.files (s.presentUnder r frame).2.files := by
  obtain ⟨hpath, hdrafted, -⟩ := writeDraft_cases s r frame
  have hdrafted' : ChangesOnly s.places s.files (s.writeDraft r frame).2.files :=
    hdrafted.mono Set.subset_union_right
  rcases presentUnder_cases s r frame with ⟨cause, hfail, heq⟩ | ⟨hwritten, heq⟩ <;> rw [heq]
  · exact ⟨hpath, hdrafted'⟩
  · set drafted := (s.writeDraft r frame).2
    have hdraftPath : drafted.draftPath = s.draftPath := draftPath_congr hpath
    obtain ⟨cause, hpublish⟩ | ⟨files, hpublish, hmove⟩ := publish_cases drafted r <;> rw [hpublish]
    · exact ⟨hpath, hdrafted'⟩
    · have hmoved := changesOnly_moveFile drafted.files drafted.draftPath drafted.path
      rw [hmove, named_of_changesOnly hdrafted, named_of_changesOnly hdrafted, hdraftPath, hpath,
        Set.union_comm] at hmoved
      exact ⟨hpath, hdrafted'.trans hmoved⟩

/-! ### Runs of attempts -/

/-- A frame to present, and what is refused meanwhile. -/
structure Attempt where
  frame : Frame
  refusals : Refusals

/-- One attempt. -/
def attempt (s : Snapshot) (a : Attempt) : Except RenderError Unit × Snapshot :=
  s.presentUnder a.refusals a.frame

theorem present_eq_attempt (s : Snapshot) (frame : Frame) :
    Sink.present s frame = s.attempt ⟨frame, .nothing⟩ := rfl

/-- The snapshot after one attempt after another, whether they succeed or fail. -/
def attemptAll (s : Snapshot) : List Attempt → Snapshot
  | [] => s
  | a :: as => (s.attempt a).2.attemptAll as

/-- The frame of the last attempt that succeeded. -/
def lastShown (s : Snapshot) : List Attempt → Option Frame
  | [] => none
  | a :: as =>
    match (s.attempt a).2.lastShown as with
    | some frame => some frame
    | none =>
      match (s.attempt a).1 with
      | .ok () => some a.frame
      | .error _ => none

theorem places_of_changesOnly {changed : Set Place} (hpath : t.path = s.path)
    (h : ChangesOnly changed s.files t.files) : t.places = s.places := by
  rw [places, places, draftPath_congr hpath, hpath, named_of_changesOnly h, named_of_changesOnly h]

/-- **A run of attempts** keeps its path, and changes nothing but the target and the draft. -/
theorem changesOnly_attemptAll : ∀ (as : List Attempt) (s : Snapshot),
    (s.attemptAll as).path = s.path ∧ ChangesOnly s.places s.files (s.attemptAll as).files
  | [], s => ⟨rfl, changesOnly_refl _ _⟩
  | a :: as, s => by
    have hattempt : (s.attempt a).2.path = s.path ∧ ChangesOnly s.places s.files (s.attempt a).2.files :=
      changesOnly_presentUnder s a.refusals a.frame
    obtain ⟨hpath, hchanges⟩ := hattempt
    obtain ⟨hpath', hchanges'⟩ := changesOnly_attemptAll as (s.attempt a).2
    rw [places_of_changesOnly hpath hchanges] at hchanges'
    exact ⟨hpath'.trans hpath, hchanges.trans hchanges'⟩

/-- **After a run of attempts** the target is the image of the last frame that was shown,
or what it was at first. -/
theorem find?_attemptAll : ∀ (as : List Attempt) (s : Snapshot),
    Path.EndsInName s.path before name →
      (s.attemptAll as).files.find? s.path =
        match s.lastShown as with
        | some frame => some (.file (Netpbm.encode frame).toArray)
        | none => s.files.find? s.path
  | [], _, _ => rfl
  | a :: as, s, h => by
    have hpath : (s.attempt a).2.path = s.path := (changesOnly_presentUnder s a.refusals a.frame).1
    have ih := find?_attemptAll as (s.attempt a).2 (hpath ▸ h)
    rw [hpath] at ih
    rw [attemptAll, lastShown, ih]
    cases (s.attempt a).2.lastShown as with
    | some frame => rfl
    | none =>
      cases hresult : (s.attempt a).1 with
      | ok _ => exact (presentUnder_ok h hresult).1
      | error e => exact (presentUnder_error h hresult).1

/-- **Targets are replaced whole.** Take any files, a path that ends in an ordinary name,
and any run of attempts at presenting frames, whatever is refused at each of them; and look
at one more attempt. However far its draft gets, the path leads to what it led to before.
The attempt succeeds exactly if nothing is in its way; then the path leads to a file with
all bytes of the image, and the path of the draft leads nowhere. If it fails, the path leads
to what it led to before, and the error names the draft if the draft could not be written,
and otherwise the target. So after the run there is the image of the last frame that was
shown, or what was there at first. At all these times every other place is as it was at
first, and so is what any path leads to that does not lead, then or at first, to what these
two paths name. -/
theorem targets_are_replaced_whole (h : Path.EndsInName s.path before name)
    (past : List Attempt) (a : Attempt) :
    let now := s.attemptAll past
    let drafted := fun stop => (now.writeDraft stop a.frame).2.files
    let done := now.attempt a
    now.path = s.path ∧
      now.files.find? s.path =
        (match s.lastShown past with
        | some frame => some (.file (Netpbm.encode frame).toArray)
        | none => s.files.find? s.path) ∧
      (∀ stop, (drafted stop).find? s.path = now.files.find? s.path) ∧
      (done.1 = .ok () ↔ now.Unhindered name a.refusals a.frame) ∧
      (done.1 = .ok () →
        done.2.files.find? s.path = some (.file (Netpbm.encode a.frame).toArray) ∧
          done.2.files.find? s.draftPath = none) ∧
      (∀ e, done.1 = .error e →
        done.2.files.find? s.path = now.files.find? s.path ∧
          ((now.writeDraft a.refusals a.frame).1 = .error e ∧ (∃ cause, e = .file s.draftPath cause) ∨
            (now.writeDraft a.refusals a.frame).1 = .ok () ∧ ∃ cause, e = .file s.path cause)) ∧
      ∀ files, (files = done.2.files ∨ ∃ stop, files = drafted stop) →
        (∀ q, q ∉ s.files.named s.path → q ∉ s.files.named s.draftPath →
          files.node? q = s.files.node? q) ∧
        ∀ path, (∀ q, s.files.locate path = .ok q ∨ files.locate path = .ok q →
            q ∉ s.files.named s.path ∧ q ∉ s.files.named s.draftPath) →
          files.find? path = s.files.find? path := by
  intro now drafted done
  obtain ⟨hpath, hpast⟩ : now.path = s.path ∧ ChangesOnly s.places s.files now.files :=
    changesOnly_attemptAll past s
  have hends : Path.EndsInName now.path before name := hpath ▸ h
  have hdraftPath : now.draftPath = s.draftPath := draftPath_congr hpath
  have hdrafted : ∀ stop, (drafted stop).find? s.path = now.files.find? s.path := fun stop =>
    hpath ▸ find?_writeDraft hends stop a.frame
  refine ⟨hpath, find?_attemptAll past s h, hdrafted, presentUnder_eq_ok_iff hends,
    fun hok => ?_, fun e herror => ?_, fun files hfiles => ?_⟩
  · rw [← hpath, ← hdraftPath]
    exact presentUnder_ok hends hok
  · rw [← hpath, ← hdraftPath]
    exact presentUnder_error hends herror
  · have hplaces : now.places = s.places := places_of_changesOnly hpath hpast
    have hchanges : ChangesOnly s.places s.files files := by
      refine hpast.trans (hplaces ▸ ?_)
      obtain rfl | ⟨stop, rfl⟩ := hfiles
      · exact (changesOnly_presentUnder now a.refusals a.frame).2
      · exact (writeDraft_cases now stop a.frame).2.1.mono Set.subset_union_right
    refine ⟨fun q htarget hdraft => ?_, fun path haway => ?_⟩
    · exact hchanges.elsewhere q (not_or.mpr ⟨htarget, hdraft⟩)
    · exact find?_of_changesOnly hchanges fun q hq => not_or.mpr (haway q hq)

/-- A snapshot in a directory without files. -/
def fresh : Snapshot := ⟨"m.ppm", .fresh⟩

/-- A frame of one pixel. -/
def dot : Frame := Raster.filled 1 1 (.ofRgb 1 2 3)

/-- A frame of two pixels is presented on a disk with room for three bytes. -/
def onFullDisk : Attempt := ⟨Raster.filled 2 1 (.ofRgb 4 5 6), none, some (3, .system 28), none⟩

/-- When the disk is full, the image that is there stays, and the error names the draft. -/
theorem full_disk_keeps_the_image :
    Path.EndsInName fresh.path [] ['m', '.', 'p', 'p', 'm'] ∧
      fresh.files.find? "m.ppm" = none ∧
      (Sink.present fresh dot).1 = .ok () ∧
      (Sink.present fresh dot).2.files.find? "m.ppm" = some (.file (Netpbm.encode dot).toArray) ∧
      (Sink.present fresh dot).2.files.find? "m.ppm.tmp" = none ∧
      ((Sink.present fresh dot).2.attempt onFullDisk).1 = .error (.file "m.ppm.tmp" (.system 28)) ∧
      ((Sink.present fresh dot).2.attempt onFullDisk).2.files.find? "m.ppm" =
        some (.file (Netpbm.encode dot).toArray) := by
  have hends : Path.EndsInName fresh.path [] ['m', '.', 'p', 'p', 'm'] :=
    ⟨by decide, by decide, by decide, by decide⟩
  have hfirst : (fresh.attempt ⟨dot, .nothing⟩).1 = .ok () := by decide +kernel
  have hfailed : ((fresh.attempt ⟨dot, .nothing⟩).2.attempt onFullDisk).1 =
      .error (.file "m.ppm.tmp" (.system 28)) := by decide +kernel
  obtain ⟨-, -, -, -, hdone, -⟩ := targets_are_replaced_whole hends [] ⟨dot, .nothing⟩
  obtain ⟨-, -, -, -, -, herror, -⟩ := targets_are_replaced_whole hends [⟨dot, .nothing⟩] onFullDisk
  obtain ⟨himage, hdraft⟩ := hdone hfirst
  rw [present_eq_attempt]
  exact ⟨hends, by decide +kernel, hfirst, himage, hdraft, hfailed,
    (herror _ hfailed).1.trans himage⟩

end Snapshot
end ScreenBridge
