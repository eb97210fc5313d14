/-
# Files that come and go

Writing a file and moving one change the files at the places that their paths name
(`FileSystem.named`) and nothing else; in particular, what was a directory is one, and
nothing else becomes one (`FileSystem.ChangesOnly`). A walk goes through directories only,
so after such a change every path names the place that it named before
(`FileSystem.named_of_changesOnly`), and leads to what it led to before, unless that is one
of the files in question (`FileSystem.find?_of_changesOnly`).

Key definitions: `Path.EndsInName`, `FileSystem.named`, `FileSystem.ChangesOnly`.
Key theorems: `Path.EndsInName.append`, `FileSystem.walk_of_changesOnly`,
`FileSystem.find?_of_changesOnly`, `FileSystem.write_eq_ok_iff`,
`FileSystem.changesOnly_write`, `FileSystem.moveFile_eq_ok_iff`,
`FileSystem.changesOnly_moveFile`, `FileSystem.find?_moveFile`.
-/
import Mathlib.Data.Set.Basic
import ScreenBridge.Proofs.Files

namespace ScreenBridge

namespace Path

variable {path : String} {before : List (List Char)} {name tail : List Char}

/-! ### The last name of a path -/

/-- A path that ends in an ordinary name: no slash is behind it, and it is neither one dot
nor two. -/
structure EndsInName (path : String) (before : List (List Char)) (name : List Char) : Prop where
  pieces : pieces path = before ++ [name]
  noSlash : endsInSlash path = false
  ne_dot : name ≠ ['.']
  ne_dots : name ≠ ['.', '.']

theorem splitSlash_of_not_mem : ∀ {tail : List Char}, '/' ∉ tail → splitSlash tail = [tail]
  | [], _ => rfl
  | c :: tail, h => by
    rw [List.mem_cons, not_or] at h
    rw [splitSlash, if_neg (Ne.symm h.1), splitSlash_of_not_mem h.2]

/-- What is appended without a slash goes to the last piece, which is empty only behind a
slash. -/
theorem splitSlash_append (h : '/' ∉ tail) : ∀ cs : List Char, ∃ front last,
    splitSlash cs = front ++ [last] ∧ splitSlash (cs ++ tail) = front ++ [last ++ tail] ∧
      (last = [] → cs = [] ∨ cs.getLast? = some '/')
  | [] => ⟨[], [], rfl, splitSlash_of_not_mem h, fun _ => .inl rfl⟩
  | c :: cs => by
    obtain ⟨front, last, hcs, happend, hlast⟩ := splitSlash_append h cs
    rw [List.cons_append, splitSlash, splitSlash, hcs, happend]
    by_cases hc : c = '/'
    · refine ⟨[] :: front, last, by rw [if_pos hc]; rfl, by rw [if_pos hc]; rfl, fun hempty => ?_⟩
      rcases hlast hempty with rfl | hslash
      · exact .inr (by rw [hc]; rfl)
      · exact .inr (by rw [List.getLast?_cons, hslash]; rfl)
    · rw [if_neg hc, if_neg hc]
      cases front with
      | nil => exact ⟨[], c :: last, rfl, rfl, fun hempty => by cases hempty⟩
      | cons piece front =>
        refine ⟨(c :: piece) :: front, last, rfl, rfl, fun hempty => ?_⟩
        rcases hlast hempty with rfl | hslash
        · cases front <;> cases hcs
        · exact .inr (by rw [List.getLast?_cons, hslash]; rfl)

theorem EndsInName.ne_nil (h : EndsInName path before name) : path.toList ≠ [] := by
  intro hempty
  have hpieces := h.pieces
  rw [Path.pieces, hempty] at hpieces
  cases before <;> cases hpieces

/-- A longer path ends in a longer name. -/
theorem EndsInName.append (h : EndsInName path before name) {tail : String}
    (hslash : '/' ∉ tail.toList) (hlong : 2 < tail.toList.length) :
    EndsInName (path ++ tail) before (name ++ tail.toList) := by
  obtain ⟨front, last, hpath, happend, hlast⟩ := splitSlash_append hslash path.toList
  have hnonempty : tail.toList ≠ [] := List.ne_nil_of_length_pos (by omega)
  have hfull : last ≠ [] := fun hempty => by
    rcases hlast hempty with hnil | hend
    · exact h.ne_nil hnil
    · have hno := h.noSlash
      simp [endsInSlash, hend] at hno
  have hsplit : front.filter (!·.isEmpty) = before ∧ last = name := by
    have hpieces := h.pieces
    rw [Path.pieces, hpath, List.filter_append, List.filter_cons_of_pos (by simpa using hfull)] at hpieces
    simpa using List.append_inj' hpieces rfl
  obtain ⟨rfl, rfl⟩ := hsplit
  have hlength : 2 < (last ++ tail.toList).length := by
    rw [List.length_append]
    omega
  refine ⟨?_, ?_, ?_, ?_⟩
  · rw [Path.pieces, String.toList_append, happend, List.filter_append,
      List.filter_cons_of_pos (by simp [hfull])]
    rfl
  · rw [endsInSlash, String.toList_append, List.getLast?_append_of_ne_nil _ hnonempty]
    refine decide_eq_false fun hend => hslash (List.mem_of_getLast? hend)
  · intro heq
    rw [heq] at hlength
    exact absurd hlength (by decide)
  · intro heq
    rw [heq] at hlength
    exact absurd hlength (by decide)

theorem isAbsolute_append (h : path.toList ≠ []) (tail : String) :
    isAbsolute (path ++ tail) = isAbsolute path := by
  rw [isAbsolute, isAbsolute, String.toList_append, List.head?_append_of_ne_nil _ h]

end Path

namespace FileSystem

variable {fs fs' fs'' : FileSystem} {places places' : Set Place} {place q : Place} {node : Node}
  {path source target : String} {bytes : Array UInt8} {piece : List Char}

/-! ### Changes at some places -/

/-- Directories are as they were, and files are, except at some places. -/
structure ChangesOnly (places : Set Place) (fs fs' : FileSystem) : Prop where
  workingDirectory : fs'.workingDirectory = fs.workingDirectory
  directory : ∀ q, fs'.node? q = some .directory ↔ fs.node? q = some .directory
  elsewhere : ∀ q, q ∉ places → fs'.node? q = fs.node? q

theorem changesOnly_refl (places : Set Place) (fs : FileSystem) : ChangesOnly places fs fs :=
  ⟨rfl, fun _ => Iff.rfl, fun _ _ => rfl⟩

theorem ChangesOnly.symm (h : ChangesOnly places fs fs') : ChangesOnly places fs' fs :=
  ⟨h.workingDirectory.symm, fun q => (h.directory q).symm, fun q hq => (h.elsewhere q hq).symm⟩

theorem ChangesOnly.trans (h : ChangesOnly places fs fs') (h' : ChangesOnly places fs' fs'') :
    ChangesOnly places fs fs'' :=
  ⟨h'.workingDirectory.trans h.workingDirectory, fun q => (h'.directory q).trans (h.directory q),
    fun q hq => (h'.elsewhere q hq).trans (h.elsewhere q hq)⟩

theorem ChangesOnly.mono (h : ChangesOnly places fs fs') (hsub : places ⊆ places') :
    ChangesOnly places' fs fs' :=
  ⟨h.workingDirectory, h.directory, fun q hq => h.elsewhere q fun hmem => hq (hsub hmem)⟩

theorem lookup_filter_self (place : Place) (nodes : List (Place × Node)) :
    (nodes.filter (·.1 ≠ place)).lookup place = none := by
  refine List.lookup_eq_none_iff.mpr fun p hp => ?_
  rw [List.mem_filter, decide_eq_true_iff] at hp
  exact bne_iff_ne.mpr (Ne.symm hp.2)

theorem node?_erase (hplace : place ≠ []) (fs : FileSystem) (q : Place) :
    (fs.erase place).node? q = if q = place then none else fs.node? q := by
  unfold node? erase
  by_cases hq : q = place
  · rw [if_pos hq, if_neg (hq ▸ hplace), hq, lookup_filter_self]
  · rw [if_neg hq, lookup_filter_ne hq]

theorem changesOnly_put_file (hplace : place ≠ []) (hnode : fs.node? place ≠ some .directory)
    (bytes : Array UInt8) : ChangesOnly {place} fs (fs.put place (.file bytes)) where
  workingDirectory := rfl
  directory q := by
    rw [node?_put hplace]
    split_ifs with hq
    · simp [hq, hnode]
    · rfl
  elsewhere q hq := by
    have hne : q ≠ place := hq
    rw [node?_put hplace, if_neg hne]

theorem changesOnly_erase (hplace : place ≠ []) (hnode : fs.node? place ≠ some .directory) :
    ChangesOnly {place} fs (fs.erase place) where
  workingDirectory := rfl
  directory q := by
    rw [node?_erase hplace]
    split_ifs with hq
    · simp [hq, hnode]
    · rfl
  elsewhere q hq := by
    have hne : q ≠ place := hq
    rw [node?_erase hplace, if_neg hne]

/-! ### Paths after a change -/

theorem origin_of_changesOnly (h : ChangesOnly places fs fs') (path : String) :
    fs'.origin path = fs.origin path := by
  rw [origin, origin, h.workingDirectory]

theorem stepFrom_directory (hstep : fs.stepFrom place piece = .ok q) :
    fs.node? place = some .directory := by
  unfold stepFrom at hstep
  rcases hnode : fs.node? place with _ | _ | _ <;> rw [hnode] at hstep
  · cases hstep
  · cases hstep

theorem walk_cons_eq_ok {pieces : List (List Char)} (h : fs.walk place (piece :: pieces) = .ok q) :
    ∃ next, fs.stepFrom place piece = .ok next ∧ fs.walk next pieces = .ok q := by
  rw [walk] at h
  rcases hstep : fs.stepFrom place piece with e | next <;> rw [hstep] at h
  · cases h
  · exact ⟨next, rfl, h⟩

theorem stepFrom_of_changesOnly (h : ChangesOnly places fs fs')
    (hstep : fs.stepFrom place piece = .ok q) (hq : (fs'.node? q).isSome = true) :
    fs'.stepFrom place piece = .ok q := by
  have hdirectory := stepFrom_directory hstep
  unfold stepFrom at hstep ⊢
  rw [hdirectory] at hstep
  rw [(h.directory place).mpr hdirectory]
  dsimp only at hstep ⊢
  split_ifs at hstep with hdot hdots hlong hpresent
  · rw [if_pos hdot, hstep]
  · rw [if_neg hdot, if_pos hdots, hstep]
  · obtain rfl := Except.ok.inj hstep
    rw [if_neg hdot, if_neg hdots, if_neg hlong, if_pos hq]

/-- **A walk still arrives** where something stands, since it goes through directories. -/
theorem walk_of_changesOnly (h : ChangesOnly places fs fs') (hq : (fs'.node? q).isSome = true) :
    ∀ {pieces : List (List Char)} {place : Place},
      fs.walk place pieces = .ok q → fs'.walk place pieces = .ok q
  | [], _, hwalk => hwalk
  | piece :: pieces, place, hwalk => by
    obtain ⟨next, hstep, hrest⟩ := walk_cons_eq_ok hwalk
    -- where the walk goes on there is a directory, and at its end stands something
    have hnext : (fs'.node? next).isSome = true := by
      cases pieces with
      | nil =>
        obtain rfl := Except.ok.inj hrest
        exact hq
      | cons piece' pieces =>
        obtain ⟨_, hstep', -⟩ := walk_cons_eq_ok hrest
        rw [(h.directory next).mpr (stepFrom_directory hstep')]
        rfl
    rw [walk, stepFrom_of_changesOnly h hstep hnext]
    exact walk_of_changesOnly h hq hrest

/-- Where a path leads, if it leads anywhere. -/
theorem locate_eq_ok_iff : fs.locate path = .ok q ↔
    pathFault? path = none ∧ fs.walk (fs.origin path) (Path.pieces path) = .ok q ∧
      (∀ bytes, fs.node? q = some (.file bytes) → Path.endsInSlash path = false) := by
  unfold locate
  cases hfault : pathFault? path with
  | some e => simp
  | none =>
    rcases hwalk : fs.walk (fs.origin path) (Path.pieces path) with e | place
    · simp
    · dsimp only
      rcases hnode : fs.node? place with _ | bytes | _ <;> simp only [true_and, Except.ok.injEq]
      · constructor
        · rintro rfl
          simp [hnode]
        · exact fun h => h.1
      · cases Path.endsInSlash path <;> simp
        rintro rfl
        exact ⟨bytes, hnode⟩
      · constructor
        · rintro rfl
          simp [hnode]
        · exact fun h => h.1

theorem find?_eq_some_iff :
    fs.find? path = some node ↔ ∃ q, fs.locate path = .ok q ∧ fs.node? q = some node := by
  unfold find?
  cases fs.locate path <;> simp

theorem find?_of_changesOnly_some (h : ChangesOnly places fs fs')
    (haway : ∀ q, fs.locate path = .ok q → q ∉ places) (hfind : fs.find? path = some node) :
    fs'.find? path = some node := by
  obtain ⟨q, hlocate, hnode⟩ := find?_eq_some_iff.mp hfind
  obtain ⟨hfault, hwalk, hslash⟩ := locate_eq_ok_iff.mp hlocate
  have hsame : fs'.node? q = fs.node? q := h.elsewhere q (haway q hlocate)
  refine find?_eq_some_iff.mpr ⟨q, locate_eq_ok_iff.mpr ⟨hfault, ?_, ?_⟩, hsame.trans hnode⟩
  · rw [origin_of_changesOnly h]
    exact walk_of_changesOnly h (by rw [hsame, hnode]; rfl) hwalk
  · exact fun bytes hbytes => hslash bytes (hsame ▸ hbytes)

/-- **A path leads to what it led to**, unless that is a file that changed, or became one. -/
theorem find?_of_changesOnly (h : ChangesOnly places fs fs')
    (haway : ∀ q, fs.locate path = .ok q ∨ fs'.locate path = .ok q → q ∉ places) :
    fs'.find? path = fs.find? path := by
  refine Option.ext fun node => ⟨?_, ?_⟩
  · exact find?_of_changesOnly_some h.symm fun q hq => haway q (.inr hq)
  · exact find?_of_changesOnly_some h fun q hq => haway q (.inl hq)

/-! ### The place that a path names -/

/-- The place that a path names, whether something stands there or not. -/
def named (fs : FileSystem) (path : String) : Set Place :=
  {q | ∃ directory name, fs.lastStep path = .ok (.name directory name) ∧ q = directory ++ [name]}

theorem lastStep_of_walk {directory : Place} {name : List Char} {before : List (List Char)}
    (hfault : pathFault? path = none) (hpieces : Path.pieces path = before ++ [name])
    (hdot : name ≠ ['.']) (hdots : name ≠ ['.', '.'])
    (hwalk : fs.walk (fs.origin path) before = .ok directory)
    (hdirectory : fs.node? directory = some .directory) :
    fs.lastStep path = .ok (.name directory name) := by
  unfold lastStep
  simp [hfault, hpieces, hwalk, hdirectory, hdot, hdots]

theorem lastStep_of_changesOnly (h : ChangesOnly places fs fs') {directory : Place}
    {name : List Char} (hlast : fs.lastStep path = .ok (.name directory name)) :
    fs'.lastStep path = .ok (.name directory name) := by
  obtain ⟨hfault, hdot, hdots, hdirectory, before, hpieces, hwalk⟩ := lastStep_eq_name hlast
  have hdirectory' := (h.directory directory).mpr hdirectory
  refine lastStep_of_walk hfault hpieces hdot hdots ?_ hdirectory'
  rw [origin_of_changesOnly h]
  exact walk_of_changesOnly h (by rw [hdirectory']; rfl) hwalk

/-- **A path names the place that it named.** -/
theorem named_of_changesOnly (h : ChangesOnly places fs fs') (path : String) :
    fs'.named path = fs.named path := by
  ext q
  constructor
  · rintro ⟨directory, name, hlast, hq⟩
    exact ⟨directory, name, lastStep_of_changesOnly h.symm hlast, hq⟩
  · rintro ⟨directory, name, hlast, hq⟩
    exact ⟨directory, name, lastStep_of_changesOnly h hlast, hq⟩

theorem walk_of_lastStep {directory : Place} {name : List Char}
    (hlast : fs.lastStep path = .ok (.name directory name)) :
    fs.walk (fs.origin path) (Path.pieces path) =
      if isTooLong name then .error .nameTooLong
      else if (fs.node? (directory ++ [name])).isSome then .ok (directory ++ [name])
      else .error .notFound := by
  obtain ⟨-, hdot, hdots, hdirectory, before, hpieces, hwalk⟩ := lastStep_eq_name hlast
  rw [hpieces, walk_append, hwalk]
  simp only [walk, stepFrom, hdirectory, hdot, hdots, if_false]
  split_ifs <;> rfl

theorem node?_of_find? {directory : Place} {name : List Char}
    (hlast : fs.lastStep path = .ok (.name directory name)) (hfind : fs.find? path = some node) :
    fs.node? (directory ++ [name]) = some node := by
  obtain ⟨q, hlocate, hnode⟩ := find?_eq_some_iff.mp hfind
  obtain ⟨-, hwalk, -⟩ := locate_eq_ok_iff.mp hlocate
  rw [walk_of_lastStep hlast] at hwalk
  split_ifs at hwalk
  obtain rfl := Except.ok.inj hwalk
  exact hnode

theorem find?_of_node? {directory : Place} {name : List Char}
    (hlast : fs.lastStep path = .ok (.name directory name)) (hlong : isTooLong name = false)
    (hslash : Path.endsInSlash path = false) (hnode : fs.node? (directory ++ [name]) = some node) :
    fs.find? path = some node := by
  obtain ⟨hfault, -⟩ := lastStep_eq_name hlast
  refine find?_eq_some_iff.mpr ⟨directory ++ [name], ?_, hnode⟩
  refine locate_eq_ok_iff.mpr ⟨hfault, ?_, fun _ _ => hslash⟩
  rw [walk_of_lastStep hlast, hlong, hnode]
  rfl

theorem find?_of_read (h : fs.read path = .ok bytes) : fs.find? path = some (.file bytes) := by
  obtain ⟨hfault, hslash, q, hwalk, hnode⟩ := read_eq_ok_iff.mp h
  exact find?_eq_some_iff.mpr ⟨q, locate_eq_ok_iff.mpr ⟨hfault, hwalk, fun _ _ => hslash⟩, hnode⟩

theorem getLast?_of_mem_named {before : List (List Char)} {name : List Char}
    (h : Path.EndsInName path before name) (hq : q ∈ fs.named path) : q.getLast? = some name := by
  obtain ⟨directory, name', hlast, rfl⟩ := hq
  obtain ⟨-, -, -, -, before', hpieces, -⟩ := lastStep_eq_name hlast
  rw [h.pieces] at hpieces
  rw [List.getLast?_concat, List.singleton_inj.mp (List.append_inj' hpieces rfl).2]

/-- The name of a place is the last name of the path that leads to it. -/
theorem getLast?_of_locate {before : List (List Char)} {name : List Char}
    (h : Path.EndsInName path before name) (hlocate : fs.locate path = .ok q) :
    q.getLast? = some name := by
  obtain ⟨-, hwalk, -⟩ := locate_eq_ok_iff.mp hlocate
  rw [h.pieces, walk_append] at hwalk
  rcases hbefore : fs.walk (fs.origin path) before with e | directory <;> rw [hbefore] at hwalk
  · cases hwalk
  · obtain ⟨next, hstep, hrest⟩ := walk_cons_eq_ok hwalk
    obtain rfl := Except.ok.inj hrest
    have hdirectory := stepFrom_directory hstep
    unfold stepFrom at hstep
    simp only [hdirectory, h.ne_dot, h.ne_dots, if_false] at hstep
    split_ifs at hstep
    rw [← Except.ok.inj hstep, List.getLast?_concat]

theorem pathFault?_of_append (h : path.toList ≠ []) {tail : String}
    (hfault : pathFault? (path ++ tail) = none) : pathFault? path = none := by
  have hempty : path.isEmpty = false := by
    cases hpath : path.isEmpty with
    | false => rfl
    | true => exact absurd (by rw [String.isEmpty_iff.mp hpath]; rfl) h
  unfold pathFault? at hfault ⊢
  rw [String.toList_append, List.any_append, String.utf8ByteSize_append] at hfault
  split_ifs at hfault with hnul hnone hlong
  rw [Bool.or_eq_true, not_or] at hnul
  rw [if_neg hnul.1, hempty, if_neg Bool.false_ne_true, if_neg (by omega)]

theorem isTooLong_of_append {name tail : List Char} (h : isTooLong (name ++ tail) = false) :
    isTooLong name = false := by
  unfold isTooLong at h ⊢
  rw [String.ofList_append, String.utf8ByteSize_append, decide_eq_false_iff_not] at h
  rw [decide_eq_false_iff_not]
  omega

/-- Two paths that differ only in that the last name of one goes on name places in the same
directory. -/
theorem lastStep_of_append {before : List (List Char)} {name name' : List Char} {tail : String}
    {directory : Place} (h : Path.EndsInName path before name) (hslash : '/' ∉ tail.toList)
    (htail : 2 < tail.toList.length)
    (hlast : fs.lastStep (path ++ tail) = .ok (.name directory name')) :
    name' = name ++ tail.toList ∧ fs.lastStep path = .ok (.name directory name) := by
  obtain ⟨hfault, -, -, hdirectory, before', hpieces, hwalk⟩ := lastStep_eq_name hlast
  rw [(h.append hslash htail).pieces] at hpieces
  obtain ⟨rfl, hname⟩ := List.append_inj' hpieces rfl
  have horigin : fs.origin (path ++ tail) = fs.origin path := by
    rw [origin, origin, Path.isAbsolute_append h.ne_nil]
  rw [horigin] at hwalk
  exact ⟨(List.singleton_inj.mp hname).symm, lastStep_of_walk (pathFault?_of_append h.ne_nil hfault)
    h.pieces h.ne_dot h.ne_dots hwalk hdirectory⟩

/-! ### Writing and moving -/

theorem write_of_error {e : Fault} (h : (fs.write path bytes).1 = .error e) :
    (fs.write path bytes).2 = fs := by
  revert h
  unfold write
  dsimp only
  repeat' split
  all_goals first | exact fun _ => rfl | exact fun h => by cases h

/-- **When a file can be written**: behind a directory, and not over one. -/
theorem write_eq_ok_iff : (fs.write path bytes).1 = .ok () ↔
    ∃ directory name, fs.lastStep path = .ok (.name directory name) ∧
      Path.endsInSlash path = false ∧ isTooLong name = false ∧
      fs.node? (directory ++ [name]) ≠ some .directory := by
  constructor
  · intro h
    obtain ⟨directory, name, hlast, hslash, hlong, hnode, -⟩ := write_cases h
    exact ⟨directory, name, hlast, hslash, hlong, hnode⟩
  · rintro ⟨directory, name, hlast, hslash, hlong, hnode⟩
    unfold write
    simp only [hlast, hslash, hlong, Bool.false_eq_true, if_false]

/-- **Writing a file** changes nothing but what its path names. -/
theorem changesOnly_write (fs : FileSystem) (path : String) (bytes : Array UInt8) :
    ChangesOnly (fs.named path) fs (fs.write path bytes).2 := by
  cases hresult : (fs.write path bytes).1 with
  | error e =>
    rw [write_of_error hresult]
    exact changesOnly_refl _ fs
  | ok _ =>
    obtain ⟨directory, name, hlast, -, -, hnode, hwrite⟩ := write_cases hresult
    rw [hwrite]
    refine (changesOnly_put_file (by simp) hnode bytes).mono ?_
    rintro q rfl
    exact ⟨directory, name, hlast, rfl⟩

theorem moveFile_of_error {e : Fault} (h : (fs.moveFile source target).1 = .error e) :
    (fs.moveFile source target).2 = fs := by
  revert h
  unfold moveFile
  dsimp only
  repeat' split
  all_goals first | exact fun _ => rfl | exact fun h => by cases h

/-- **What moving a file does**, if it succeeds: the file stands where the target names a
place, and no longer where the source does. -/
theorem moveFile_cases (h : (fs.moveFile source target).1 = .ok ()) :
    ∃ directory name directory' name' bytes,
      fs.lastStep source = .ok (.name directory name) ∧
      fs.lastStep target = .ok (.name directory' name') ∧
      fs.node? (directory ++ [name]) = some (.file bytes) ∧
      Path.endsInSlash target = false ∧ isTooLong name' = false ∧
      fs.node? (directory' ++ [name']) ≠ some .directory ∧
      (fs.moveFile source target).2 =
        (fs.erase (directory ++ [name])).put (directory' ++ [name']) (.file bytes) := by
  unfold moveFile at h ⊢
  rcases hsource : fs.lastStep source with e | ⟨directory, name⟩ | _ <;>
    rcases htarget : fs.lastStep target with e | ⟨directory', name'⟩ | _ <;>
    simp only [hsource, htarget] at h ⊢ <;> try cases h
  rcases hnode : fs.node? (directory ++ [name]) with _ | bytes | _ <;> simp only [hnode] at h ⊢ <;>
    try cases h
  split_ifs at h ⊢ with hslash hlong
  have hfree : fs.node? (directory' ++ [name']) ≠ some .directory := by
    intro hdirectory
    rw [hdirectory] at h
    cases h
  rw [not_or] at hslash
  refine ⟨directory, name, directory', name', bytes, rfl, rfl, hnode, by simpa using hslash.2,
    by simpa using hlong, hfree, ?_⟩
  split
  · rename_i hdirectory
    exact absurd hdirectory hfree
  · rfl

/-- **When a file can be moved**: not over a directory, and not under too long a name. -/
theorem moveFile_eq_ok_iff {directory directory' : Place} {name name' : List Char}
    (hsource : fs.lastStep source = .ok (.name directory name))
    (htarget : fs.lastStep target = .ok (.name directory' name'))
    (hnode : fs.node? (directory ++ [name]) = some (.file bytes))
    (hslash : Path.endsInSlash source = false) (hslash' : Path.endsInSlash target = false) :
    (fs.moveFile source target).1 = .ok () ↔
      isTooLong name' = false ∧ fs.node? (directory' ++ [name']) ≠ some .directory := by
  constructor
  · intro h
    obtain ⟨_, _, _, _, _, -, htarget', -, -, hlong, hfree, -⟩ := moveFile_cases h
    obtain ⟨rfl, rfl⟩ := LastStep.name.inj (Except.ok.inj (htarget.symm.trans htarget'))
    exact ⟨hlong, hfree⟩
  · rintro ⟨hlong, hfree⟩
    unfold moveFile
    simp only [hsource, htarget, hnode, hslash, hslash', hlong, Bool.false_eq_true, or_self, if_false]

/-- **Moving a file** changes nothing but what its two paths name. -/
theorem changesOnly_moveFile (fs : FileSystem) (source target : String) :
    ChangesOnly (fs.named source ∪ fs.named target) fs (fs.moveFile source target).2 := by
  cases hresult : (fs.moveFile source target).1 with
  | error e =>
    rw [moveFile_of_error hresult]
    exact changesOnly_refl _ fs
  | ok _ =>
    obtain ⟨directory, name, directory', name', bytes, hsource, htarget, hnode, -, -, hfree, hmove⟩ :=
      moveFile_cases hresult
    have herase : ChangesOnly {directory ++ [name]} fs (fs.erase (directory ++ [name])) :=
      changesOnly_erase (by simp) (by simp [hnode])
    have hput : ChangesOnly {directory' ++ [name']} (fs.erase (directory ++ [name]))
        ((fs.erase (directory ++ [name])).put (directory' ++ [name']) (.file bytes)) :=
      changesOnly_put_file (by simp) (fun hthere => hfree ((herase.directory _).mp hthere)) bytes
    rw [hmove]
    refine (herase.mono ?_).trans (hput.mono ?_)
    · rintro q rfl
      exact .inl ⟨directory, name, hsource, rfl⟩
    · rintro q rfl
      exact .inr ⟨directory', name', htarget, rfl⟩

/-- **A file that was moved** to another place is found there and nowhere else. -/
theorem find?_moveFile (hok : (fs.moveFile source target).1 = .ok ())
    (hfind : fs.find? source = some (.file bytes))
    (hother : ∀ q, q ∈ fs.named source → q ∉ fs.named target) :
    (fs.moveFile source target).2.find? target = some (.file bytes) ∧
      (fs.moveFile source target).2.find? source = none := by
  have hchanges := changesOnly_moveFile fs source target
  obtain ⟨directory, name, directory', name', bytes', hsource, htarget, hnode, hslash, hlong, -,
    hmove⟩ := moveFile_cases hok
  have hplace : directory ++ [name] ≠ directory' ++ [name'] := fun heq =>
    hother _ ⟨directory, name, hsource, rfl⟩ ⟨directory', name', htarget, heq⟩
  rw [node?_of_find? hsource hfind] at hnode
  obtain rfl := Node.file.inj (Option.some.inj hnode)
  rw [hmove] at hchanges ⊢
  constructor
  · refine find?_of_node? (lastStep_of_changesOnly hchanges htarget) hlong hslash ?_
    rw [node?_put (by simp), if_pos rfl]
  · refine Option.eq_none_iff_forall_ne_some.mpr fun node hnode => ?_
    have hleft := node?_of_find? (lastStep_of_changesOnly hchanges hsource) hnode
    rw [node?_put (by simp), if_neg hplace, node?_erase (by simp), if_pos rfl] at hleft
    cases hleft

end FileSystem
end ScreenBridge
