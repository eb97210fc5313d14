/-
# What stays in a file system

A path that leads somewhere goes on leading there as long as directories stay
directories and nothing disappears (`FileSystem.Passes`). Writing a file is such a change,
so a file that was written is read (`FileSystem.read_write`). Making directories only adds
some (`FileSystem.Extends`), so every file that is there goes on being read
(`FileSystem.read_of_extends`).

Key definitions: `FileSystem.Passes`, `FileSystem.Extends`.
Key theorems: `FileSystem.walk_of_passes`, `FileSystem.write_cases`,
`FileSystem.read_write`, `FileSystem.extends_makeFirst`, `FileSystem.read_of_extends`.
-/
import Mathlib.Data.List.Basic
import ScreenBridge.FileSystem

namespace ScreenBridge
namespace FileSystem

variable {fs fs' : FileSystem} {place q : Place} {node : Node} {path : String}
  {bytes : Array UInt8}

/-! ### Nodes -/

theorem lookup_filter_ne (hq : q ≠ place) : ∀ nodes : List (Place × Node),
    (nodes.filter (·.1 ≠ place)).lookup q = nodes.lookup q
  | [] => rfl
  | (p, node) :: nodes => by
    have ih := lookup_filter_ne hq nodes
    by_cases hp : p = place
    · have hne : (q == p) = false := beq_eq_false_iff_ne.mpr (hp ▸ hq)
      rw [List.filter_cons_of_neg (by simpa using hp), ih, List.lookup_cons, hne]
    · rw [List.filter_cons_of_pos (by simpa using hp), List.lookup_cons, List.lookup_cons, ih]

theorem node?_put (hplace : place ≠ []) (fs : FileSystem) (node : Node) (q : Place) :
    (fs.put place node).node? q = if q = place then some node else fs.node? q := by
  unfold node? put
  by_cases hq : q = place
  · rw [if_pos hq, if_neg (hq ▸ hplace), hq, List.lookup_cons_self]
  · rw [if_neg hq, List.lookup_cons, beq_eq_false_iff_ne.mpr hq, lookup_filter_ne hq]

/-! ### Paths that still lead somewhere -/

/-- Directories are still directories, and what was there is not gone. -/
structure Passes (fs fs' : FileSystem) : Prop where
  workingDirectory : fs'.workingDirectory = fs.workingDirectory
  directory : ∀ place, fs.node? place = some .directory → fs'.node? place = some .directory
  present : ∀ place, (fs.node? place).isSome = true → (fs'.node? place).isSome = true

/-- Everything is where it was, and as it was. -/
structure Extends (fs fs' : FileSystem) : Prop where
  workingDirectory : fs'.workingDirectory = fs.workingDirectory
  node : ∀ place node, fs.node? place = some node → fs'.node? place = some node

theorem extends_refl (fs : FileSystem) : Extends fs fs := ⟨rfl, fun _ _ h => h⟩

theorem Extends.trans {fs'' : FileSystem} (h : Extends fs fs') (h' : Extends fs' fs'') :
    Extends fs fs'' :=
  ⟨h'.workingDirectory.trans h.workingDirectory, fun p n hn => h'.node p n (h.node p n hn)⟩

theorem Extends.passes (h : Extends fs fs') : Passes fs fs' where
  workingDirectory := h.workingDirectory
  directory place hplace := h.node place .directory hplace
  present place hplace := by
    obtain ⟨node, hnode⟩ := Option.isSome_iff_exists.mp hplace
    rw [h.node place node hnode, Option.isSome_some]

theorem extends_put (hplace : fs.node? place = none) (node : Node) :
    Extends fs (fs.put place node) := by
  have hne : place ≠ [] := by
    rintro rfl
    cases hplace
  refine ⟨rfl, fun q n hq => ?_⟩
  rw [node?_put hne, if_neg, hq]
  rintro rfl
  rw [hplace] at hq
  cases hq

/-- A file takes the place of a file, or of nothing. -/
theorem passes_put_file (hplace : place ≠ []) (hnode : fs.node? place ≠ some .directory)
    (bytes : Array UInt8) : Passes fs (fs.put place (.file bytes)) where
  workingDirectory := rfl
  directory q hq := by
    have hne : q ≠ place := by
      rintro rfl
      exact hnode hq
    rw [node?_put hplace, if_neg hne, hq]
  present q hq := by
    rw [node?_put hplace]
    split_ifs
    · rfl
    · exact hq

theorem stepFrom_of_passes (h : Passes fs fs') {piece : List Char} {target : Place}
    (hstep : fs.stepFrom place piece = .ok target) : fs'.stepFrom place piece = .ok target := by
  unfold stepFrom at hstep ⊢
  rcases hnode : fs.node? place with _ | _ | _ <;> rw [hnode] at hstep
  · cases hstep
  · cases hstep
  · rw [h.directory place hnode]
    dsimp only at hstep ⊢
    split_ifs at hstep with hdot hdots hlong hpresent
    · rw [if_pos hdot, hstep]
    · rw [if_neg hdot, if_pos hdots, hstep]
    · rw [if_neg hdot, if_neg hdots, if_neg hlong, if_pos (h.present _ hpresent), hstep]

/-- **A walk that arrives still arrives.** -/
theorem walk_of_passes (h : Passes fs fs') : ∀ {pieces : List (List Char)} {place target : Place},
    fs.walk place pieces = .ok target → fs'.walk place pieces = .ok target
  | [], _, _, hwalk => hwalk
  | piece :: pieces, place, target, hwalk => by
    rw [walk] at hwalk ⊢
    rcases hstep : fs.stepFrom place piece with e | next <;> rw [hstep] at hwalk
    · cases hwalk
    · rw [stepFrom_of_passes h hstep]
      exact walk_of_passes h hwalk

theorem walk_append : ∀ (pieces pieces' : List (List Char)) (place : Place),
    fs.walk place (pieces ++ pieces') =
      match fs.walk place pieces with
      | .ok next => fs.walk next pieces'
      | .error e => .error e
  | [], _, _ => rfl
  | piece :: pieces, pieces', place => by
    rw [List.cons_append, walk, walk]
    cases fs.stepFrom place piece with
    | ok next => exact walk_append pieces pieces' next
    | error e => rfl

/-! ### Reading -/

theorem origin_of_passes (h : Passes fs fs') (path : String) : fs'.origin path = fs.origin path := by
  rw [origin, origin, h.workingDirectory]

/-- What reading a file finds: a place with the file at which the path ends. -/
theorem read_eq_ok_iff : fs.read path = .ok bytes ↔
    pathFault? path = none ∧ Path.endsInSlash path = false ∧
      ∃ place, fs.walk (fs.origin path) (Path.pieces path) = .ok place ∧
        fs.node? place = some (.file bytes) := by
  unfold read locate
  constructor
  · intro h
    rcases hfault : pathFault? path with _ | e <;> rw [hfault] at h
    · rcases hwalk : fs.walk (fs.origin path) (Path.pieces path) with e | place <;>
        rw [hwalk] at h
      · cases h
      · rcases hnode : fs.node? place with _ | b | _ <;> simp only [hnode] at h
        · cases h
        · cases hslash : Path.endsInSlash path <;> simp only [hslash, Bool.false_eq_true, if_true,
            if_false, hnode, Except.ok.injEq] at h
          · exact ⟨rfl, rfl, place, rfl, h ▸ hnode⟩
          · cases h
        · cases h
    · cases h
  · rintro ⟨hfault, hslash, place, hwalk, hnode⟩
    rw [hfault, hwalk]
    simp [hnode, hslash]

/-- **A file that is there goes on being read.** -/
theorem read_of_extends (h : Extends fs fs') (hread : fs.read path = .ok bytes) :
    fs'.read path = .ok bytes := by
  obtain ⟨hfault, hslash, place, hwalk, hnode⟩ := read_eq_ok_iff.mp hread
  refine read_eq_ok_iff.mpr ⟨hfault, hslash, place, ?_, h.node place _ hnode⟩
  rw [origin_of_passes h.passes]
  exact walk_of_passes h.passes hwalk

/-! ### Writing -/

/-- What the last step of a path is: a name in a directory. -/
theorem lastStep_eq_name {directory : Place} {name : List Char}
    (h : fs.lastStep path = .ok (.name directory name)) :
    pathFault? path = none ∧ name ≠ ['.'] ∧ name ≠ ['.', '.'] ∧
      fs.node? directory = some .directory ∧
      ∃ before, Path.pieces path = before ++ [name] ∧ fs.walk (fs.origin path) before = .ok directory := by
  unfold lastStep at h
  rcases hfault : pathFault? path with _ | e <;> rw [hfault] at h
  · rcases hpieces : (Path.pieces path).reverse with _ | ⟨last, before⟩ <;> rw [hpieces] at h
    · cases h
    · rcases hwalk : fs.walk (fs.origin path) before.reverse with e | place <;>
        simp only [hwalk] at h
      · cases h
      · rcases hnode : fs.node? place with _ | _ | _ <;> simp only [hnode] at h
        · cases h
        · cases h
        · have hdots : ¬ (last = ['.'] ∨ last = ['.', '.']) := by
            intro hdots
            rw [if_pos hdots] at h
            cases h
          rw [if_neg hdots] at h
          obtain ⟨rfl, rfl⟩ := LastStep.name.inj (Except.ok.inj h)
          rw [not_or] at hdots
          refine ⟨rfl, hdots.1, hdots.2, hnode, before.reverse, ?_, hwalk⟩
          rw [← List.reverse_cons, ← hpieces, List.reverse_reverse]
  · cases h

/-- **What writing a file does**, if it succeeds: the file stands in a directory, where
no directory was. -/
theorem write_cases (h : (fs.write path bytes).1 = .ok ()) :
    ∃ directory name, fs.lastStep path = .ok (.name directory name) ∧
      Path.endsInSlash path = false ∧ isTooLong name = false ∧
      fs.node? (directory ++ [name]) ≠ some .directory ∧
      (fs.write path bytes).2 = fs.put (directory ++ [name]) (.file bytes) := by
  unfold write at h ⊢
  rcases hlast : fs.lastStep path with e | ⟨directory, name⟩ | _ <;> simp only [hlast] at h ⊢
  · cases h
  · split_ifs at h with hslash hlong
    have hnode : fs.node? (directory ++ [name]) ≠ some .directory := by
      intro hnode
      rw [hnode] at h
      cases h
    refine ⟨directory, name, rfl, by simpa using hslash, by simpa using hlong, hnode, ?_⟩
    rw [if_neg hslash, if_neg hlong]
    split
    · rename_i hdirectory
      exact absurd hdirectory hnode
    · rfl
  · cases h

/-- **A file that was written is read.** -/
theorem read_write (h : (fs.write path bytes).1 = .ok ()) :
    (fs.write path bytes).2.read path = .ok bytes := by
  obtain ⟨directory, name, hlast, hslash, hlong, hnode, hwrite⟩ := write_cases h
  obtain ⟨hfault, hdot, hdots, hdirectory, before, hpieces, hwalk⟩ := lastStep_eq_name hlast
  have hne : directory ++ [name] ≠ [] := by simp
  have hpasses := passes_put_file hne hnode bytes
  have hthere : (fs.put (directory ++ [name]) (.file bytes)).node? (directory ++ [name]) =
      some (.file bytes) := by
    rw [node?_put hne, if_pos rfl]
  rw [hwrite]
  refine read_eq_ok_iff.mpr ⟨hfault, hslash, directory ++ [name], ?_, hthere⟩
  rw [origin_of_passes hpasses, hpieces, walk_append, walk_of_passes hpasses hwalk]
  simp [walk, stepFrom, hpasses.directory directory hdirectory, hdot, hdots, hlong, hthere]

/-! ### Making directories -/

theorem extends_makeDirectory (h : (fs.makeDirectory path).1 = .ok ()) :
    Extends fs (fs.makeDirectory path).2 := by
  unfold makeDirectory at h ⊢
  rcases hlast : fs.lastStep path with e | ⟨directory, name⟩ | _ <;> simp only [hlast] at h ⊢
  · cases h
  · split_ifs at h ⊢ with hlong hthere
    exact extends_put (by simpa using hthere) .directory
  · cases h

/-- **Making directories only adds some**, also if it fails in the end. -/
theorem extends_makeFirst : ∀ (paths : List String) (fs : FileSystem),
    Extends fs (fs.makeFirst paths).2
  | [], fs => extends_refl fs
  | path :: above, fs => by
    have hone : ∀ start made : FileSystem, start.makeDirectory path = (.ok (), made) →
        Extends start made := fun start made h => by
      have hmade := extends_makeDirectory (congrArg Prod.fst h)
      rwa [h] at hmade
    have habove := extends_makeFirst above fs
    rw [makeFirst]
    by_cases hempty : path.isEmpty = true
    · rw [if_pos hempty]
      exact extends_refl fs
    · rw [if_neg hempty]
      rcases hfirst : fs.makeDirectory path with ⟨e | _, made⟩
      · dsimp only
        by_cases hmissing : e.kind ≠ .notFound
        · rw [if_pos hmissing]
          exact extends_refl fs
        · rw [if_neg hmissing]
          rcases hparents : fs.makeFirst above with ⟨e | _, parents⟩ <;> rw [hparents] at habove
          · exact habove
          · rcases hagain : parents.makeDirectory path with ⟨e | _, made⟩
            · simp only [hagain]
              exact habove
            · simp only [hagain]
              exact habove.trans (hone _ _ hagain)
      · exact hone _ _ hfirst

theorem extends_makeDirectories (fs : FileSystem) (path : String) :
    Extends fs (fs.makeDirectories path).2 :=
  extends_makeFirst (Path.ancestors path) fs

end FileSystem
end ScreenBridge
