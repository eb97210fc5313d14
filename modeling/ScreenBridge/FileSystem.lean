/-
# A file system

Directories and files, without links, as a program sees them from its working
directory. A path leads from there, or from the root, through directories to its
last name; a single dot stays, and two dots go up.

Key definitions: `Node`, `FileSystem`, `FileSystem.find?`, `FileSystem.read`,
`FileSystem.write`, `FileSystem.makeDirectories`, `FileSystem.moveFile`.
-/
import ScreenBridge.Fault
import ScreenBridge.FileSystem.Path

namespace ScreenBridge

/-- What stands at a place of the file system. -/
inductive Node
  | file (bytes : Array UInt8)
  | directory
  deriving DecidableEq, Repr

/-- The names that lead from the root to a place. -/
abbrev Place := List (List Char)

/-- The nodes by place, and the place of the working directory. The root is a
directory without being listed. -/
structure FileSystem where
  nodes : List (Place × Node)
  workingDirectory : Place
  deriving DecidableEq, Repr

namespace FileSystem

/-- The working directory of a fresh file system, alone below the root. -/
def homePlace : Place := [['w', 'o', 'r', 'k']]

/-- A file system that holds nothing but the working directory. -/
def fresh : FileSystem := ⟨[(homePlace, .directory)], homePlace⟩

variable (fs : FileSystem)

/-- What stands at a place. -/
def node? (place : Place) : Option Node :=
  if place = [] then some .directory else fs.nodes.lookup place

/-- Puts a node at a place, over what stands there. -/
def put (place : Place) (node : Node) : FileSystem :=
  { fs with nodes := (place, node) :: fs.nodes.filter (·.1 ≠ place) }

/-- Takes the node at a place away. -/
def erase (place : Place) : FileSystem :=
  { fs with nodes := fs.nodes.filter (·.1 ≠ place) }

/-- The longest name, in bytes. -/
def maxName : Nat := 255

/-- The longest path, in bytes. -/
def maxPath : Nat := 4095

/-- Is a name longer than a name may be? -/
def isTooLong (name : List Char) : Bool :=
  maxName < (String.ofList name).utf8ByteSize

/-- Goes one piece further from a place. -/
def stepFrom (place : Place) (piece : List Char) : Except Fault Place :=
  match fs.node? place with
  | some .directory =>
    if piece = ['.'] then .ok place
    else if piece = ['.', '.'] then .ok place.dropLast
    else if isTooLong piece then .error .nameTooLong
    else if (fs.node? (place ++ [piece])).isSome then .ok (place ++ [piece])
    else .error .notFound
  | some (.file _) => .error .notADirectory
  | none => .error .notFound

/-- Goes through pieces one after another. -/
def walk (place : Place) : List (List Char) → Except Fault Place
  | [] => .ok place
  | piece :: pieces =>
    match fs.stepFrom place piece with
    | .ok place => walk place pieces
    | .error e => .error e

/-- Where the pieces of a path begin. -/
def origin (path : String) : Place :=
  if Path.isAbsolute path then [] else fs.workingDirectory

/-- The fault of a text that can be no path. -/
def pathFault? (path : String) : Option Fault :=
  if path.toList.any (·.toNat = 0) then
    some (.custom .invalidInput "file name contained an unexpected NUL byte")
  else if path.isEmpty then some .notFound
  else if maxPath < path.utf8ByteSize then some .nameTooLong
  else none

/-- The place of something that is there. -/
def locate (path : String) : Except Fault Place :=
  match pathFault? path with
  | some e => .error e
  | none =>
    match fs.walk (fs.origin path) (Path.pieces path) with
    | .error e => .error e
    | .ok place =>
      match fs.node? place with
      | some (.file _) => if Path.endsInSlash path then .error .notADirectory else .ok place
      | _ => .ok place

/-- What a path leads to. -/
def find? (path : String) : Option Node :=
  match fs.locate path with
  | .ok place => fs.node? place
  | .error _ => none

/-- Does a path lead to a directory? -/
def isDirectory (path : String) : Bool := fs.find? path = some .directory

/-- The last step of a path: a name in a directory, or a step that is no name
(the root, a dot or two dots). -/
inductive LastStep
  | name (directory : Place) (name : List Char)
  | noName
  deriving DecidableEq, Repr

/-- Goes to the directory before the last step of a path. -/
def lastStep (path : String) : Except Fault LastStep :=
  match pathFault? path with
  | some e => .error e
  | none =>
    match (Path.pieces path).reverse with
    | [] => .ok .noName
    | last :: before =>
      match fs.walk (fs.origin path) before.reverse with
      | .error e => .error e
      | .ok directory =>
        match fs.node? directory with
        | some .directory =>
          if last = ['.'] ∨ last = ['.', '.'] then .ok .noName
          else .ok (.name directory last)
        | _ => .error .notADirectory

/-- The bytes of a file. -/
def read (path : String) : Except Fault (Array UInt8) :=
  match fs.locate path with
  | .error e => .error e
  | .ok place =>
    match fs.node? place with
    | some (.file bytes) => .ok bytes
    | _ => .error .isADirectory

/-- Writes a file, a new one or over an old one. -/
def write (path : String) (bytes : Array UInt8) : Except Fault Unit × FileSystem :=
  match fs.lastStep path with
  | .error e => (.error e, fs)
  | .ok .noName => (.error .isADirectory, fs)
  | .ok (.name directory name) =>
    if Path.endsInSlash path then (.error .isADirectory, fs)
    else if isTooLong name then (.error .nameTooLong, fs)
    else
      let place := directory ++ [name]
      match fs.node? place with
      | some .directory => (.error .isADirectory, fs)
      | _ => (.ok (), fs.put place (.file bytes))

/-- Makes a directory in one that is there. -/
def makeDirectory (path : String) : Except Fault Unit × FileSystem :=
  match fs.lastStep path with
  | .error e => (.error e, fs)
  | .ok .noName => (.error .fileExists, fs)
  | .ok (.name directory name) =>
    if isTooLong name then (.error .nameTooLong, fs)
    else
      let place := directory ++ [name]
      if (fs.node? place).isSome then (.error .fileExists, fs)
      else (.ok (), fs.put place .directory)

/-- Makes the first directory of a list. If that fails for want of the directory
above it, makes those behind it in the list first. A directory that is there is
no failure, and the empty path is the working directory. -/
def makeFirst (fs : FileSystem) : List String → Except Fault Unit × FileSystem
  | [] => (.error (.custom .uncategorized "failed to create whole tree"), fs)
  | path :: above =>
    if path.isEmpty then (.ok (), fs)
    else
      match fs.makeDirectory path with
      | (.ok (), fs) => (.ok (), fs)
      | (.error e, _) =>
        if e.kind ≠ .notFound then (if fs.isDirectory path then .ok () else .error e, fs)
        else
          match makeFirst fs above with
          | (.error e, fs) => (.error e, fs)
          | (.ok (), fs) =>
            match fs.makeDirectory path with
            | (.ok (), fs) => (.ok (), fs)
            | (.error e, _) => (if fs.isDirectory path then .ok () else .error e, fs)

/-- Makes a directory and those above it that are missing. -/
def makeDirectories (path : String) : Except Fault Unit × FileSystem :=
  fs.makeFirst (Path.ancestors path)

/-- Moves a file to a path, over a file that stands there. A target that is no
name cannot be replaced; one with a slash at its end is no file. -/
def moveFile (source target : String) : Except Fault Unit × FileSystem :=
  match fs.lastStep source with
  | .error e => (.error e, fs)
  | .ok from? =>
    match fs.lastStep target with
    | .error e => (.error e, fs)
    | .ok to? =>
      match from?, to? with
      | .name sourceDirectory sourceName, .name targetDirectory targetName =>
        let sourcePlace := sourceDirectory ++ [sourceName]
        let targetPlace := targetDirectory ++ [targetName]
        match fs.node? sourcePlace with
        | none => (.error .notFound, fs)
        | some .directory => (.error .isADirectory, fs)
        | some (.file bytes) =>
          if Path.endsInSlash source ∨ Path.endsInSlash target then (.error .notADirectory, fs)
          else if isTooLong targetName then (.error .nameTooLong, fs)
          else
            match fs.node? targetPlace with
            | some .directory => (.error .isADirectory, fs)
            | _ => (.ok (), (fs.erase sourcePlace).put targetPlace (.file bytes))
      | _, _ => (.error .busy, fs)

end FileSystem
end ScreenBridge
