import Keepsake.NameMap
/-!
# Folders and files

A `Disk` holds folders, each a map from file names to contents. Folders are kept by their path, so
a disk has no links and a folder exists whether or not something is in it. Paths are texts with
slashes between their parts; one that does not start with a slash goes out from the present
folder. `locate` finds what a path leads to, and each operation on files says what it answers for
each kind of place.

A name without slashes that is neither `.` nor `..` is plain: it stands for an entry of the folder
itself (`locateIn_plain`).
-/

namespace Keepsake

/-- Contents of files by name. -/
abbrev Folder := NameMap ByteArray

/-- Why an operation on files was refused. -/
inductive DiskFault where
  | notFound
  | notADirectory
  | isADirectory
  | nameTooLong
  /-- a path with a zero character -/
  | zeroCharacter
  /-- the source of a copy is no file -/
  | notAFile
deriving DecidableEq

namespace DiskFault

/-- The wording of a fault. -/
def message : DiskFault → String
  | notFound => "No such file or directory (os error 2)"
  | notADirectory => "Not a directory (os error 20)"
  | isADirectory => "Is a directory (os error 21)"
  | nameTooLong => "File name too long (os error 36)"
  | zeroCharacter => "file name contained an unexpected NUL byte"
  | notAFile => "the source path is neither a regular file nor a symlink to a regular file"

end DiskFault

/-- The parts of a path to a folder, from the root on. -/
abbrev Path := List String

namespace Path

/-- The text of a path. -/
def text (p : Path) : String := String.join (p.map ("/" ++ ·))

/-- The parts of a text between slashes. -/
def parts (s : String) : List String :=
  (s.toList.splitOn '/').map String.ofList

/-- The longest name of a file, in bytes. -/
def nameLimit : Nat := 255

/-- A path behind a folder's path; one that starts with a slash stands for itself. -/
def join (base name : String) : String :=
  if name.startsWith "/" then name
  else if base.isEmpty ∨ base.endsWith "/" then base ++ name
  else base ++ "/" ++ name

/-- The path of a folder that a text leads to from the folder `here`. -/
def resolve (here : Path) (s : String) : Path :=
  (parts s).foldl
    (fun p part => if part = "" ∨ part = "." then p else if part = ".." then p.dropLast else p ++ [part])
    (if s.startsWith "/" then [] else here)

end Path

/-- Folders by the text of their path, and the present folder. -/
structure Disk where
  folders : NameMap Folder
  here : Path

/-- What a path leads to. -/
inductive Place where
  | folder (path : Path)
  /-- an entry of a folder: a file, or the place of one -/
  | entry (path : Path) (name : String)
deriving DecidableEq

namespace Disk

/-- The folder at a path. -/
def folder? (d : Disk) (path : Path) : Option Folder := d.folders.get? path.text

/-- The file with a name in the folder at a path. -/
def file? (d : Disk) (path : Path) (name : String) : Option ByteArray :=
  (d.folder? path).bind (·.get? name)

/-- Puts another folder at a path. -/
def setFolder (d : Disk) (path : Path) (f : Folder) : Disk :=
  { d with folders := d.folders.insert path.text f }

/-- Puts a file into the folder at a path. -/
def setFile (d : Disk) (path : Path) (name : String) (data : ByteArray) : Disk :=
  match d.folder? path with
  | some f => d.setFolder path (f.insert name data)
  | none => d

/-- Takes a file out of the folder at a path. -/
def dropFile (d : Disk) (path : Path) (name : String) : Disk :=
  match d.folder? path with
  | some f => d.setFolder path (f.erase name)
  | none => d

/-- A disk with nothing but its root folder. -/
def bare : Disk := ⟨NameMap.empty.insert "" NameMap.empty, []⟩

/-! ## Paths -/

/-- Goes from a folder along parts of a path. -/
def walk (d : Disk) (dir : Path) : List String → Except DiskFault Place
  | [] => .ok (.folder dir)
  | part :: rest =>
    if part = "" ∨ part = "." then walk d dir rest
    else if part = ".." then walk d dir.dropLast rest
    else if Path.nameLimit < part.utf8ByteSize then .error .nameTooLong
    else if (d.folder? (dir ++ [part])).isSome then walk d (dir ++ [part]) rest
    else if rest.isEmpty then .ok (.entry dir part)
    else if (d.file? dir part).isSome then .error .notADirectory
    else .error .notFound

/-- What a path leads to. -/
def locate (d : Disk) (path : String) : Except DiskFault Place :=
  if path.toList.contains (Char.ofNat 0) then .error .zeroCharacter
  else if path.isEmpty then .error .notFound
  else walk d (if path.startsWith "/" then [] else d.here) (Path.parts path)

/-- Whether a name is plain: an entry of a folder, not a path. -/
def isPlainName (name : String) : Bool :=
  !(name.isEmpty || name = "." || name = ".." || name.toList.any fun c => c = '/' || c = Char.ofNat 0)

/-- What a name leads to from the folder `base`. -/
def locateIn (d : Disk) (base name : String) : Except DiskFault Place :=
  if isPlainName name ∧ !base.isEmpty then
    match d.locate base with
    | .error e => .error e
    | .ok (.folder dir) => d.walk dir [name]
    | .ok (.entry dir file) => if (d.file? dir file).isSome then .error .notADirectory else .error .notFound
  else d.locate (Path.join base name)

/-- A plain name leads to an entry of the folder, unless it is too long or the name of a folder. -/
theorem locateIn_plain {d : Disk} {base name : String} {dir : Path} (hn : isPlainName name = true)
    (hb : base.isEmpty = false) (h : d.locate base = .ok (.folder dir))
    (hl : name.utf8ByteSize ≤ Path.nameLimit) (hf : d.folder? (dir ++ [name]) = none) :
    d.locateIn base name = .ok (.entry dir name) := by
  have hne : name ≠ "" := by rintro rfl; simp [isPlainName] at hn
  have hdot : name ≠ "." := by rintro rfl; simp [isPlainName] at hn
  have hdots : name ≠ ".." := by rintro rfl; simp [isPlainName] at hn
  simp [locateIn, hn, hb, h, walk, hne, hdot, hdots, Nat.not_lt.2 hl, hf]

/-! ## Operations -/

/-- Whether there is a folder. -/
def isFolder (d : Disk) (target : Except DiskFault Place) : Bool :=
  match target with
  | .ok (.folder dir) => (d.folder? dir).isSome
  | _ => false

/-- Whether there is a file. -/
def isFile (d : Disk) (target : Except DiskFault Place) : Bool :=
  match target with
  | .ok (.entry dir name) => (d.file? dir name).isSome
  | _ => false

/-- Whether there is a file or a folder. -/
def isTaken (d : Disk) (target : Except DiskFault Place) : Bool :=
  match target with
  | .error _ => false
  | .ok (.folder _) => true
  | .ok (.entry dir name) => (d.file? dir name).isSome || (d.folder? (dir ++ [name])).isSome

/-- Reads a file. -/
def read (d : Disk) (target : Except DiskFault Place) : Except DiskFault ByteArray :=
  match target with
  | .error e => .error e
  | .ok (.folder _) => .error .isADirectory
  | .ok (.entry dir name) => match d.file? dir name with
    | some data => .ok data
    | none => .error .notFound

/-- Writes a file, over another if there is one. -/
def write (d : Disk) (target : Except DiskFault Place) (data : ByteArray) : Except DiskFault Disk :=
  match target with
  | .error e => .error e
  | .ok (.folder _) => .error .isADirectory
  | .ok (.entry dir name) =>
    if (d.folder? dir).isSome then .ok (d.setFile dir name data) else .error .notFound

/-- Copies a file over another; a file copied over itself is emptied. -/
def copy (d : Disk) (source target : Except DiskFault Place) : Except DiskFault Disk :=
  match source with
  | .error e => .error e
  | .ok (.folder _) => .error .notAFile
  | .ok (.entry dir name) => match d.file? dir name with
    | none => .error .notFound
    | some data => match target with
      | .ok (.entry dest name') =>
        d.write target (if dir = dest ∧ name = name' then ByteArray.empty else data)
      | _ => d.write target data

/-- Moves a file over another. -/
def rename (d : Disk) (source target : Except DiskFault Place) : Except DiskFault Disk :=
  match source with
  | .error e => .error e
  | .ok (.folder _) => .error .isADirectory
  | .ok (.entry dir name) => match d.file? dir name with
    | none => .error .notFound
    | some data => match target with
      | .error e => .error e
      | .ok (.folder _) => .error .isADirectory
      | .ok (.entry dest name') =>
        if (d.folder? dest).isSome then .ok ((d.dropFile dir name).setFile dest name' data)
        else .error .notFound

/-- Deletes a file; what is not there is no fault. -/
def delete (d : Disk) (target : Except DiskFault Place) : Except DiskFault Disk :=
  match target with
  | .error _ => .ok d
  | .ok (.folder dir) => if (d.folder? dir).isSome then .error .isADirectory else .ok d
  | .ok (.entry dir name) => .ok (d.dropFile dir name)

/-- The names of the files in a folder, ascending. -/
def list (d : Disk) (target : Except DiskFault Place) : Except DiskFault (List String) :=
  match target with
  | .error e => .error e
  | .ok (.folder dir) => match d.folder? dir with
    | some f => .ok f.keys
    | none => .error .notFound
  | .ok (.entry dir name) =>
    if (d.file? dir name).isSome then .error .notADirectory else .error .notFound

/-- The number of all files. -/
def fileCount (d : Disk) : Nat := d.folders.values.foldl (fun n f => n + f.size) 0

/-- The number of all files and folders. -/
def entryCount (d : Disk) : Nat := d.fileCount + d.folders.size

/-! ## Folders -/

/-- Whether a path's text is that of a folder or of something inside it. -/
def isWithin (folder path : String) : Bool := path = folder || path.startsWith (folder ++ "/")

/-- Makes the folder at a path and those around it. -/
def makeFolder (d : Disk) (path : Path) : Disk :=
  ((List.range (path.length + 1)).map path.take).foldl
    (fun d p => if (d.folder? p).isSome then d else d.setFolder p NameMap.empty) d

/-- Takes a folder away with all that is in it. -/
def dropFolder (d : Disk) (path : Path) : Disk :=
  { d with folders := d.folders.filter fun p _ => !isWithin path.text p }

/-- The names of the folders directly in a folder. -/
def subfolders (d : Disk) (path : Path) : List String :=
  d.folders.keys.filterMap fun p =>
    match (Path.parts p).drop 1 with
    | [] => none
    | parts => if parts.dropLast = path then parts.getLast? else none

end Disk

end Keepsake
