import FlowGraph.Settings.Path
import FlowGraph.Table

/-!
# Folders

A small model of the file system below a working directory, enough to say what becomes of a file and
why it may not be read or written. The working directory is its root, so that a step upwards from it
stays there.

* `Place`, `Entry`, `Folder` — where something is, what it is, and all that there is.
* `FileError`, `FileError.message` — why the file system refuses.
* `Folder.locate` — the place that a path leads to, step by step.
* `Folder.makeDirectories`, `Folder.write`, `Folder.append`, `Folder.read` — what is done to
  folders.
-/

namespace FlowGraph

/-- The names that lead from the working directory to a file or directory. -/
abbrev Place := List String

/-! ### Errors -/

/-- Why the file system refuses. -/
inductive FileError
  | missing
  | occupied
  | notDirectory
  | isDirectory
  | nameTooLong
  /-- The path has a character that ends names. -/
  | nameBroken
  /-- The file's bytes are no text. -/
  | notText
  deriving DecidableEq

/-- The wording of the error. -/
def FileError.message : FileError → String
  | missing => "No such file or directory (os error 2)"
  | occupied => "File exists (os error 17)"
  | notDirectory => "Not a directory (os error 20)"
  | isDirectory => "Is a directory (os error 21)"
  | nameTooLong => "File name too long (os error 36)"
  | nameBroken => "file name contained an unexpected NUL byte"
  | notText => "stream did not contain valid UTF-8"

/-! ### Folders -/

/-- What is at a place. -/
inductive Entry
  | directory
  | file (bytes : ByteArray)

/-- What is below the working directory. -/
structure Folder where
  entries : Table Place Entry

namespace Folder

/-- The folder with nothing in it. -/
def empty : Folder := ⟨.empty⟩

/-- What is at a place; the working directory itself is a directory. -/
def entry? (f : Folder) (place : Place) : Option Entry :=
  if place = [] then some .directory else f.entries.find? place

/-- Put something at a place. -/
def set (f : Folder) (place : Place) (e : Entry) : Folder := ⟨f.entries.insert place e⟩

/-! ### Finding places -/

/-- The number of bytes that a name may have. -/
def maxNameBytes : Nat := 255

/-- The number of bytes that a path may have. -/
def maxPathBytes : Nat := 4095

/-- Be sure that there is a directory at a place. -/
def enter (f : Folder) (here : Place) : Except FileError Unit :=
  match f.entry? here with
  | none => .error .missing
  | some (.file _) => .error .notDirectory
  | some .directory => .ok ()

/-- One step from a place, which must be a directory, to a place where there may be nothing. -/
def step (f : Folder) (here : Place) (name : String) : Except FileError Place := do
  f.enter here
  if PathText.isIdle name then return here
  else if name = ".." then return here.dropLast
  else if maxNameBytes < name.utf8ByteSize then throw .nameTooLong
  else return here ++ [name]

/-- Several steps. -/
def walk (f : Folder) (names : List String) : Except FileError Place := names.foldlM f.step []

/-- Refuse paths that no file system takes. -/
def checkPath (p : PathText) : Except FileError Unit :=
  if p.text.any (· = '\x00') then .error .nameBroken
  else if p.text.isEmpty then .error .missing
  else if maxPathBytes < p.text.utf8ByteSize then .error .nameTooLong
  else .ok ()

/-- The place that a path leads to. -/
def locate (f : Folder) (p : PathText) : Except FileError Place := do
  checkPath p
  f.walk p.pieces

/-- What is at the place of a path. -/
def lookup? (f : Folder) (p : PathText) : Option Entry :=
  match f.locate p with
  | .ok place => f.entry? place
  | .error _ => none

/-- Whether there is anything at a path. -/
def exists? (f : Folder) (p : PathText) : Bool := (f.lookup? p).isSome

/-- Whether there is a directory at a path. -/
def hasDirectory (f : Folder) (p : PathText) : Bool :=
  match f.lookup? p with
  | some .directory => true
  | _ => false

/-! ### Directories -/

/-- Make the directory of a path whose own directory is there already. A path that ends in a dot or
in a step upwards leads to a directory that is already there. -/
def makeDirectory (f : Folder) (p : PathText) : Except FileError Folder := do
  checkPath p
  let outer ← f.walk p.steps.dropLast
  f.enter outer
  match p.steps.getLast? with
  | none => throw .occupied
  | some name =>
    if name = "." ∨ name = ".." then throw .occupied
    else
      let place ← f.step outer name
      match f.entry? place with
      | some _ => throw .occupied
      | none => return f.set place .directory

/-- Make a directory, unless there is one already. -/
def ensureDirectory (f : Folder) (p : PathText) : Except FileError Folder :=
  match f.makeDirectory p with
  | .ok f => .ok f
  | .error e => if f.hasDirectory p then .ok f else .error e

/-- Make a directory and, where they are missing, up to `levels` directories that it lies in. -/
def makeLevels : Nat → Folder → PathText → Except FileError Folder
  | 0, f, _ => .ok f
  | levels + 1, f, p =>
    if p.text.isEmpty then .ok f
    else
      match f.ensureDirectory p, p.parent? with
      | .error .missing, some outer => do (← makeLevels levels f outer).ensureDirectory p
      | done, _ => done

/-- Make a directory and all directories that it lies in. Each has fewer pieces than the one in
it. -/
def makeDirectories (f : Folder) (p : PathText) : Except FileError Folder :=
  makeLevels (p.pieces.length + 1) f p

/-! ### Files -/

/-- The place of a file that is to be written and need not be there. A path that ends in a slash, a
dot or a step upwards means a directory. -/
def placeToWrite (f : Folder) (p : PathText) : Except FileError Place := do
  checkPath p
  let outer ← f.walk p.steps.dropLast
  f.enter outer
  match p.steps.getLast? with
  | none => throw .isDirectory
  | some name =>
    if p.endsOpen || name = "." || name = ".." then throw .isDirectory
    else
      let place ← f.step outer name
      match f.entry? place with
      | some .directory => throw .isDirectory
      | _ => return place

/-- Write a file, in place of a file that was there. -/
def write (f : Folder) (p : PathText) (bytes : ByteArray) : Except FileError Folder := do
  return f.set (← f.placeToWrite p) (.file bytes)

/-- Write at the end of a file, which is made if it is not there. -/
def append (f : Folder) (p : PathText) (bytes : ByteArray) : Except FileError Folder := do
  let place ← f.placeToWrite p
  match f.entry? place with
  | some (.file before) => return f.set place (.file (before ++ bytes))
  | _ => return f.set place (.file bytes)

/-- The text of a file. -/
def read (f : Folder) (p : PathText) : Except FileError String := do
  match f.entry? (← f.locate p) with
  | none => throw .missing
  | some .directory => throw .isDirectory
  | some (.file bytes) =>
    match String.fromUTF8? bytes with
    | some s => return s
    | none => throw .notText

/-- Put a file at a path, with the directories on the way; what cannot be done is left undone. -/
def put (f : Folder) (p : PathText) (bytes : ByteArray) : Folder :=
  let f :=
    match f.makeDirectories (p.parent?.getD ⟨""⟩) with
    | .ok f => f
    | .error _ => f
  match f.write p bytes with
  | .ok f => f
  | .error _ => f

end Folder

end FlowGraph
