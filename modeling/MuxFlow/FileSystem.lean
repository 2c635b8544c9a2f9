import MuxFlow.Text.Pieces
import MuxFlow.Text.Source

/-!
# Files

A file system is a list of files, each at a place: the names of the folders on
the way to it and its own name. A folder exists as long as something lies in it,
or because it is listed. A name is resolved part by part, from the working folder
or from the root, and only folders can be gone through.
Reading and writing then work on places, so two names of one file are one file.
-/

namespace MuxFlow

open Text (Source)

/-- Why a name does not lead to a file. -/
inductive FileTrouble where
  | missing
  | notAFolder
  | isAFolder
  deriving DecidableEq, Repr

/-- The wording of a trouble. -/
def FileTrouble.message : FileTrouble → String
  | missing => "no such file or directory"
  | notAFolder => "not a directory"
  | isAFolder => "is a directory"

/-- The names on the way to a file, and its own. -/
abbrev Place := List String

/-- The files that there are. -/
structure FileSystem where
  files : List (Place × Source) := []
  /-- Folders that exist even if nothing lies in them. -/
  folders : List Place := []
  deriving DecidableEq, Repr

namespace FileSystem

/-! ## Places -/

/-- What lies at a place. -/
def get? (fs : FileSystem) (p : Place) : Option Source :=
  (fs.files.find? fun f => f.1 = p).map Prod.snd

/-- Puts a file at a place, in place of one that may lie there. -/
def put (fs : FileSystem) (p : Place) (content : Source) : FileSystem :=
  { fs with files := (p, content) :: fs.files.filter fun f => f.1 ≠ p }

@[simp] theorem get?_put_self (fs : FileSystem) (p : Place) (content : Source) :
    (fs.put p content).get? p = some content := by
  simp [get?, put]

/-- Nothing is left of a file in whose place another one is put. -/
theorem put_put (fs : FileSystem) (p : Place) (content content' : Source) :
    (fs.put p content).put p content' = fs.put p content' := by
  simp [put]

theorem get?_put_of_ne (fs : FileSystem) {p q : Place} (content : Source) (h : q ≠ p) :
    (fs.put p content).get? q = fs.get? q := by
  have hq : ¬p = q := fun e => h e.symm
  simp only [get?, put, List.find?_cons, hq, decide_false, List.find?_filter]
  congr 2
  funext f
  by_cases hf : f.1 = q
  · simp [hf, h]
  · simp [hf]

/-- The place of the root. -/
def root : Place := ["/"]

/-- Whether a place is a folder: the working folder or one above it, the root, or
one on the way to something. -/
def isFolder (fs : FileSystem) (p : Place) : Bool :=
  p.all (· = "..") || p = root || fs.folders.any (fun q => p.isPrefixOf q) ||
    fs.files.any fun f => p.length < f.1.length && p.isPrefixOf f.1

/-! ## Names -/

/-- The parts of a name. -/
def parts (name : String) : List String := (Text.cutAt '/' name.toList).map String.ofList

/-- The place where a name is looked for first. -/
def origin (name : String) : Place := if name.toList.head? = some '/' then root else []

/-- The folder above a place. -/
def above (p : Place) : Place :=
  if p = root then root else if p.all (· = "..") then p ++ [".."] else p.dropLast

/-- The place that a part of a name leads to. -/
def move (here : Place) (part : String) : Place :=
  if part = "" ∨ part = "." then here else if part = ".." then above here else here ++ [part]

/-- The place that a name stands for, whether or not anything is there. -/
def place (name : String) : Place := (parts name).foldl move (origin name)

/-- Goes through the parts of a name, from a place; there has to be a folder for
every part. -/
def follow (fs : FileSystem) (here : Place) : List String → Except FileTrouble Place
  | [] => .ok here
  | part :: rest =>
    if (fs.get? here).isSome then .error .notAFolder
    else if fs.isFolder here then fs.follow (move here part) rest
    else .error .missing

/-- The place that a name leads to; the empty name leads nowhere. -/
def resolve (fs : FileSystem) (name : String) : Except FileTrouble Place :=
  if name = "" then .error .missing else fs.follow (origin name) (parts name)

/-! ## Reading and writing -/

/-- The content of the file with a name. -/
def read (fs : FileSystem) (name : String) : Except FileTrouble Source := do
  let p ← fs.resolve name
  match fs.get? p with
  | some content => .ok content
  | none => if fs.isFolder p then .error .isAFolder else .error .missing

/-- The place at which writing to a name puts a file. A name that ends with a
slash asks for a folder. -/
def target (fs : FileSystem) (name : String) : Except FileTrouble Place := do
  if name.toList.getLast? = some '/' then
    let outer := ((parts name).reverse.dropWhile (· = "")).tail.reverse
    let _ ← fs.follow (origin name) (outer ++ ["."])
    .error .isAFolder
  else
    let p ← fs.resolve name
    if (fs.get? p).isNone ∧ fs.isFolder p then .error .isAFolder else .ok p

/-- A file system with the given files, later ones over earlier ones. -/
def ofFiles (files : List (String × Source)) : FileSystem :=
  files.foldl (fun fs f => fs.put (place f.1) f.2) {}

/-- The folders that a name leads through. -/
def waypoints (name : String) : List Place :=
  let ps := parts name
  (List.range ps.length).map fun n => (ps.take n).foldl move (origin name)

end FileSystem

end MuxFlow
