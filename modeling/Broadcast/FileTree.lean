/-!
# Files

What is seen of the files and of the environment from where a program runs, and a tree of all files
as they are seen from a working directory. The directories on the way to an entry exist
with it. A path is followed name by name, and every name but the last has to lead to a directory;
a path that climbs out of the working directory finds what can be counted on elsewhere.
-/

namespace Broadcast

/-- What a path can lead to. -/
inductive Entry
  | file (content : ByteArray)
  | directory

/-- What there is to see of a file system: the entry of each path that exists. -/
abbrev FileView := String → Option Entry

/-- The text of a file that can be read. -/
def FileView.text? (files : FileView) (path : String) : Option String :=
  match files path with
  | some (.file content) => String.fromUTF8? content
  | _ => none

/-- The variables of an environment. -/
abbrev Environment := String → Option String

/-- Why a path does not lead to where something can be written. -/
inductive PathFault
  | missing
  | notDirectory
  | isDirectory
  | tooLong
  | full
  | other (text : String)
deriving DecidableEq, Repr

/-- The fault in words. -/
def PathFault.message : PathFault → String
  | missing => "No such file or directory"
  | notDirectory => "Not a directory"
  | isDirectory => "Is a directory"
  | tooLong => "File name too long"
  | full => "No space left on device"
  | other text => text

/-- The entries of a tree by their places, each place given by the names that lead to it from the
root of all files. -/
structure FileTree where
  entries : List (List String × Entry)

namespace FileTree

/-! ## Places -/

/-- The place of the working directory. Its name holds a slash, so that no path can say it: what it
is really called is not known. -/
def home : List String := ["tmp", "/"]

/-- The place of a device on which whatever is written is lost. -/
def nowhere : List String := ["dev", "null"]

/-- The place of a device on which nothing can be written. -/
def brimful : List String := ["dev", "full"]

/-- The place whose file is printed. -/
def output : List String := ["dev", "stdout"]

/-- The place whose file is printed with the errors. -/
def errors : List String := ["dev", "stderr"]

/-- The directories that are there in any case. -/
def standardDirectories : List (List String) :=
  ["bin", "boot", "dev", "etc", "home", "lib", "media", "mnt", "opt", "proc", "root", "run", "sbin",
   "srv", "sys", "tmp", "usr", "var"].map ([·]) ++
  [["dev", "shm"], ["proc", "self"], ["usr", "bin"], ["usr", "lib"], ["usr", "local"],
   ["usr", "sbin"], ["usr", "share"], ["var", "lib"], ["var", "log"], ["var", "tmp"], home]

/-- What is there in any case. -/
def standardEntries : List (List String × Entry) :=
  [nowhere, brimful, output, errors].map (·, .file .empty) ++
  (["etc", "passwd"], .file "root:x:0:0:root:/root:/bin/sh\n".toUTF8) ::
  standardDirectories.map (·, .directory)

/-- The place that a place stands for, which may be another one. -/
def linked (place : List String) : List String :=
  if place = ["proc", "self", "cwd"] then home
  else if place = ["proc", "self", "root"] then []
  else place

/-- What is at a place. -/
def at? (tree : FileTree) (place : List String) : Option Entry :=
  match tree.entries.find? (·.1 = place) with
  | some (_, entry) => some entry
  | none =>
    if place = [] ∨ tree.entries.any fun e => place.isPrefixOf e.1 then some .directory else none

/-! ## Paths -/

/-- The bytes that a name may have at most. -/
def nameLimit : Nat := 255

/-- The bytes that a path may have at most. -/
def pathLimit : Nat := 4095

/-- The place that names lead to from another place. -/
def follow (tree : FileTree) (place : List String) :
    List String → Except PathFault (List String)
  | [] => .ok place
  | name :: names =>
    match tree.at? place with
    | none => .error .missing
    | some (.file _) => .error .notDirectory
    | some .directory =>
      if name = "" ∨ name = "." then follow tree place names
      else if name = ".." then follow tree place.dropLast names
      else if nameLimit < name.utf8ByteSize then .error .tooLong
      else follow tree (linked (place ++ [name])) names

/-- The place from which a path is followed. -/
def origin (path : String) : List String :=
  if path.startsWith "/" then [] else home

/-- The path has a length that a path may have. -/
def checkLength (path : String) : Except PathFault Unit :=
  if path = "" then .error .missing
  else if pathLimit < path.utf8ByteSize then .error .tooLong
  else .ok ()

/-- The place that a path leads to, whether there is something or not. -/
def resolve (tree : FileTree) (path : String) : Except PathFault (List String) := do
  checkLength path
  tree.follow (origin path) (path.splitOn "/")

/-- What a path leads to. -/
def view (tree : FileTree) : FileView := fun path =>
  match tree.resolve path with
  | .ok place => tree.at? place
  | .error _ => none

/-- The path without the slashes at its end. -/
def stem (path : String) : String :=
  String.ofList (path.toList.reverse.dropWhile (· = '/')).reverse

/-- The place at which a path lets a file be written: its last name, which stands for a file and so
is followed by nothing, in a directory that is there. -/
def target (tree : FileTree) (path : String) : Except PathFault (List String) := do
  checkLength path
  let names := (stem path).splitOn "/"
  let parent ← tree.follow (origin path) names.dropLast
  match tree.at? parent with
  | none => throw .missing
  | some (.file _) => throw .notDirectory
  | some .directory => pure ()
  let name := names.getLast?.getD ""
  if path.endsWith "/" ∨ name = "." ∨ name = ".." then throw .isDirectory
  if nameLimit < name.utf8ByteSize then throw .tooLong
  let place := linked (parent ++ [name])
  if tree.at? place matches some .directory then throw .isDirectory
  return place

/-- The tree after a file was written, in place of one that was there. -/
def write (tree : FileTree) (path content : String) : Except PathFault FileTree := do
  let place ← tree.target path
  if place = brimful then throw .full
  if place = nowhere then return tree
  return ⟨(place, .file content.toUTF8) :: tree.entries.filter (·.1 ≠ place)⟩

/-- The text that was written at a place. -/
def textAt (tree : FileTree) (place : List String) : String :=
  match tree.at? place with
  | some (.file content) => (String.fromUTF8? content).getD ""
  | _ => ""

/-! ## Making a tree -/

/-- The names of the place that a path is to lead to, whatever is there. -/
def names (path : String) : List String :=
  (path.splitOn "/").foldl (fun names name =>
    if name = "" ∨ name = "." then names
    else if name = ".." then names.dropLast
    else names ++ [name]) []

/-- The tree with the given entries in the working directory. -/
def ofEntries (entries : List (String × Entry)) : FileTree :=
  ⟨entries.map (fun (path, entry) => (home ++ names path, entry)) ++ standardEntries⟩

end FileTree

end Broadcast
