import Rpn.CommandLine.Path

/-!
# Files

What the command line needs of files: the content behind a path, or the reason
why there is none.  A file tree is a finite set of files, each at the end of
its way from the root.  The directories are those on the way to a file or to
the working directory.

A path is followed name by name, and the first name that leads nowhere
decides the error.  So a missing directory is reported before anything that
comes after it, and a name behind a file never counts, not even a dot.
-/

namespace Rpn

/-- Why a path cannot be opened. -/
structure FileError where
  reason : String
  code : Nat
  deriving DecidableEq

namespace FileError

/-- Nothing has the path. -/
def notFound : FileError := ⟨"No such file or directory", 2⟩

/-- The path leads through a file. -/
def notDirectory : FileError := ⟨"Not a directory", 20⟩

/-- A file was asked for and the path names a directory. -/
def isDirectory : FileError := ⟨"Is a directory", 21⟩

/-- The path or a name in it has too many bytes. -/
def nameTooLong : FileError := ⟨"File name too long", 36⟩

/-- The error of a number, if it is one of these. -/
def ofCode? (code : Nat) : Option FileError :=
  [notFound, notDirectory, isDirectory, nameTooLong].find? fun error => error.code == code

/-- The error in words. -/
def message (error : FileError) : String :=
  error.reason ++ s!" (os error {error.code})"

end FileError

/-- The content of a file, by its path. -/
abbrev FileReader := String -> Except FileError (List UInt8)

/-- A place in a tree: the names on the way from the root.  Where no name is
given, the directory has one that no path is able to give. -/
abbrev Place := List (Option String)

/-- The files of a tree, each with its place. -/
structure FileTree where
  files : List (Place × List UInt8)

namespace FileTree

/-- The working directory.  Nothing is known of the directories above it but
that they are there. -/
def home : Place := [none, none]

/-- The place of the device that holds nothing. -/
def nullDevice : Place := [some "dev", some "null"]

/-- The place that names lead to from the working directory. -/
def atHome (path : String) : Place :=
  home ++ (Path.names ⟨path⟩).map some

/-- A tree with files of these names in the working directory. -/
def ofFiles (files : List (String × List UInt8)) : FileTree :=
  ⟨(nullDevice, []) :: files.map fun file => (atHome file.1, file.2)⟩

/-- The content of the file at a place. -/
def content? (tree : FileTree) (place : Place) : Option (List UInt8) :=
  (tree.files.find? fun file => file.1 == place).map fun file => file.2

/-- Whether there is a directory at a place. -/
def isDirectory (tree : FileTree) (place : Place) : Bool :=
  place.isPrefixOf home ||
    tree.files.any fun file => place.isPrefixOf file.1 && file.1 != place

/-- Follow one name. -/
def follow (tree : FileTree) (place : Place) (name : String) : Except FileError Place :=
  if !tree.isDirectory place then .error .notDirectory
  else if name = "." then .ok place
  else if name = ".." then .ok place.dropLast
  else if Path.maxNameSize < name.utf8ByteSize then .error .nameTooLong
  else
    let next := place ++ [some name]
    if tree.isDirectory next || (tree.content? next).isSome then .ok next else .error .notFound

/-- Where a path starts, if it can be followed at all. -/
def start (path : Path) : Except FileError Place :=
  if Path.maxSize < path.text.utf8ByteSize then .error .nameTooLong
  else if path.text.isEmpty then .error .notFound
  else .ok (if path.isAbsolute then [] else home)

/-- The place behind a path. -/
def locate (tree : FileTree) (path : Path) : Except FileError Place := do
  let place ← start path
  path.names.foldlM tree.follow place

/-- The content behind a path. -/
def read (tree : FileTree) : FileReader := fun text => do
  let path : Path := ⟨text⟩
  let place ← tree.locate path
  match tree.content? place with
  | none => .error .isDirectory
  | some bytes => if path.asksDirectory then .error .notDirectory else .ok bytes

/-- Make an empty file of a name in a directory, in the place of one that is
there. -/
def createIn (tree : FileTree) (parent : Place) (name : String) : Except FileError FileTree :=
  let place := parent ++ [some name]
  if Path.maxNameSize < name.utf8ByteSize then .error .nameTooLong
  else if tree.isDirectory place then .error .isDirectory
  else .ok ⟨(place, []) :: tree.files.filter fun file => file.1 != place⟩

/-- Make an empty file.  The directory that is to hold it must exist, and the
path must not ask for a directory. -/
def create (tree : FileTree) (text : String) : Except FileError FileTree := do
  let path : Path := ⟨text⟩
  let place ← start path
  match path.names.getLast? with
  | none => .error .isDirectory
  | some name =>
    let parent ← path.names.dropLast.foldlM tree.follow place
    if !tree.isDirectory parent then .error .notDirectory
    else if path.asksDirectory || name = "." || name = ".." then .error .isDirectory
    else tree.createIn parent name

/-- Whether a path leads to the file of a name in the working directory. -/
def leadsTo (tree : FileTree) (path name : String) : Bool :=
  match tree.locate ⟨path⟩ with
  | .ok place => place == atHome name && (tree.content? place).isSome
  | .error _ => false

/-- Whether there is a file of a name in the working directory. -/
def contains (tree : FileTree) (name : String) : Bool :=
  (tree.content? (atHome name)).isSome

end FileTree
end Rpn
