/-!
# Paths

A path is a list of names to follow, from the root or from the working
directory.  Doubled slashes count once.  A slash at the end asks for a
directory.  Single and double dots are names like any other here; they mean
something only to whoever follows the path.
-/

namespace Rpn

/-- A path as it is written. -/
structure Path where
  text : String

namespace Path

/-- The names to follow, first to last. -/
def names (path : Path) : List String :=
  (path.text.splitOn "/").filter fun name => name != ""

/-- Whether the path starts at the root. -/
def isAbsolute (path : Path) : Bool :=
  path.text.toList.head? == some '/'

/-- Whether the path asks for a directory by its last character. -/
def asksDirectory (path : Path) : Bool :=
  path.text.toList.getLast? == some '/'

/-- The greatest number of bytes in a path. -/
def maxSize : Nat := 4095

/-- The greatest number of bytes in a name. -/
def maxNameSize : Nat := 255

end Path
end Rpn
