/-!
# Names in infix text

Parameters, functions and commands have numbers, not names.  A naming gives
each of them the name to be shown; the default names show the numbers.
-/

namespace Rpn

/-- The names to be shown. -/
structure Naming where
  param : UInt8 -> String := fun slot => s!"p{slot}"
  function : Int -> String := fun id => s!"f{id}"
  command : UInt8 -> Int32 -> String := fun bank id => s!"c{bank}_{id}"

namespace Naming

/-- Every name shows its number. -/
def default : Naming := {}

end Naming
end Rpn
