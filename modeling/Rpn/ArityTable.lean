/-!
# Argument counts of commands

The wire format does not say how many arguments a command takes.  A table
answers that for each bank and number, or answers that the command is unknown.
-/

namespace Rpn

/-- The number of arguments of a command, if the command is known. -/
abbrev ArityTable := UInt8 -> Int32 -> Option Nat

namespace ArityTable

/-- No command is known. -/
def empty : ArityTable :=
  fun _ _ => none

/-- The table with one more row, which hides any earlier row of the same
command. -/
def insert (table : ArityTable) (bank : UInt8) (id : Int32) (args : Nat) : ArityTable :=
  fun askedBank askedId =>
    if askedBank = bank ∧ askedId = id then some args else table askedBank askedId

/-- The table of a list of rows, a later row hiding an earlier one. -/
def ofRows (rows : List (UInt8 × Int32 × Nat)) : ArityTable :=
  rows.foldl (fun table row => table.insert row.1 row.2.1 row.2.2) empty

end ArityTable
end Rpn
