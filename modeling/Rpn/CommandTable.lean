import Rpn.ArityTable
import Rpn.Naming

/-!
# Command tables

What is known about commands: for each bank and number an argument count and
perhaps a name to be shown.  A table is made of rows, and the last row of a
command decides both; a last row without a name leaves the command unnamed
even if an earlier one had a name.
-/

namespace Rpn

/-- What one row says about one command. -/
structure CommandRow where
  bank : UInt8
  id : Int32
  name? : Option String
  args : Nat
  deriving DecidableEq

namespace CommandRow

/-- Whether the row is about a command. -/
def isAbout (row : CommandRow) (bank : UInt8) (id : Int32) : Bool :=
  row.bank == bank && row.id == id

end CommandRow

/-- The rows that count, at most one for a command. -/
structure CommandTable where
  rows : List CommandRow := []
  deriving DecidableEq

namespace CommandTable

/-- Nothing is known. -/
def empty : CommandTable := {}

/-- The table with one more row, which replaces an earlier one of the same
command. -/
def insert (table : CommandTable) (row : CommandRow) : CommandTable :=
  ⟨row :: table.rows.filter fun other => !other.isAbout row.bank row.id⟩

/-- The table of a list of rows. -/
def ofRows (rows : List CommandRow) : CommandTable :=
  rows.foldl insert empty

/-- The number of commands that are known. -/
def size (table : CommandTable) : Nat :=
  table.rows.length

/-- What is known about a command. -/
def find? (table : CommandTable) (bank : UInt8) (id : Int32) : Option CommandRow :=
  table.rows.find? fun row => row.isAbout bank id

/-- The argument counts of the known commands. -/
def arities (table : CommandTable) : ArityTable :=
  fun bank id => (table.find? bank id).map CommandRow.args

/-- The names of the known commands, with numbers for all other names. -/
def naming (table : CommandTable) : Naming :=
  { command := fun bank id =>
      ((table.find? bank id).bind CommandRow.name?).getD (Naming.default.command bank id) }

end CommandTable
end Rpn
