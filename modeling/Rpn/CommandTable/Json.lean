import Rpn.CommandTable
import Rpn.Json.Value

/-!
# Command tables in JSON

A table is an object whose member `commands` lists the rows; a row is an
object with the members `bank`, `id`, `args` and perhaps `name`.  Members of
other names are passed over, whatever they hold.  A known member must not
occur twice and every member name must be text.

Both objects may also be written as arrays of their members in order.  Then a
row has all four, and a table has its list or nothing.
-/

namespace Rpn

namespace JsonValue

/-- The members of an object with their names, if all names are text. -/
def namedMembers? (members : List (List UInt16 × JsonValue)) :
    Option (List (String × JsonValue)) :=
  members.mapM fun entry => (text? (.string entry.1)).map fun name => (name, entry.2)

/-- The only member of a name.  The answer is `none` if there are several, and
`some none` if there is no such member. -/
def member? (name : String) (members : List (String × JsonValue)) : Option (Option JsonValue) :=
  match members.filter fun entry => entry.1 == name with
  | [] => some none
  | [entry] => some (some entry.2)
  | _ => none

end JsonValue

namespace CommandRow

/-- The name of a command, which may be left out or null. -/
def nameOfJson? : Option JsonValue -> Option (Option String)
  | none => some none
  | some .null => some none
  | some value => value.text?.map some

/-- A row from the values of its members. -/
def ofMembers? (bank id : JsonValue) (name : Option JsonValue) (args : JsonValue) :
    Option CommandRow := do
  let bank ← bank.integerWithin? 0 255
  let id ← id.integerWithin? (-2147483648) 2147483647
  let name ← nameOfJson? name
  let args ← args.integerWithin? 0 18446744073709551615
  some ⟨UInt8.ofNat bank.toNat, Int32.ofInt id, name, args.toNat⟩

/-- A row in either of its forms. -/
def ofJson? : JsonValue -> Option CommandRow
  | .object members => do
    let members ← JsonValue.namedMembers? members
    let bank ← JsonValue.member? "bank" members
    let id ← JsonValue.member? "id" members
    let name ← JsonValue.member? "name" members
    let args ← JsonValue.member? "args" members
    ofMembers? (← bank) (← id) name (← args)
  | .array [bank, id, name, args] => ofMembers? bank id (some name) args
  | _ => none

end CommandRow

namespace CommandTable

/-- A list of rows. -/
def rowsOfList? : JsonValue -> Option (List CommandRow)
  | .array items => items.mapM CommandRow.ofJson?
  | _ => none

/-- The rows of a table in either of its forms. -/
def rowsOfJson? (value : JsonValue) : Option (List CommandRow) :=
  match value with
  | .object members => do
    let members ← JsonValue.namedMembers? members
    match ← JsonValue.member? "commands" members with
    | none => some []
    | some rows => rowsOfList? rows
  | .array [] => some []
  | .array [rows] => rowsOfList? rows
  | _ => none

/-- The rows of the table in a JSON text, or what is wrong with the text. -/
def readRows (text : String) : Except String (List CommandRow) :=
  match JsonValue.parse? text with
  | none => .error "the text is not one JSON value"
  | some value =>
    match rowsOfJson? value with
    | none => .error "the value is not a table of commands"
    | some rows => .ok rows

end CommandTable
end Rpn
