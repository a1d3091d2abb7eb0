import Rpn.Json.Token

/-!
# JSON values

A value is built from tokens by a machine that takes one token at a time.  The
machine keeps the containers that are still open and what it expects next, so
nesting costs no depth of recursion and no token is looked at twice.
-/

namespace Rpn

/-- A JSON value.  The members of an object stay in their order, and a name
may occur twice. -/
inductive JsonValue
  | null
  | boolean (value : Bool)
  | integer (value : Int)
  /-- A number that is no integer. -/
  | real
  | string (units : List UInt16)
  | array (items : List JsonValue)
  | object (members : List (List UInt16 × JsonValue))

namespace JsonValue

/-- The text of a string, if the value is a string and its units are text. -/
def text? : JsonValue -> Option String
  | string units => (Utf16.decode? units).map String.ofList
  | _ => none

/-- The value of an integer between two bounds, both included. -/
def integerWithin? (low high : Int) : JsonValue -> Option Int
  | integer value => if low ≤ value ∧ value ≤ high then some value else none
  | _ => none

/-- A container that is still open, its last entry first. -/
inductive Frame
  | array (items : List JsonValue)
  | object (members : List (List UInt16 × JsonValue))
  /-- An object of which a member has its name but not yet its value. -/
  | member (members : List (List UInt16 × JsonValue)) (name : List UInt16)

/-- What may come next. -/
inductive Expecting
  | value
  | valueOrClose
  | name
  | nameOrClose
  | colon
  | commaOrClose

/-- Where the machine stands. -/
inductive Machine
  | running (expecting : Expecting) (frames : List Frame)
  | done (value : JsonValue)

namespace Machine

/-- Before the first token. -/
def start : Machine :=
  .running .value []

/-- Put a finished value where it belongs. -/
def finish (value : JsonValue) : List Frame -> Option Machine
  | [] => some (.done value)
  | .array items :: frames => some (.running .commaOrClose (.array (value :: items) :: frames))
  | .member members name :: frames =>
    some (.running .commaOrClose (.object ((name, value) :: members) :: frames))
  | .object _ :: _ => none

/-- Begin a value with a token. -/
def begin (frames : List Frame) : JsonToken -> Option Machine
  | .null => finish .null frames
  | .boolean value => finish (.boolean value) frames
  | .integer value => finish (.integer value) frames
  | .real => finish .real frames
  | .string units => finish (.string units) frames
  | .openBracket => some (.running .valueOrClose (.array [] :: frames))
  | .openBrace => some (.running .nameOrClose (.object [] :: frames))
  | _ => none

/-- End the innermost container. -/
def close : List Frame -> JsonToken -> Option Machine
  | .array items :: frames, .closeBracket => finish (.array items.reverse) frames
  | .object members :: frames, .closeBrace => finish (.object members.reverse) frames
  | _, _ => none

/-- Take one token. -/
def step : Machine -> JsonToken -> Option Machine
  | .done _, _ => none
  | .running .value frames, token => begin frames token
  | .running .valueOrClose frames, .closeBracket => close frames .closeBracket
  | .running .valueOrClose frames, token => begin frames token
  | .running .nameOrClose frames, .closeBrace => close frames .closeBrace
  | .running .nameOrClose (.object members :: frames), .string name
  | .running .name (.object members :: frames), .string name =>
    some (.running .colon (.member members name :: frames))
  | .running .colon frames, .colon => some (.running .value frames)
  | .running .commaOrClose (.array items :: frames), .comma =>
    some (.running .value (.array items :: frames))
  | .running .commaOrClose (.object members :: frames), .comma =>
    some (.running .name (.object members :: frames))
  | .running .commaOrClose frames, token => close frames token
  | .running _ _, _ => none

/-- The value, if the machine is done. -/
def value? : Machine -> Option JsonValue
  | .done value => some value
  | .running _ _ => none

end Machine

/-- The value of a text that holds exactly one. -/
def parse? (text : String) : Option JsonValue := do
  let tokens ← JsonToken.tokens? text
  let final ← tokens.foldlM Machine.step Machine.start
  final.value?

end JsonValue
end Rpn
