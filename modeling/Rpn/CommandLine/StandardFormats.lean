import Rpn.CommandLine.Formats
import Rpn.CommandTable.Json
import Rpn.Text.Hex
import Rpn.Text.Quoted

/-!
# The formats of the program

Digits as in `Rpn.Hex`, documents as in `Rpn.JsonDocument`, and JSON read as in
`Rpn.JsonValue`.  Of a value that was read, a document is what a program could
have written: it has no null, and its numbers are words.
-/

namespace Rpn

/-- The defect in words.  A byte of the text that is no digit is shown as the
character of that number. -/
def Hex.DecodeError.message : Hex.DecodeError -> String
  | .oddLength => "Odd number of digits"
  | .invalidDigit byte position =>
    "Invalid character " ++ Quoted.char (Char.ofNat byte.toNat) ++ s!" at position {position}"

namespace JsonDocument

mutual

/-- The document that a value is, if it is one. -/
def ofValue? : JsonValue -> Option JsonDocument
  | .boolean value => some (.boolean value)
  | .integer value =>
    if 0 ≤ value ∧ value < 18446744073709551616 then some (.number (UInt64.ofNat value.toNat))
    else none
  | .string units => (JsonValue.string units).text?.map .text
  | .array items => (ofItems? items).map .list
  | .object members => (ofMembers? members).map .record
  | .null | .real => none

def ofItems? : List JsonValue -> Option (List JsonDocument)
  | [] => some []
  | item :: rest => do
    let item ← ofValue? item
    let rest ← ofItems? rest
    some (item :: rest)

def ofMembers? : List (List UInt16 × JsonValue) -> Option (List (String × JsonDocument))
  | [] => some []
  | (units, value) :: rest => do
    let name ← (JsonValue.string units).text?
    let value ← ofValue? value
    let rest ← ofMembers? rest
    some ((name, value) :: rest)

end

/-- The document in a text. -/
def read? (text : String) : Option JsonDocument :=
  (JsonValue.parse? text).bind ofValue?

end JsonDocument

/-- The formats that the program uses. -/
def Formats.standard : Formats where
  encodeHex := Hex.encode
  decodeHex text := (Hex.decode text.toUTF8.data.toList).mapError Hex.DecodeError.message
  readCommands := CommandTable.readRows
  writeJson document := .ok document.render
  readJson? := JsonDocument.read?

end Rpn
