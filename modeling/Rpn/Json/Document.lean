/-!
# Indented JSON text

A document is written with one entry per line and two blanks of indentation
per level.  Within strings only quotes, backslashes and controls are escaped.
The members of a record are written in the order in which they are given; in a
document that comes from a map by name they are ordered by name.
-/

namespace Rpn

/-- What is to be written. -/
inductive JsonDocument
  | number (value : UInt64)
  | boolean (value : Bool)
  | text (content : String)
  | list (items : List JsonDocument)
  | record (members : List (String × JsonDocument))

namespace JsonDocument

mutual

/-- Whether the names in every record ascend, so that none occurs twice. -/
def Ordered : JsonDocument -> Prop
  | number _ | boolean _ | text _ => True
  | list items => OrderedItems items
  | record members => (members.map Prod.fst).Pairwise (· < ·) ∧ OrderedMembers members

def OrderedItems : List JsonDocument -> Prop
  | [] => True
  | item :: rest => item.Ordered ∧ OrderedItems rest

def OrderedMembers : List (String × JsonDocument) -> Prop
  | [] => True
  | (_, value) :: rest => value.Ordered ∧ OrderedMembers rest

end

/-! ## The text of a document -/

/-- The form of a character within a string. -/
def escape (char : Char) : List Char :=
  if char = '"' then ['\\', '"']
  else if char = '\\' then ['\\', '\\']
  else if char = '\x08' then ['\\', 'b']
  else if char = '\x0c' then ['\\', 'f']
  else if char = '\n' then ['\\', 'n']
  else if char = '\r' then ['\\', 'r']
  else if char = '\t' then ['\\', 't']
  else if char.toNat < 0x20 then
    ['\\', 'u', '0', '0', Nat.digitChar (char.toNat / 16), Nat.digitChar (char.toNat % 16)]
  else [char]

/-- A string. -/
def quote (content : String) : String :=
  String.ofList ('"' :: (content.toList.flatMap escape ++ ['"']))

/-- The break before an entry of the given level. -/
def lineBreak (level : Nat) : String :=
  String.ofList ('\n' :: List.replicate (2 * level) ' ')

/-- Entries between two brackets, each on a line of its own. -/
def enclose (level : Nat) (opening closing : String) (entries : List String) : String :=
  if entries.isEmpty then opening ++ closing
  else
    opening ++ lineBreak (level + 1) ++ String.intercalate ("," ++ lineBreak (level + 1)) entries ++
      lineBreak level ++ closing

mutual

/-- The text of a document that stands at a level of indentation. -/
def textAt (level : Nat) : JsonDocument -> String
  | number value => toString value
  | boolean value => if value then "true" else "false"
  | text content => quote content
  | list items => enclose level "[" "]" (itemTexts (level + 1) items)
  | record members => enclose level "\x7b" "\x7d" (memberTexts (level + 1) members)

/-- The texts of the items of a list. -/
def itemTexts (level : Nat) : List JsonDocument -> List String
  | [] => []
  | item :: rest => item.textAt level :: itemTexts level rest

/-- The texts of the members of a record. -/
def memberTexts (level : Nat) : List (String × JsonDocument) -> List String
  | [] => []
  | (name, value) :: rest =>
    (quote name ++ ": " ++ value.textAt level) :: memberTexts level rest

end

/-- The text of a document. -/
def render (document : JsonDocument) : String :=
  document.textAt 0

end JsonDocument
end Rpn
