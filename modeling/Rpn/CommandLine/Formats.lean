import Rpn.CommandTable
import Rpn.Json.Document

/-!
# Formats

Hexadecimal digits and JSON are not the program's own.  What it needs of them
is an argument of everything it does: to read and to write digits, to read a
table of commands, and to write a document.  An error comes in words, and the
program only passes them on.

What is documented of the formats is `Formats.Lawful`.  A written text is known
by what is read from it.
-/

namespace Rpn

/-- Operations on hexadecimal digits and on JSON text. -/
structure Formats where
  /-- The digits of a buffer. -/
  encodeHex : List UInt8 -> String
  /-- The buffer whose digits these are. -/
  decodeHex : String -> Except String (List UInt8)
  /-- The rows of the table of commands in a JSON text. -/
  readCommands : String -> Except String (List CommandRow)
  /-- The text of a document, indented. -/
  writeJson : JsonDocument -> Except String String
  /-- The document in a JSON text.  The program does not read back what it
  writes, but whoever gets the text does. -/
  readJson? : String -> Option JsonDocument

/-- What the formats are documented to do. -/
structure Formats.Lawful (formats : Formats) : Prop where
  /-- A buffer has the digits of its bytes, one byte after another. -/
  encodeHex_append : forall first second : List UInt8,
    formats.encodeHex (first ++ second) = formats.encodeHex first ++ formats.encodeHex second
  /-- A buffer is found again in its digits. -/
  decodeHex_encodeHex : forall bytes : List UInt8,
    formats.decodeHex (formats.encodeHex bytes) = .ok bytes
  /-- A document from a map by name can be written, and is found again in its
  text. -/
  readJson?_writeJson : forall document : JsonDocument, document.Ordered ->
    Exists fun text => formats.writeJson document = .ok text ∧
      formats.readJson? text = some document

end Rpn
