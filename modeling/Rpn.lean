import Rpn.ArityTable
import Rpn.Assembler
import Rpn.Assembly
import Rpn.Cursor
import Rpn.Decompilation
import Rpn.Disassembly
import Rpn.Expr.Infix
import Rpn.Expr.Substitution
import Rpn.Instruction.RoundTrip
import Rpn.Text.Blank
import Rpn.CommandTable.Json
import Rpn.CommandLine.StandardFormats
import Rpn.Json.Document
import Rpn.Main
import Rpn.Proofs.Emission
import Rpn.Proofs.Positions
import Rpn.Proofs.Postorder
import Rpn.Proofs.StackNeed
import Rpn.Proofs.Assembling
import Rpn.Proofs.Execution
import Rpn.Proofs.RoundTrip
import Rpn.Proofs.HeightMachine
import Rpn.Proofs.Encodability
import Rpn.Proofs.Ending
import Rpn.Proofs.Listing
import Rpn.Proofs.Limits
import Rpn.Proofs.Continuation
import Rpn.Proofs.Numeral
import Rpn.Proofs.Outline
import Rpn.Proofs.Scanning
import Rpn.Proofs.InfixText
import Rpn.Proofs.CodeListing
import Rpn.Proofs.Refusal
import Rpn.Proofs.FirstFault
import Rpn.Proofs.Tiling
import Rpn.Proofs.Attempts
import Rpn.Proofs.WireFormat
import Rpn.Proofs.Transcript
import Rpn.Proofs.Leftover
import Rpn.Proofs.Checks
import Rpn.Proofs.Accounting
import Rpn.Proofs.Replacing
import Rpn.Proofs.Grammar
import Rpn.Proofs.Parentheses
import Rpn.Proofs.JsonReading
import Rpn.Proofs.StandardFormats
import Rpn.Proofs.Answers
import Rpn.Proofs.Guarded.Operation
import Rpn.Proofs.Guarded.Execution
import Rpn.Proofs.Guarded.Assembling
import Rpn.Proofs.Guarded.TrapFree
import Rpn.Proofs.References
import Rpn.Proofs.Offering
import Rpn.Proofs.Exchanging
import Rpn.Proofs.Locality
import Rpn.Proofs.Signs
import Rpn.Proofs.TraceLog
import Rpn.Proofs.Lookups
import Rpn.Proofs.Tally
