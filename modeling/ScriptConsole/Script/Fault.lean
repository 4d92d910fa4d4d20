import ScriptConsole.Source.Diagnostic
import ScriptConsole.Token.Punctuation

/-! # Faults in scripts

Why a source does not compile, and how the reason is worded.
-/

namespace ScriptConsole

/-- A reason why a source does not compile. -/
inductive Complaint where
  | unmatchedClose
  | unmatchedOpen
  | unexpectedCharacter
  | loneReturn
  | unterminatedString
  | unterminatedComment
  | malformedHex
  | characterAfterNumber
  | expectedPunct (punct : Punct)
  | expectedItem (close : Punct) (item : String)
  | expectedList (list : String)
  | expectedIdentifier
  | expectedWord (word : String)
  | reservedWord
  | expectedVariable
  | expectedNumber
  | hexTooLarge
  | malformedNumber
  | expectedString
  | globalParameter
  | duplicateParameter
  | expectedFunction
  | nestedTooDeep (limit : Nat)
  | unexpectedWord (word : String)
  | secondDefault
  | expectedCase
  | notAssignable
  | notWritable
  | expectedExpression
  | expectedMember
  | expectedIndex
  /-- Reading did not come to an end; sources never give cause for it. -/
  | outOfSteps

/-- The wording of a reason. -/
def Complaint.message : Complaint → String
  | unmatchedClose => "unmatched closing curly brace '\x7d'"
  | unmatchedOpen => "unmatched opening curly brace '\x7b'"
  | unexpectedCharacter => "unexpected character"
  | loneReturn => "encountered carriage-return without a following newline"
  | unterminatedString => "encountered unterminated string literal"
  | unterminatedComment => "encountered unterminated block comment"
  | malformedHex => "incorrectly formatted hexadecimal number"
  | characterAfterNumber => "unexpected character after number"
  | expectedPunct punct => "expected '" ++ punct.spelling ++ "'"
  | expectedItem close item => "expected a '" ++ close.spelling ++ "', or " ++ item
  | expectedList list => "expected " ++ list
  | expectedIdentifier => "expected an identifier"
  | expectedWord word => "expected the text '" ++ word ++ "'"
  | reservedWord => "encountered reserved keyword"
  | expectedVariable => "expected a variable"
  | expectedNumber => "expected a number"
  | hexTooLarge => "hexadecimal number does not fit in 64 bits"
  | malformedNumber => "incorrectly formatted number"
  | expectedString => "expected a string literal"
  | globalParameter => "function parameters must be local variables"
  | duplicateParameter => "duplicate parameter name"
  | expectedFunction => "expected a function declaration inside the package"
  | nestedTooDeep limit => "nesting is deeper than " ++ toString limit ++ " levels"
  | unexpectedWord word => "unexpected '" ++ word ++ "'"
  | secondDefault => "switch statement has more than one default case"
  | expectedCase => "expected 'case' or 'default'"
  | notAssignable => "cannot assign to this expression"
  | notWritable => "operand of '++' or '--' must be a variable or field"
  | expectedExpression => "expected an expression"
  | expectedMember => "expected a field assignment or a nested object"
  | expectedIndex => "expected at least one index"
  | outOfSteps => "compilation did not end"

/-- A reason with the place it is about. -/
structure Fault where
  position : Position
  complaint : Complaint

/-- The report of a fault in its source. -/
def Fault.diagnose (fault : Fault) (source : Source) : Diagnostic :=
  .report source fault.position fault.complaint.message

end ScriptConsole
