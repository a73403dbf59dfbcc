/-!
# Codes of diagnostics

The standard codes, in groups of a thousand: characters, grammar, types, running, and the workbench itself.
-/

namespace Scriptling.Report

inductive Code where
  | unexpectedChar
  | unterminatedString
  | invalidNumber
  | unexpectedToken
  | expectedExpression
  | expectedStatement
  | expectedIdentifier
  | expectedType
  | expectedLeftBrace
  | expectedRightBrace
  | expectedLeftParen
  | expectedRightParen
  | expectedSemicolon
  | expectedColon
  | duplicateParameter
  | typeMismatch
  | undefinedVariable
  | undefinedFunction
  | undefinedProperty
  | invalidOperation
  | notCallable
  | argumentCountMismatch
  | duplicateDeclaration
  | constReassignment
  | divisionByZero
  | indexOutOfBounds
  | keyError
  | importError
  | ioError
  | internalError
  deriving Repr, DecidableEq

namespace Code

/-- The codes with their numbers and names. -/
def table : List (Code × Int × String) :=
  [(unexpectedChar, 1001, "UNEXPECTED_CHAR"), (unterminatedString, 1002, "UNTERMINATED_STRING"),
   (invalidNumber, 1003, "INVALID_NUMBER"), (unexpectedToken, 2001, "UNEXPECTED_TOKEN"),
   (expectedExpression, 2002, "EXPECTED_EXPRESSION"), (expectedStatement, 2003, "EXPECTED_STATEMENT"),
   (expectedIdentifier, 2004, "EXPECTED_IDENTIFIER"), (expectedType, 2005, "EXPECTED_TYPE"),
   (expectedLeftBrace, 2006, "EXPECTED_LEFT_BRACE"), (expectedRightBrace, 2007, "EXPECTED_RIGHT_BRACE"),
   (expectedLeftParen, 2008, "EXPECTED_LEFT_PAREN"), (expectedRightParen, 2009, "EXPECTED_RIGHT_PAREN"),
   (expectedSemicolon, 2010, "EXPECTED_SEMICOLON"), (expectedColon, 2011, "EXPECTED_COLON"),
   (duplicateParameter, 2012, "DUPLICATE_PARAMETER"), (typeMismatch, 3001, "TYPE_MISMATCH"),
   (undefinedVariable, 3002, "UNDEFINED_VARIABLE"), (undefinedFunction, 3003, "UNDEFINED_FUNCTION"),
   (undefinedProperty, 3004, "UNDEFINED_PROPERTY"), (invalidOperation, 3005, "INVALID_OPERATION"),
   (notCallable, 3006, "NOT_CALLABLE"), (argumentCountMismatch, 3007, "ARGUMENT_COUNT_MISMATCH"),
   (duplicateDeclaration, 3008, "DUPLICATE_DECLARATION"), (constReassignment, 3009, "CONST_REASSIGNMENT"),
   (divisionByZero, 4001, "DIVISION_BY_ZERO"), (indexOutOfBounds, 4002, "INDEX_OUT_OF_BOUNDS"),
   (keyError, 4003, "KEY_ERROR"), (importError, 4004, "IMPORT_ERROR"), (ioError, 4005, "IO_ERROR"),
   (internalError, 9001, "INTERNAL_ERROR")]

def number (c : Code) : Int := (table.lookup c).elim 0 (·.1)

def ofName? (s : String) : Option Code := (table.find? (·.2.2 == s)).map (·.1)

end Code

end Scriptling.Report
