import Scriptling.Number.Written
import Scriptling.Text.Quoted
import Scriptling.Text.Utf8

/-!
# Faults of primitive operations

What can go wrong in an operation on data, in reading input or in touching a file. Each fault has a kind
and a text; programs that only pass a fault on look at the kind.
-/

namespace Scriptling

/-- The class of a fault. -/
inductive FaultKind where
  /-- An operand or argument of a type that the operation does not take. -/
  | wrongType
  /-- An argument of the right type with a value that the operation does not take. -/
  | wrongValue
  | missingKey
  | badIndex
  | missingAttribute
  | unknownName
  | zeroDivision
  | overflow
  | outOfMemory
  | runtime
  | badSyntax
  | endOfInput
  | interrupted
  | undecodable
  | unencodable
  /-- An encoding, or a way to treat its faults, that is not known. -/
  | unknownEncoding
  | noSuchFile
  | fileExists
  | isDirectory
  | notDirectory
  | exhausted
  /-- What the outcome would be is not modelled. -/
  | unmodelled
  | endless
  deriving Repr, DecidableEq

/-- What went wrong by a rule of the language. A plain fault has no text that matters. -/
inductive Fault where
  /-- A fault of which no more than the kind is ever shown. -/
  | plain (kind : FaultKind)
  /-- An operation on one operand that does not take its type. -/
  | badOperand (operation type : String)
  | unsupported (operator left right : String)
  /-- An order that is not defined between these types. -/
  | incomparable (operator left right : String)
  | noRounding (type : String)
  | nanToInt
  | infinityToInt
  | zeroToNegativePower
  | resultOutOfRange
  | intTooLarge
  /-- A number of items that is larger than any count. -/
  | numberTooLarge
  | lengthTooLarge
  | missingAttribute (type name : String)
  | textNeedsText (type : String)
  /-- Membership asked of something without members. -/
  | noMembers (type : String)
  | notIterable (type : String)
  | separatorType (type : String)
  | emptySeparator
  | replaceArgument (position : Nat) (type : String)
  | intArgument (type : String)
  | floatArgument (type : String)
  /-- A whole number of too many digits, written or read; if it was read, their number. -/
  | tooManyDigits (count? : Option Nat)
  /-- Something that does not read as a whole number in a base, as it is shown. -/
  | intLiteral (base : Nat) (shown : String)
  /-- Something that does not read as a float, as it is shown. -/
  | floatLiteral (shown : String)
  | emptyRandomRange (start stop width : Int)
  | noLength (type : String)
  | pathArgument (type : String)
  | notSubscriptable (type : String)
  /-- A class indexed that is not to be marked with what it holds. -/
  | classNotSubscriptable (name : String)
  | unhashable (type : String)
  | endOfInput
  | noSuchFile (path : String)
  | embeddedNull
  | isDirectory (path : String)
  | notDirectory (path : String)
  | fileExists (path : String)
  | writeArgument (type : String)
  | undecodable (fault : Text.DecodeFault)
  | unknownName (name : String)
  deriving Repr, DecidableEq

namespace Fault

def kind : Fault → FaultKind
  | plain k => k
  | badOperand .. | unsupported .. | incomparable .. | noRounding .. | textNeedsText ..
  | noMembers .. | notIterable .. | separatorType .. | replaceArgument .. | intArgument ..
  | floatArgument .. | noLength .. | pathArgument .. | notSubscriptable .. | classNotSubscriptable ..
  | unhashable .. | writeArgument .. => .wrongType
  | nanToInt | emptySeparator | tooManyDigits _ | intLiteral .. | floatLiteral .. | emptyRandomRange ..
  | embeddedNull => .wrongValue
  | infinityToInt | resultOutOfRange | intTooLarge | numberTooLarge | lengthTooLarge => .overflow
  | zeroToNegativePower => .zeroDivision
  | missingAttribute .. => .missingAttribute
  | endOfInput => .endOfInput
  | noSuchFile _ => .noSuchFile
  | isDirectory _ => .isDirectory
  | notDirectory _ => .notDirectory
  | fileExists _ => .fileExists
  | undecodable _ => .undecodable
  | unknownName _ => .unknownName

def message : Fault → String
  | plain _ => ""
  | badOperand op t => s!"bad operand type for {op}: '{t}'"
  | unsupported op t u => s!"unsupported operand type(s) for {op}: '{t}' and '{u}'"
  | incomparable op t u => s!"'{op}' not supported between instances of '{t}' and '{u}'"
  | noRounding t => s!"type {t} doesn't define __round__ method"
  | nanToInt => "cannot convert float NaN to integer"
  | infinityToInt => "cannot convert float infinity to integer"
  | zeroToNegativePower => "0.0 cannot be raised to a negative power"
  | resultOutOfRange => "(34, 'Numerical result out of range')"
  | intTooLarge => "int too large to convert to float"
  | numberTooLarge => "cannot fit 'int' into an index-sized integer"
  | lengthTooLarge => "Python int too large to convert to C ssize_t"
  | missingAttribute t name => s!"'{t}' object has no attribute '{name}'"
  | textNeedsText t => s!"'in <string>' requires string as left operand, not {t}"
  | noMembers t => s!"argument of type '{t}' is not iterable"
  | notIterable t => s!"'{t}' object is not iterable"
  | separatorType t => s!"must be str or None, not {t}"
  | emptySeparator => "empty separator"
  | replaceArgument n t => s!"replace() argument {n} must be str, not {t}"
  | intArgument t =>
    s!"int() argument must be a string, a bytes-like object or a real number, not '{t}'"
  | floatArgument t => s!"float() argument must be a string or a real number, not '{t}'"
  | tooManyDigits count? =>
    "Exceeds the limit (4300 digits) for integer string conversion" ++
      ((count?.map fun n => ": value has " ++ toString n ++ " digits").getD "") ++
      "; use sys.set_int_max_str_digits() to increase the limit"
  | intLiteral base shown => s!"invalid literal for int() with base {base}: {shown}"
  | floatLiteral shown => s!"could not convert string to float: {shown}"
  | emptyRandomRange a b w =>
    "empty range for randrange() (" ++ Number.intText a ++ ", " ++ Number.intText b ++ ", " ++ Number.intText w ++ ")"
  | noLength t => s!"object of type '{t}' has no len()"
  | pathArgument t => s!"expected str, bytes or os.PathLike object, not {t}"
  | notSubscriptable t => s!"'{t}' object is not subscriptable"
  | classNotSubscriptable name => s!"type '{name}' is not subscriptable"
  | unhashable t => s!"unhashable type: '{t}'"
  | endOfInput => "EOF when reading a line"
  | noSuchFile p => "[Errno 2] No such file or directory: " ++ Text.quoted p
  | embeddedNull => "embedded null byte"
  | isDirectory p => "[Errno 21] Is a directory: " ++ Text.quoted p
  | notDirectory p => "[Errno 20] Not a directory: " ++ Text.quoted p
  | fileExists p => "[Errno 17] File exists: " ++ Text.quoted p
  | writeArgument t => s!"write() argument must be str, not {t}"
  | undecodable f => f.message
  | unknownName name => s!"name '{name}' is not defined"

end Fault

end Scriptling
