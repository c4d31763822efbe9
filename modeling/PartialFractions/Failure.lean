import PartialFractions.Refusal
import PartialFractions.Text.Quoted

/-!
Failures: a refusal, or a fault of the numbers and texts that a computation was given. A fault
has one wording in every language.
-/
namespace PartialFractions

/-- The longest numeral that is read or written as a whole number has this many digits. -/
def maxIntegerDigits : Nat := 4300

inductive PrecisionFault
  | negative
  | tooBig
  | tooManyDigits
  deriving DecidableEq, Repr

inductive Fault
  /-- a whole number with more than `maxIntegerDigits` digits -/
  | integerTooLong (digits : Nat)
  | notInteger (text : String)
  | notNumber (text : String)
  /-- a whole number beyond the greatest finite number -/
  | integerTooBig
  | precision (fault : PrecisionFault)
  | divisionByZero
  | negativeIndex (index : Int)
  /-- a bare node, which stands for no formula -/
  | bareNode
  | wrongCount (expected got : Nat)
  | missingFactor
  /-- a symbol other than x where a number is needed -/
  | symbolicValue
  /-- a number that is not real where a real one is needed -/
  | complexValue
  /-- a text that is no polynomial formula -/
  | unreadableFormula
  /-- a whole number with more than `maxIntegerDigits` digits in a formula -/
  | literalTooLong (digits : Nat)
  /-- a number in a formula whose value is whole and has more than `maxIntegerDigits` digits -/
  | valueTooLong
  /-- the name of the format of plain journal lines, where a level is asked for -/
  | lineFormatAsLevel
  /-- the name of the table of formats, where a level is asked for -/
  | lineStylesAsLevel
  /-- a time that is no number -/
  | undefinedTime
  /-- a time that no count of 64 bits holds -/
  | timeOutOfRange
  /-- a time whose year no count of 32 bits holds -/
  | yearTooBig
  /-- a time whose year has more than four digits, or is none of the common era -/
  | yearOutOfRange (year : Int)
  deriving DecidableEq, Repr

inductive FaultKind
  | value
  | type
  | division
  | overflow
  | index
  | grammar
  | system
  deriving DecidableEq, Repr

/-- Whether a fault of that kind becomes an outcome of a request, as a refusal does. A fault of
another kind is passed on. -/
def FaultKind.isContained : FaultKind → Bool
  | .value | .type | .division => true
  | .overflow | .index | .grammar | .system => false

namespace Fault

def kind : Fault → FaultKind
  | .integerTooLong _ | .notInteger _ | .notNumber _ | .precision _ | .negativeIndex _
  | .wrongCount .. | .valueTooLong | .lineFormatAsLevel | .undefinedTime
  | .yearOutOfRange _ => .value
  | .bareNode | .symbolicValue | .complexValue | .lineStylesAsLevel => .type
  | .divisionByZero => .division
  | .integerTooBig | .timeOutOfRange => .overflow
  | .yearTooBig => .system
  | .missingFactor => .index
  | .unreadableFormula | .literalTooLong _ => .grammar

/-- The message about a whole number that is too long, with what is known of its length. -/
def lengthMessage (detail : String) : String :=
  "Exceeds the limit (" ++ toString maxIntegerDigits ++ " digits) for integer string conversion" ++
    detail ++ "; use sys.set_int_max_str_digits() to increase the limit"

def lengthDetail (digits : Nat) : String := ": value has " ++ toString digits ++ " digits"

def message : Fault → String
  | .integerTooLong digits => lengthMessage (lengthDetail digits)
  | .notInteger text =>
    "invalid literal for int() with base 10: " ++
      String.ofList ((Text.quoted text).toList.take 200)
  | .notNumber text => "could not convert string to float: " ++ Text.quoted text
  | .integerTooBig => "int too large to convert to float"
  | .precision .negative => "Format specifier missing precision"
  | .precision .tooBig => "precision too big"
  | .precision .tooManyDigits => "Too many decimal digits in format string"
  | .divisionByZero => "float division by zero"
  | .negativeIndex index => "Symbol index must be non-negative, got " ++ toString index
  | .bareNode => "Cannot render node of type Node"
  | .wrongCount expected got =>
    if got < expected then
      "not enough values to unpack (expected " ++ toString expected ++ ", got " ++ toString got
        ++ ")"
    else "too many values to unpack (expected " ++ toString expected ++ ")"
  | .missingFactor => "tuple index out of range"
  | .symbolicValue => "Cannot convert expression to float"
  | .complexValue => "Cannot convert complex to float"
  | .unreadableFormula => "invalid syntax"
  | .literalTooLong digits =>
    lengthMessage (lengthDetail digits) ++ " - Consider hexadecimal for huge integer literals " ++
      "to avoid decimal conversion limits. (<string>, line 1)"
  | .valueTooLong => lengthMessage ""
  | .lineFormatAsLevel => "Unknown level: '%(levelname)s:%(name)s:%(message)s'"
  | .lineStylesAsLevel =>
    "Level not an integer or a valid string: \x7b" ++
      "'%': (<class 'logging.PercentStyle'>, '%(levelname)s:%(name)s:%(message)s'), " ++
      "'\x7b': (<class 'logging.StrFormatStyle'>, " ++
        "'\x7blevelname\x7d:\x7bname\x7d:\x7bmessage\x7d'), " ++
      "'$': (<class 'logging.StringTemplateStyle'>, " ++
        "'$\x7blevelname\x7d:$\x7bname\x7d:$\x7bmessage\x7d')\x7d"
  | .undefinedTime => "Invalid value NaN (not a number)"
  | .timeOutOfRange => "timestamp out of range for platform time_t"
  | .yearTooBig => "[Errno 75] Value too large for defined data type"
  | .yearOutOfRange year => "year " ++ toString year ++ " is out of range"

end Fault

inductive Failure
  | refused (refusal : Refusal)
  | fault (fault : Fault)
  deriving DecidableEq, Repr

namespace Failure

def message (language : Language) : Failure → String
  | .refused r => r.message language
  | .fault f => f.message

end Failure

end PartialFractions
