import TriggerScript.Number.Layout
import TriggerScript.Text.Quoted

/-!
# Faults

What can go wrong while a time specification is read or a script is evaluated. A fault names its
cause; `Fault.kind` gives the class it is reported under and `Fault.message` its wording. The names
of types in the causes are those that values report for themselves.
-/

namespace TriggerScript

inductive Kind where
  | attr | assertion | homeAssistant | importing | index | invalidState | key
  | memory | moduleNotFound | name | notImplemented | overflow | recursion | runtime
  | serviceNotFound | stopIteration | syntaxMistake | type | unboundLocal | unicode | value
  | yaml | zeroDivision
  deriving Repr, DecidableEq

def Kind.title : Kind → String
  | .attr => "AttributeError"
  | .assertion => "AssertionError"
  | .homeAssistant => "HomeAssistantError"
  | .importing => "ImportError"
  | .index => "IndexError"
  | .invalidState => "InvalidStateError"
  | .key => "KeyError"
  | .memory => "MemoryError"
  | .moduleNotFound => "ModuleNotFoundError"
  | .name => "NameError"
  | .notImplemented => "NotImplementedError"
  | .overflow => "OverflowError"
  | .recursion => "RecursionError"
  | .runtime => "RuntimeError"
  | .serviceNotFound => "ServiceNotFound"
  | .stopIteration => "StopIteration"
  | .syntaxMistake => "SyntaxError"
  | .type => "TypeError"
  | .unboundLocal => "UnboundLocalError"
  | .unicode => "UnicodeDecodeError"
  | .value => "ValueError"
  | .yaml => "YAMLError"
  | .zeroDivision => "ZeroDivisionError"

def Kind.qualifiedTitle : Kind → String
  | .serviceNotFound => "homeassistant.exceptions.ServiceNotFound"
  | .homeAssistant => "homeassistant.exceptions.HomeAssistantError"
  | k => k.title

inductive Unshown where
  | tooManyDigits
  | tooDeep
  deriving Repr, DecidableEq

inductive Fault where
  -- numbers and dates
  | divisionByZero (wording : String)
  | infiniteToInteger
  | notANumberToInteger
  | integerTooLargeForFloat
  | durationOutOfRange
  | durationMagnitude (days : Int)
  | dateOutOfRange
  | yearOutOfRange (year : Int)
  | monthOutOfRange
  | dayOutOfRange
  | hourOutOfRange
  | minuteOutOfRange
  | secondOutOfRange
  | fieldTooLarge
  | fieldTooLargeForWord
  | floatText (text : String)
  | integerText (base : Nat) (text : String)
  | digitLimit
  | digitLimitOf (digits : Nat)
  -- sizes
  | indexTooWide
  | countTooWide
  | sizeTooWide
  | outOfMemory
  -- types that do not fit
  | textExpected (type : String)
  | noAttribute (type member : String)
  | noModuleAttribute (module member : String)
  | unsupportedOperands (operator left right : String)
  | badOperand (operator type : String)
  | unordered (operator left right : String)
  | notCallable (type : String)
  | textMemberExpected (type : String)
  | notContainer (type : String)
  | notIterable (type : String)
  | notIterator (type : String)
  | notSubscriptable (type : String)
  | noItemAssignment (type : String)
  | noItemDeletion (type : String)
  | noDeletionAtIndex (type : String)
  | integerExpected (type : String)
  | indexType (sequence type : String)
  | textIndexType (type : String)
  | sliceIndexType
  | concatenation (left right : String)
  | repetition (type : String)
  | unhashable (type : String)
  | noLength (type : String)
  | noFormat (type : String)
  -- places and keys
  | indexOutOfRange (sequence : String)
  | missingKey (shown : String)
  /-- A key is missing and cannot be put into words. -/
  | unshownKey (why : Unshown)
  /-- A missing key was to be put into words. -/
  | unworded (why : Unshown)
  | sliceStepZero
  | extendedSliceSize (given wanted : Nat)
  | negativeShift
  -- names and nodes
  | undefinedName (name : String)
  | undefinedGlobal (name : String)
  | undefinedNonlocal (name : String)
  | undefinedInDelete (name : String)
  | nonlocalNotFound (name : String)
  | notAFunction (name shown : String)
  | noRound
  | unsupportedNode (context node : String)
  | importRefused (wording module : String)
  | noSuchModule (module : String)
  | exhausted
  | exhaustedInTask
  | changedDuringIteration (what : String)
  | serviceMissing (domain name : String)
  | outOfFuel
  -- a cause given by its wording alone
  | stated (kind : Kind) (wording : String)
  deriving Repr, DecidableEq

namespace Fault

def kind : Fault → Kind
  | .divisionByZero _ => .zeroDivision
  | .infiniteToInteger | .integerTooLargeForFloat | .durationOutOfRange | .durationMagnitude _
  | .dateOutOfRange | .fieldTooLarge | .fieldTooLargeForWord | .countTooWide | .sizeTooWide =>
    .overflow
  | .outOfMemory => .memory
  | .notANumberToInteger | .yearOutOfRange _ | .monthOutOfRange | .dayOutOfRange
  | .hourOutOfRange | .minuteOutOfRange | .secondOutOfRange | .floatText _ | .integerText _ _
  | .digitLimit | .digitLimitOf _ | .unworded .tooManyDigits | .sliceStepZero
  | .extendedSliceSize _ _ | .negativeShift => .value
  | .noAttribute _ _ | .noModuleAttribute _ _ => .attr
  | .indexOutOfRange _ | .indexTooWide => .index
  | .missingKey _ | .unshownKey _ => .key
  | .undefinedName _ | .undefinedGlobal _ | .undefinedNonlocal _ | .undefinedInDelete _
  | .notAFunction _ _ => .name
  | .noRound => .unboundLocal
  | .unsupportedNode _ _ => .notImplemented
  | .importRefused _ _ | .noSuchModule _ => .moduleNotFound
  | .exhausted => .stopIteration
  | .exhaustedInTask | .changedDuringIteration _ => .runtime
  | .serviceMissing _ _ => .serviceNotFound
  | .outOfFuel | .unworded .tooDeep => .recursion
  | .stated k _ => k
  | _ => .type

def message : Fault → String
  | .divisionByZero wording => wording
  | .infiniteToInteger => "cannot convert float infinity to integer"
  | .notANumberToInteger => "cannot convert float NaN to integer"
  | .integerTooLargeForFloat => "int too large to convert to float"
  | .durationOutOfRange => "Python int too large to convert to C int"
  | .durationMagnitude days =>
    "days=" ++ Number.intText days ++ "; must have magnitude <= 999999999"
  | .dateOutOfRange => "date value out of range"
  | .yearOutOfRange year => "year " ++ Number.intText year ++ " is out of range"
  | .monthOutOfRange => "month must be in 1..12"
  | .dayOutOfRange => "day is out of range for month"
  | .hourOutOfRange => "hour must be in 0..23"
  | .minuteOutOfRange => "minute must be in 0..59"
  | .secondOutOfRange => "second must be in 0..59"
  | .fieldTooLarge => "signed integer is greater than maximum"
  | .fieldTooLargeForWord => "Python int too large to convert to C long"
  | .floatText text => "could not convert string to float: " ++ Text.quoted text
  | .integerText base text =>
    "invalid literal for int() with base " ++ Number.natText base ++ ": " ++ text
  | .digitLimit | .unworded .tooManyDigits =>
    "Exceeds the limit (4300 digits) for integer string conversion; "
      ++ "use sys.set_int_max_str_digits() to increase the limit"
  | .digitLimitOf digits =>
    "Exceeds the limit (4300 digits) for integer string conversion: value has "
      ++ Number.natText digits ++ " digits; use sys.set_int_max_str_digits() to increase the limit"
  | .indexTooWide | .countTooWide => "cannot fit 'int' into an index-sized integer"
  | .sizeTooWide => "Python int too large to convert to C ssize_t"
  | .outOfMemory => ""
  | .textExpected type => "expected string or bytes-like object, got '" ++ type ++ "'"
  | .noAttribute type member =>
    "'" ++ type ++ "' object has no attribute '" ++ member ++ "'"
  | .noModuleAttribute module member =>
    "module '" ++ module ++ "' has no attribute '" ++ member ++ "'"
  | .unsupportedOperands operator left right =>
    "unsupported operand type(s) for " ++ operator ++ ": '" ++ left ++ "' and '" ++ right ++ "'"
  | .badOperand operator type => "bad operand type for " ++ operator ++ ": '" ++ type ++ "'"
  | .unordered operator left right =>
    "'" ++ operator ++ "' not supported between instances of '" ++ left ++ "' and '" ++ right ++ "'"
  | .notCallable type => "'" ++ type ++ "' object is not callable"
  | .textMemberExpected type => "'in <string>' requires string as left operand, not " ++ type
  | .notContainer type => "argument of type '" ++ type ++ "' is not iterable"
  | .notIterable type => "'" ++ type ++ "' object is not iterable"
  | .notIterator type => "'" ++ type ++ "' object is not an iterator"
  | .notSubscriptable type => "'" ++ type ++ "' object is not subscriptable"
  | .noItemAssignment type => "'" ++ type ++ "' object does not support item assignment"
  | .noItemDeletion type => "'" ++ type ++ "' object does not support item deletion"
  | .noDeletionAtIndex type => "'" ++ type ++ "' object doesn't support item deletion"
  | .integerExpected type => "'" ++ type ++ "' object cannot be interpreted as an integer"
  | .indexType sequence type => sequence ++ " indices must be integers or slices, not " ++ type
  | .textIndexType type => "string indices must be integers, not '" ++ type ++ "'"
  | .sliceIndexType => "slice indices must be integers or None or have an __index__ method"
  | .concatenation left right =>
    "can only concatenate " ++ left ++ " (not \"" ++ right ++ "\") to " ++ left
  | .repetition type => "can't multiply sequence by non-int of type '" ++ type ++ "'"
  | .unhashable type => "unhashable type: '" ++ type ++ "'"
  | .noLength type => "object of type '" ++ type ++ "' has no len()"
  | .noFormat type => "unsupported format string passed to " ++ type ++ ".__format__"
  | .indexOutOfRange sequence => sequence ++ " index out of range"
  | .missingKey shown => shown
  | .unshownKey _ => "<exception str() failed>"
  | .sliceStepZero => "slice step cannot be zero"
  | .extendedSliceSize given wanted =>
    "attempt to assign sequence of size " ++ Number.natText given ++ " to extended slice of size "
      ++ Number.natText wanted
  | .negativeShift => "negative shift count"
  | .undefinedName name => "name '" ++ name ++ "' is not defined"
  | .undefinedGlobal name => "global name '" ++ name ++ "' is not defined"
  | .undefinedNonlocal name => "nonlocal name '" ++ name ++ "' is not defined"
  | .undefinedInDelete name => "name '" ++ name ++ "' is not defined in del"
  | .nonlocalNotFound name => "can't find nonlocal '" ++ name ++ "' for assignment"
  | .notAFunction name shown => "function '" ++ name ++ "' is not callable (got " ++ shown ++ ")"
  | .noRound => "cannot access local variable 'val' where it is not associated with a value"
  | .unsupportedNode context node => context ++ ": not implemented ast ast_" ++ node
  | .importRefused wording module => "import " ++ wording ++ " " ++ module ++ " not allowed"
  | .noSuchModule module => "No module named '" ++ module ++ "'"
  | .exhausted => ""
  | .exhaustedInTask => "coroutine raised StopIteration"
  | .changedDuringIteration what => what ++ " changed size during iteration"
  | .serviceMissing domain name => "Unable to find service " ++ domain ++ "/" ++ name
  | .outOfFuel | .unworded .tooDeep => "maximum recursion depth exceeded"
  | .stated _ wording => wording

def line (f : Fault) : String :=
  if f.message.isEmpty then f.kind.qualifiedTitle
  else f.kind.qualifiedTitle ++ ": " ++ f.message

end Fault

end TriggerScript
