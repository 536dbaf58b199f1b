import Stepper.Diagnostic
import Stepper.Value.Basic

/-! # Failures -/

namespace Stepper

inductive InputError where
  | rejected (reason : String)
  | timedOut (limit : Nat)
  | cancelled
  | noPendingRequest
deriving DecidableEq, Repr

namespace InputError

def message : InputError → String
  | .rejected reason => "input rejected: " ++ reason
  | .timedOut limit => "input request timed out after " ++ toString limit ++ "ms"
  | .cancelled => "input request cancelled"
  | .noPendingRequest => "no pending input request"

def toDiagnostic (e : InputError) : Diagnostic := .error .input e.message {}

end InputError

inductive SessionError where
  | noActiveSession
  | sessionActive
  | alreadyRunning
  | notRunning
  | notPaused
  | noBreakpoint (line : Nat)
  | invalidExpression (source reason : String)
deriving DecidableEq, Repr

namespace SessionError

def message : SessionError → String
  | .noActiveSession => "no active debug session"
  | .sessionActive => "a debug session is already active"
  | .alreadyRunning => "an execution is already running"
  | .notRunning => "execution is not running"
  | .notPaused => "execution is not paused"
  | .noBreakpoint line => "no breakpoint on line " ++ toString line
  | .invalidExpression source reason => "invalid expression '" ++ source ++ "': " ++ reason

def toDiagnostic (e : SessionError) : Diagnostic := .error .session e.message {}

end SessionError

inductive NumberRole where
  | rangeStart
  | rangeEnd
  | rangeStep
  | loopCount
  | loopStart
deriving DecidableEq, Repr

def NumberRole.text : NumberRole → String
  | .rangeStart => "FOR start"
  | .rangeEnd => "FOR end"
  | .rangeStep => "FOR STEP"
  | .loopCount => "LOOP count"
  | .loopStart => "LOOP start"

inductive Fault where
  | undefinedVariable (name : String)
  | divisionByZero
  | operands (op : BinaryOp) (left right : ValueType)
  | incomparable (op : BinaryOp)
  | cannotNegate (operand : ValueType)
  | notANumber (role : NumberRole) (found : ValueType)
  | loopBound (limit : Nat)
  | zeroStep
  | notCallable (found : ValueType)
  | functionArity (name : String) (expected got : Nat)
  | classArity (name : String) (got : Nat)
  | builtinArity (name expected : String) (got : Nat)
  | callDepth (limit : Nat)
  | indexOutOfBounds (index : Float) (length : Nat)
  | indexNotANumber (found : ValueType)
  | keyNotAString (found : ValueType)
  | notIndexable (found : ValueType)
  | noMember (name : String)
  | notAnObject (name : String) (found : ValueType)
  | noLength (found : ValueType)
  | textNotANumber (text : String)
  | noConversion (found : ValueType)
  | inputOutsideRun
  | timeout (limit : Nat)
  | aborted
  | input (error : InputError)

inductive FaultKind where
  | undefinedVariable
  | divisionByZero
  | typeMismatch
  | loopBoundExceeded
  | notCallable
  | arityMismatch
  | callDepthExceeded
  | indexOutOfBounds
  | undefinedMember
  | invalidOperation
  | timeout
  | aborted
  | input
deriving DecidableEq, Repr

namespace Fault

def kind : Fault → FaultKind
  | .undefinedVariable _ => .undefinedVariable
  | .divisionByZero => .divisionByZero
  | .operands _ _ _ | .incomparable _ | .cannotNegate _ | .notANumber _ _ | .indexNotANumber _
  | .keyNotAString _ | .notIndexable _ | .notAnObject _ _ | .noLength _ | .textNotANumber _
  | .noConversion _ => .typeMismatch
  | .loopBound _ => .loopBoundExceeded
  | .zeroStep | .inputOutsideRun => .invalidOperation
  | .notCallable _ => .notCallable
  | .functionArity _ _ _ | .classArity _ _ | .builtinArity _ _ _ => .arityMismatch
  | .callDepth _ => .callDepthExceeded
  | .indexOutOfBounds _ _ => .indexOutOfBounds
  | .noMember _ => .undefinedMember
  | .timeout _ => .timeout
  | .aborted => .aborted
  | .input _ => .input

def endsRun : Fault → Bool
  | .aborted | .timeout _ => true
  | _ => false

def message : Fault → String
  | .undefinedVariable name => "Undefined variable '" ++ name ++ "'"
  | .divisionByZero => "Division by zero"
  | .operands op left right =>
    "Operator '" ++ op.symbol ++ "' cannot be applied to " ++ left.text ++ " and " ++ right.text
  | .incomparable op => "Operator '" ++ op.symbol ++ "' cannot compare NaN"
  | .cannotNegate operand => "Cannot negate " ++ operand.text
  | .notANumber role found => role.text ++ " must be a number, got " ++ found.text
  | .loopBound limit => "Loop exceeded iteration limit of " ++ toString limit
  | .zeroStep => "FOR STEP cannot be zero"
  | .notCallable found => "Value of type " ++ found.text ++ " is not callable"
  | .functionArity name expected got =>
    "Function '" ++ name ++ "' expects " ++ toString expected ++ " argument(s), got " ++
      toString got
  | .classArity name got => "Class '" ++ name ++ "' takes no arguments, got " ++ toString got
  | .builtinArity name expected got =>
    name ++ " expects " ++ expected ++ " argument(s), got " ++ toString got
  | .callDepth limit => "Maximum call depth of " ++ toString limit ++ " exceeded"
  | .indexOutOfBounds index length =>
    "Index " ++ numberText index ++ " out of bounds for length " ++ toString length
  | .indexNotANumber found => "Index must be a number, got " ++ found.text
  | .keyNotAString found => "Object keys must be strings, got " ++ found.text
  | .notIndexable found => "Cannot index into " ++ found.text
  | .noMember name => "Object has no member '" ++ name ++ "'"
  | .notAnObject name found => "Cannot access member '" ++ name ++ "' on " ++ found.text
  | .noLength found => "LEN expects a string, array or object, got " ++ found.text
  | .textNotANumber text => "NUM cannot convert '" ++ text ++ "' to a number"
  | .noConversion found => "NUM cannot convert " ++ found.text ++ " to a number"
  | .inputOutsideRun => "INPUT must be awaited by the interpreter"
  | .timeout limit => "Execution exceeded time budget of " ++ toString limit ++ "ms"
  | .aborted => "Execution aborted"
  | .input error => error.message

def diagnostic (fault : Fault) (location : Location) : Diagnostic :=
  let kind :=
    match fault with
    | .timeout _ => .timeout
    | .input _ => .input
    | _ => .runtime
  .error kind fault.message location

end Fault

structure RuntimeError where
  fault : Fault
  location : Location

def RuntimeError.toDiagnostic (e : RuntimeError) : Diagnostic := e.fault.diagnostic e.location

end Stepper
