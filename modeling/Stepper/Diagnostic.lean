import Stepper.Location
import Stepper.Text.Basic

/-! # Diagnostics -/

namespace Stepper

inductive Severity where
  | error
  | warning
deriving DecidableEq, Repr

inductive DiagnosticKind where
  | lexical
  | syntactic
  | runtime
  | timeout
  | input
  | session
deriving DecidableEq, Repr

def Severity.text : Severity → String
  | .error => "error"
  | .warning => "warning"

def DiagnosticKind.label : DiagnosticKind → String
  | .lexical => "LexicalError"
  | .syntactic => "SyntaxError"
  | .runtime => "RuntimeError"
  | .timeout => "TimeoutError"
  | .input => "InputError"
  | .session => "SessionError"

def fixes : List (String × String) :=
  [("Expected END", "add END: close the block opened here with END"),
   ("Expected ':'", "add ':' (or THEN/DO) after the header"),
   ("Expected ')'", "add a closing ')'"),
   ("Expected ']'", "add a closing ']'"),
   ("Unterminated string", "close the string with the same quote it opened with"),
   ("Unrecognized character", "remove the character or put it inside a string"),
   ("Invalid assignment target", "only plain variable names can be assigned"),
   ("Expected variable name", "names start with a letter or '_'"),
   ("Expected function name", "names start with a letter or '_'"),
   ("Expected parameter name", "names start with a letter or '_'"),
   ("Expected expression", "provide a value, variable or call here"),
   ("outside of a loop", "move BREAK/CONTINUE inside a WHILE, FOR or LOOP body"),
   ("outside of a function", "move RETURN inside a FUNC body"),
   ("Undefined variable", "declare it first with LET"),
   ("Division by zero", "check the divisor before dividing"),
   ("iteration limit", "add a BREAK or make the condition become false")]

def suggestions (message : String) : List String :=
  (fixes.filter fun (phrase, _) => Text.contains message phrase).map Prod.snd

structure Diagnostic where
  kind : DiagnosticKind
  severity : Severity
  message : String
  location : Location
  suggestions : List String
deriving DecidableEq, Repr

namespace Diagnostic

def error (kind : DiagnosticKind) (message : String) (location : Location) : Diagnostic :=
  { kind, severity := .error, message, location, suggestions := Stepper.suggestions message }

def warning (kind : DiagnosticKind) (message : String) (location : Location) : Diagnostic :=
  { kind, severity := .warning, message, location, suggestions := Stepper.suggestions message }

def isError (d : Diagnostic) : Bool := d.severity == .error

def text (d : Diagnostic) : String := d.kind.label ++ ": " ++ d.message ++ " at " ++ d.location.text

end Diagnostic

end Stepper
