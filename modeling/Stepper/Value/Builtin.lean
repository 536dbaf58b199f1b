import Stepper.Failure

/-! # Built-in functions -/

namespace Stepper

inductive Builtin where
  | input
  | length
  | text
  | number
  | type
deriving DecidableEq, Repr

namespace Builtin

def name : Builtin → String
  | .input => "INPUT"
  | .length => "LEN"
  | .text => "STR"
  | .number => "NUM"
  | .type => "TYPE"

def ofName? (word : String) : Option Builtin :=
  [Builtin.input, .length, .text, .number, .type].find? fun b => Text.sameLetters b.name word

def arity : Builtin → Nat × Nat
  | .input => (0, 1)
  | _ => (1, 1)

def arityCheck (b : Builtin) (got : Nat) : Except Fault Unit :=
  let (least, greatest) := b.arity
  if got < least || got > greatest then
    let expected :=
      if least = greatest then toString least else toString least ++ " to " ++ toString greatest
    .error (.builtinArity b.name expected got)
  else .ok ()

def apply (b : Builtin) (arg : Value) : Except Fault Value :=
  match b with
  | .length =>
    match arg with
    | .string content => .ok (.number (Float.ofNat content.length))
    | .array items => .ok (.number (Float.ofNat items.length))
    | .object fields => .ok (.number (Float.ofNat fields.length))
    | other => .error (.noLength other.type)
  | .text => .ok (.string arg.text)
  | .number =>
    match arg with
    | .string content =>
      match numberOf? content with
      | some x => .ok (.number x)
      | none => .error (.textNotANumber content)
    | other =>
      match other.toNumber? with
      | some x => .ok (.number x)
      | none => .error (.noConversion other.type)
  | .type => .ok (.string arg.type.text)
  | .input => .error .inputOutsideRun

def call (b : Builtin) (args : List Value) : Except Fault Value :=
  match b.arityCheck args.length with
  | .error fault => .error fault
  | .ok () => b.apply (args.head?.getD .null)

end Builtin

end Stepper
