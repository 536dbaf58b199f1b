import Stepper.Failure

/-! # Operators on values -/

namespace Stepper

inductive Comparison where
  | less
  | equal
  | greater
deriving DecidableEq, Repr

def compareNumbers? (x y : Float) : Option Comparison :=
  if x < y then some .less
  else if x > y then some .greater
  else if x == y then some .equal
  else none

def compareTexts (a b : String) : Comparison :=
  if a < b then .less else if a = b then .equal else .greater

def Comparison.satisfies : Comparison → BinaryOp → Bool
  | c, .lt => c == .less
  | c, .le => c != .greater
  | c, .gt => c == .greater
  | c, _ => c != .less

namespace Value

def numbers (op : BinaryOp) (left right : Value) : Except Fault (Float × Float) :=
  match left.toNumber?, right.toNumber? with
  | some x, some y => .ok (x, y)
  | _, _ => .error (.operands op left.type right.type)

/-- Addition: text is joined when one side is text, arrays are joined, all else is numbers. -/
def add (left right : Value) : Except Fault Value :=
  match left, right with
  | .string a, b => .ok (.string (a ++ b.text))
  | a, .string b => .ok (.string (a.text ++ b))
  | .array a, .array b => .ok (.array (a ++ b))
  | a, b => (numbers .add a b).map fun (x, y) => .number (x + y)

def divide (op : BinaryOp) (left right : Value) (compute : Float → Float → Float) :
    Except Fault Value :=
  match numbers op left right with
  | .error fault => .error fault
  | .ok (x, y) => if y == 0 then .error .divisionByZero else .ok (.number (compute x y))

def compare (op : BinaryOp) (left right : Value) : Except Fault Value :=
  match left, right with
  | .string a, .string b => .ok (.bool ((compareTexts a b).satisfies op))
  | _, _ =>
    match numbers op left right with
    | .error fault => .error fault
    | .ok (x, y) =>
      match compareNumbers? x y with
      | some comparison => .ok (.bool (comparison.satisfies op))
      | none => .error (.incomparable op)

def binary (op : BinaryOp) (left right : Value) : Except Fault Value :=
  match op with
  | .add => add left right
  | .sub => (numbers op left right).map fun (x, y) => .number (x - y)
  | .mul => (numbers op left right).map fun (x, y) => .number (x * y)
  | .div => divide op left right (· / ·)
  | .mod => divide op left right Decimal.remainder
  | .eq => .ok (.bool (left.equals right))
  | .ne => .ok (.bool (!left.equals right))
  | .lt | .le | .gt | .ge => compare op left right

def unary (op : UnaryOp) (operand : Value) : Except Fault Value :=
  match op with
  | .neg =>
    match operand.toPlainNumber? with
    | some x => .ok (.number (-x))
    | none => .error (.cannotNegate operand.type)
  | .not => .ok (.bool !operand.isTrue)

def member (target : Value) (name : String) : Except Fault Value :=
  match target with
  | .object fields =>
    match Dictionary.find? name fields with
    | some value => .ok value
    | none => .error (.noMember name)
  | other => .error (.notAnObject name other.type)

def natural? (x : Float) : Option Nat :=
  ((Decimal.Binary.ofFloat? x).bind Decimal.Binary.toInt?).bind fun n =>
    if n < 0 then none else some n.toNat

def itemAt {α : Type} (items : List α) (index : Value) : Except Fault α :=
  match index with
  | .number x =>
    match (natural? x).bind fun position => items[position]? with
    | some item => .ok item
    | none => .error (.indexOutOfBounds x items.length)
  | other => .error (.indexNotANumber other.type)

def index (target position : Value) : Except Fault Value :=
  match target with
  | .array items => itemAt items position
  | .string text => (itemAt text.toList position).map fun c => .string c.toString
  | .object _ =>
    match position with
    | .string name => member target name
    | other => .error (.keyNotAString other.type)
  | other => .error (.notIndexable other.type)

end Value

end Stepper
