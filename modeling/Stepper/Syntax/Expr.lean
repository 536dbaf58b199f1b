import Stepper.Location

/-! # Expressions -/

namespace Stepper

inductive BinaryOp where
  | add
  | sub
  | mul
  | div
  | mod
  | eq
  | ne
  | lt
  | le
  | gt
  | ge
deriving DecidableEq, Repr

def BinaryOp.symbol : BinaryOp → String
  | .add => "+"
  | .sub => "-"
  | .mul => "*"
  | .div => "/"
  | .mod => "%"
  | .eq => "=="
  | .ne => "!="
  | .lt => "<"
  | .le => "<="
  | .gt => ">"
  | .ge => ">="

inductive LogicalOp where
  | and
  | or
deriving DecidableEq, Repr

inductive UnaryOp where
  | neg
  | not
deriving DecidableEq, Repr

mutual

inductive Expr where
  | number (value : Float) (location : Location)
  | string (content : String) (location : Location)
  | bool (value : Bool) (location : Location)
  | null (location : Location)
  | interpolated (parts : List StringPart) (location : Location)
  | array (items : List Expr) (location : Location)
  | identifier (name : String) (location : Location)
  | assign (name : String) (value : Expr) (location : Location)
  | binary (op : BinaryOp) (left right : Expr) (location : Location)
  | logical (op : LogicalOp) (left right : Expr) (location : Location)
  | unary (op : UnaryOp) (operand : Expr) (location : Location)
  | call (callee : Expr) (args : List Expr) (location : Location)
  | index (target index : Expr) (location : Location)
  | member (target : Expr) (name : String) (location : Location)

inductive StringPart where
  | literal (text : String)
  | placeholder (value : Expr)

end

namespace Expr

def location : Expr → Location
  | .number _ l | .string _ l | .bool _ l | .null l | .interpolated _ l | .array _ l
  | .identifier _ l | .assign _ _ l | .binary _ _ _ l | .logical _ _ _ l | .unary _ _ l
  | .call _ _ l | .index _ _ l | .member _ _ l => l

def ofBinary (op : BinaryOp) (left right : Expr) : Expr :=
  .binary op left right (left.location.upTo right.location)

def ofLogical (op : LogicalOp) (left right : Expr) : Expr :=
  .logical op left right (left.location.upTo right.location)

end Expr

mutual

def Expr.assigns : Expr → Bool
  | .assign _ _ _ => true
  | .number _ _ | .string _ _ | .bool _ _ | .null _ | .identifier _ _ => false
  | .interpolated parts _ => partsAssign parts
  | .array items _ => anyAssigns items
  | .binary _ left right _ | .logical _ left right _ => left.assigns || right.assigns
  | .unary _ operand _ => operand.assigns
  | .call callee args _ => callee.assigns || anyAssigns args
  | .index target index _ => target.assigns || index.assigns
  | .member target _ _ => target.assigns

def anyAssigns : List Expr → Bool
  | [] => false
  | first :: rest => first.assigns || anyAssigns rest

def StringPart.assigns : StringPart → Bool
  | .literal _ => false
  | .placeholder value => value.assigns

def partsAssign : List StringPart → Bool
  | [] => false
  | first :: rest => first.assigns || partsAssign rest

end

mutual

def Expr.relocate (place : Location) : Expr → Expr
  | .number value _ => .number value place
  | .string content _ => .string content place
  | .bool value _ => .bool value place
  | .null _ => .null place
  | .interpolated parts _ => .interpolated (relocateParts place parts) place
  | .array items _ => .array (relocateAll place items) place
  | .identifier name _ => .identifier name place
  | .assign name value _ => .assign name (value.relocate place) place
  | .binary op left right _ => .binary op (left.relocate place) (right.relocate place) place
  | .logical op left right _ => .logical op (left.relocate place) (right.relocate place) place
  | .unary op operand _ => .unary op (operand.relocate place) place
  | .call callee args _ => .call (callee.relocate place) (relocateAll place args) place
  | .index target index _ => .index (target.relocate place) (index.relocate place) place
  | .member target name _ => .member (target.relocate place) name place

def relocateAll (place : Location) : List Expr → List Expr
  | [] => []
  | first :: rest => first.relocate place :: relocateAll place rest

def StringPart.relocate (place : Location) : StringPart → StringPart
  | .literal text => .literal text
  | .placeholder value => .placeholder (value.relocate place)

def relocateParts (place : Location) : List StringPart → List StringPart
  | [] => []
  | first :: rest => first.relocate place :: relocateParts place rest

end

end Stepper
