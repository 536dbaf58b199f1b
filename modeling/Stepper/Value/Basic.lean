import Stepper.Decimal.Reader
import Stepper.Decimal.Text
import Stepper.Environment
import Stepper.Syntax.Stmt
import Stepper.Text.Basic

/-! # Runtime values -/

namespace Stepper

inductive Value where
  | null
  | bool (value : Bool)
  | number (value : Float)
  | string (text : String)
  | array (items : List Value)
  | object (fields : List (String × Value))
  | function (decl : FunctionDecl) (frame : FrameId)
  | classDef (decl : ClassDecl) (frame : FrameId)

instance : Inhabited Value := ⟨.null⟩

inductive ValueType where
  | null
  | bool
  | number
  | string
  | array
  | object
  | function
  | classDef
deriving DecidableEq, Repr

def ValueType.text : ValueType → String
  | .null => "null"
  | .bool => "bool"
  | .number => "number"
  | .string => "string"
  | .array => "array"
  | .object => "object"
  | .function => "function"
  | .classDef => "class"

def numberOf? (text : String) : Option Float :=
  (Decimal.read? (Text.trim text)).filter Float.isFinite

def integerBound : Nat := 9000000000000000

def plainInteger? (x : Float) : Option Int :=
  ((Decimal.Binary.ofFloat? x).bind Decimal.Binary.toInt?).filter fun n => n.natAbs < integerBound

def numberText (x : Float) : String :=
  match plainInteger? x with
  | some n => toString n
  | none => Decimal.plain x

def FunctionDecl.isSame (a b : FunctionDecl) : Bool := a.unit == b.unit && a.location == b.location

def ClassDecl.isSame (a b : ClassDecl) : Bool := a.unit == b.unit && a.location == b.location

namespace Value

def type : Value → ValueType
  | .null => .null
  | .bool _ => .bool
  | .number _ => .number
  | .string _ => .string
  | .array _ => .array
  | .object _ => .object
  | .function _ _ => .function
  | .classDef _ _ => .classDef

def isTrue : Value → Bool
  | .null => false
  | .bool value => value
  | .number value => value != 0
  | .string text => !text.isEmpty
  | .array _ | .object _ | .function _ _ | .classDef _ _ => true

def ofTruth (value : Bool) : Float := if value then 1 else 0

def toNumber? : Value → Option Float
  | .null => some 0
  | .bool value => some (ofTruth value)
  | .number value => some value
  | .string text => numberOf? text
  | .array _ | .object _ | .function _ _ | .classDef _ _ => none

def toPlainNumber? : Value → Option Float
  | .string _ => none
  | other => other.toNumber?

mutual

def equals : Value → Value → Bool
  | .null, .null => true
  | .bool a, .bool b => a == b
  | .number a, .number b => a == b
  | .string a, .string b => a == b
  | .array a, .array b => equalItems a b
  | .object a, .object b => equalFields a b
  | .function a frame, .function b other => a.isSame b && frame == other
  | .classDef a _, .classDef b _ => a.isSame b
  | _, _ => false

def equalItems : List Value → List Value → Bool
  | [], [] => true
  | a :: as, b :: bs => a.equals b && equalItems as bs
  | _, _ => false

def equalFields : List (String × Value) → List (String × Value) → Bool
  | [], [] => true
  | (name, a) :: as, (other, b) :: bs => name == other && a.equals b && equalFields as bs
  | _, _ => false

end

mutual

def text : Value → String
  | .null => "null"
  | .bool value => if value then "true" else "false"
  | .number value => numberText value
  | .string text => text
  | .array items => "[" ++ ", ".intercalate (itemTexts items) ++ "]"
  | .object fields => "\x7b" ++ ", ".intercalate (fieldTexts fields) ++ "\x7d"
  | .function decl _ => "<func " ++ decl.name ++ ">"
  | .classDef decl _ => "<class " ++ decl.name ++ ">"

def itemTexts : List Value → List String
  | [] => []
  | first :: rest => first.text :: itemTexts rest

def fieldTexts : List (String × Value) → List String
  | [] => []
  | (name, first) :: rest => (name ++ ": " ++ first.text) :: fieldTexts rest

end

end Value

end Stepper
