import Stepper.Engine.Basic
import Stepper.Value.Builtin
import Stepper.Value.Operators

/-! # States of a run -/

namespace Stepper

inductive Flow where
  | normal
  | leaveLoop
  | nextIteration
  | giveBack (value : Value)

inductive Result where
  | value (value : Value)
  | flow (flow : Flow)
  | failure (error : RuntimeError)

inductive Callee where
  | value (callee : Value) (receiver : Option Value)
  | builtin (builtin : Builtin)

inductive Purpose where
  | array
  | call (callee : Callee) (location : Location)
  | print (location : Location)

structure WhileLoop where
  condition : Expr
  body : Block
  location : Location
  frame : FrameId

structure RangeLoop where
  var : String
  last : Expr
  step : Option Expr
  body : Block
  location : Location
  frame : FrameId

structure RangePass where
  loop : RangeLoop
  current : Float
  last : Float
  step : Float
  passes : Nat

def RangePass.admits (pass : RangePass) : Bool :=
  (0 < pass.step && pass.current ≤ pass.last) || (pass.step < 0 && pass.last ≤ pass.current)

structure RepeatLoop where
  var : Option String
  start : Option Expr
  body : Block
  location : Location
  frame : FrameId

structure RepeatPass where
  loop : RepeatLoop
  first : Float
  total : Nat
  passes : Nat

/-- The number of passes that a count asks for: its whole part, and none if it is not finite or not
positive. -/
def passesOf (count : Float) : Nat :=
  match Decimal.Binary.ofFloat? count with
  | some b => if b.negative then 0 else b.floor
  | none => 0

/-- A place where a run may be stopped: before a statement, or before a line of a text that does not
parse. -/
inductive Boundary where
  | statement (statement : Stmt) (frame : FrameId)
  | line (line : SketchLine) (rest : List SketchLine)

namespace Boundary

def location : Boundary → Location
  | .statement s _ => s.location
  | .line l _ => .point l.number 1

def frame : Boundary → FrameId
  | .statement _ frame => frame
  | .line _ _ => .global

def bindsBreakpoints : Boundary → Bool
  | .statement s _ => !s.sharesLineWithBody
  | .line _ _ => true

end Boundary

inductive Wait where
  | yielded (boundary : Boundary)
  | paused (boundary : Boundary) (since : Nat)
  | input (wait : InputWait) (location : Location)

inductive Continuation where
  | template (text : String) (rest : List StringPart) (frame : FrameId)
  | gather (purpose : Purpose) (values : List Value) (rest : List Expr) (frame : FrameId)
  | assign (name : String) (frame : FrameId) (location : Location)
  | binaryRight (op : BinaryOp) (right : Expr) (frame : FrameId) (location : Location)
  | binary (op : BinaryOp) (left : Value) (location : Location)
  | logicalRight (op : LogicalOp) (right : Expr) (frame : FrameId)
  | truth
  | unary (op : UnaryOp) (location : Location)
  | subscript (index : Expr) (frame : FrameId) (location : Location)
  | index (target : Value) (location : Location)
  | member (name : String) (location : Location)
  | receiver (name : String) (place : Location) (args : List Expr) (frame : FrameId)
      (location : Location)
  | callee (args : List Expr) (frame : FrameId) (location : Location)
  | activation (frame : FrameId)
  | field (name : String) (rest : List Stmt) (fields : Dictionary Value) (frame home : FrameId)
  | statements (rest : List Stmt) (frame : FrameId)
  | declare (name : String) (frame : FrameId)
  | branch (thenBranch : Block) (elseBranch : Option Block) (frame : FrameId)
  | whileTest (loop : WhileLoop) (passes : Nat)
  | whileBody (loop : WhileLoop) (passes : Nat)
  | rangeFirst (loop : RangeLoop) (place : Location)
  | rangeLast (loop : RangeLoop) (first : Float)
  | rangeStep (loop : RangeLoop) (first last : Float) (place : Location)
  | rangeBody (pass : RangePass)
  | repeatCount (loop : RepeatLoop) (place : Location)
  | repeatStart (loop : RepeatLoop) (total : Nat) (place : Location)
  | repeatBody (pass : RepeatPass)
  | giveBack
  | discard
  | condition (breakpoint : Breakpoint) (boundary : Boundary) (step : Option StepMode)
  | log (text : String) (rest : List StringPart) (boundary : Boundary) (step : Option StepMode)
  | watch (source : String) (rest : List DebugExpr) (values bindings : Dictionary Value)
      (boundary : Boundary) (stop : Stop)
  | sketched (line : SketchLine) (rest : List SketchLine)

inductive Control where
  | evaluate (e : Expr) (frame : FrameId)
  | template (text : String) (rest : List StringPart) (frame : FrameId)
  | gather (purpose : Purpose) (values : List Value) (rest : List Expr) (frame : FrameId)
  | build (rest : List Stmt) (fields : Dictionary Value) (frame home : FrameId)
  | statements (rest : List Stmt) (frame : FrameId)
  | rangePass (pass : RangePass)
  | repeatPass (pass : RepeatPass)
  | boundary (boundary : Boundary)
  | arrived (boundary : Boundary)
  | log (text : String) (rest : List StringPart) (boundary : Boundary) (step : Option StepMode)
  | watch (rest : List DebugExpr) (values bindings : Dictionary Value) (boundary : Boundary)
      (stop : Stop)
  | proceed (boundary : Boundary)
  | lines (rest : List SketchLine)
  | deliver (result : Result)
  | waiting (wait : Wait)
  | finished (error : Option RuntimeError)

structure Machine where
  environment : Environment Value
  outputs : Array String
  depth : Nat
  crossed : Nat
  muted : Bool
  started : Nat
  excluded : Nat
  limit : Option Nat
  debugging : Bool
  control : Control
  stack : List Continuation

namespace Machine

def into (m : Machine) (control : Control) : Machine := { m with control }

def push (m : Machine) (k : Continuation) (control : Control) : Machine :=
  { m with control, stack := k :: m.stack }

def evaluate (m : Machine) (k : Continuation) (e : Expr) (frame : FrameId) : Machine :=
  m.push k (.evaluate e frame)

def evaluateMuted (m : Machine) (k : Continuation) (e : Expr) (frame : FrameId) : Machine :=
  ({ m with muted := true }).evaluate k e frame

def give (m : Machine) (value : Value) : Machine := m.into (.deliver (.value value))

def flow (m : Machine) (flow : Flow) : Machine := m.into (.deliver (.flow flow))

def fail (m : Machine) (fault : Fault) (location : Location) : Machine :=
  m.into (.deliver (.failure ⟨fault, location⟩))

def giveOrFail (m : Machine) (result : Except Fault Value) (location : Location) : Machine :=
  match result with
  | .ok value => m.give value
  | .error fault => m.fail fault location

def define (m : Machine) (frame : FrameId) (name : String) (value : Value) : Machine :=
  { m with environment := m.environment.define frame name value }

def isOverBudget (m : Machine) (now : Nat) : Bool :=
  match m.limit with
  | some limit => now - m.started - m.excluded > limit
  | none => false

def excludeSince (m : Machine) (since now : Nat) : Machine :=
  { m with excluded := m.excluded + (now - since) }

def position (m : Machine) (b : Boundary) : Position :=
  ⟨b.location.line, b.location.column, m.depth⟩

def bindDeclarations (m : Machine) (statements : List Stmt) : Machine :=
  statements.foldl (fun m s =>
    match s with
    | .function decl _ => m.define .global decl.name (.function decl .global)
    | .classDef decl _ => m.define .global decl.name (.classDef decl .global)
    | _ => m) m

def initial (now : Nat) (limit : Option Nat) (debugging : Bool) : Machine :=
  { environment := .empty, outputs := #[], depth := 0, crossed := 0, muted := false, started := now,
    excluded := 0, limit, debugging, control := .finished none, stack := [] }

def ofTarget (target : Target) (now : Nat) (limit : Option Nat) (debugging : Bool) : Machine :=
  let m := initial now limit debugging
  match target with
  | .program program =>
    (m.bindDeclarations program.statements).into (.statements program.statements .global)
  | .sketch lines => m.into (.lines lines)

end Machine

end Stepper
