import Stepper.Engine.Execution

/-! # Hosts -/

namespace Stepper

inductive Answer where
  | execution (result : Except SessionError ExecutionOutcome)
  | input (result : InputAnswer)

inductive Task where
  | execute (source : String) (options : ExecutionOptions)
  | executing (execution : Execution)
  | request (prompt : String) (limit : Option Nat) (validator : Option Validator)
  | awaiting (wait : InputWait)
  | finished (answer : Answer)

namespace Task

def isReady (e : Engine) : Task → Bool
  | .execute _ _ => true
  | .executing x => x.isReady e
  | .request _ _ _ => true
  | .awaiting wait => (wait.outcome? e.inputs e.now).isSome
  | .finished _ => false

def runExecution (e : Engine) (x : Execution) : Engine × Task :=
  match e.runExecution x with
  | (e, .inl x) => (e, .executing x)
  | (e, .inr result) => (e, .finished (.execution (.ok result)))

def awaitInput (e : Engine) (wait : InputWait) : Engine × Task :=
  match wait.outcome? e.inputs e.now with
  | some (answer, inputs) => ({ e with inputs }, .finished (.input answer))
  | none => (e, .awaiting wait)

def slice (e : Engine) : Task → Engine × Task
  | .execute source options =>
    match e.beginExecution source options with
    | .error error => (e, .finished (.execution (.error error)))
    | .ok (e, x) => runExecution e x
  | .executing x => runExecution e x
  | .request prompt limit validator =>
    let (e, id) := e.askInput prompt validator
    awaitInput e ⟨id, e.now, limit⟩
  | .awaiting wait => awaitInput e wait
  | .finished answer => (e, .finished answer)

end Task

structure Host where
  engine : Engine
  started : Nat
  tasks : List (Nat × Task)

def roundOf (e : Engine) : List (Nat × Task) → Engine × List (Nat × Task)
  | [] => (e, [])
  | (number, task) :: rest =>
    let (e, task) := if task.isReady e then task.slice e else (e, task)
    let (e, rest) := roundOf e rest
    (e, (number, task) :: rest)

namespace Host

def ofConfig (config : Config) : Host := ⟨.ofConfig config, 0, []⟩

def start (h : Host) (task : Task) : Host × Nat :=
  let number := h.started + 1
  ({ h with started := number, tasks := h.tasks ++ [(number, task)] }, number)

def isReady (h : Host) : Bool := h.tasks.any fun (_, task) => task.isReady h.engine

def round (h : Host) : Host :=
  let (engine, tasks) := roundOf h.engine h.tasks
  { h with engine, tasks }

def settleWithin : Nat → Host → Host
  | 0, h => h
  | rounds + 1, h => if h.isReady then settleWithin rounds h.round else h

def roundBound : Nat := Nat.pow 2 60

def settle (h : Host) : Host := settleWithin roundBound h

def advance (h : Host) (duration : Nat) : Host :=
  ({ h with engine := h.engine.advance duration }).round

def collect (h : Host) : Host × List (Nat × Answer) :=
  let answers := h.tasks.filterMap fun (number, task) =>
    match task with
    | .finished answer => some (number, answer)
    | _ => none
  let isOpen : Nat × Task → Bool
    | (_, .finished _) => false
    | _ => true
  ({ h with tasks := h.tasks.filter isOpen }, answers)

/-- Answers requests for input with texts one after the other, and aborts when there are none left.
-/
def feed : List String → Host → Host
  | [], h =>
    if h.engine.inputs.pending.isEmpty then h
    else ({ h with engine := h.engine.abort.1 }).settle
  | text :: rest, h =>
    if h.engine.inputs.pending.isEmpty then h
    else feed rest ({ h with engine := (h.engine.answerInput text).1 }).settle

end Host

def execute (config : Config) (source : String) (inputs : List String) :
    Option (Except SessionError ExecutionOutcome) :=
  let (h, _) := (Host.ofConfig config).start (.execute source {})
  match (Host.feed inputs h.settle).collect.2 with
  | (_, .execution result) :: _ => some result
  | _ => none

end Stepper
