import Stepper.Notice

/-! # Requests for input -/

namespace Stepper

abbrev Validator : Type := String → Option String

structure InputRequest where
  id : Nat
  prompt : String
  validator : Option Validator

abbrev InputAnswer : Type := Except InputError String

structure InputQueue where
  issued : Nat := 0
  pending : List InputRequest := []
  answers : List (Nat × InputAnswer) := []

namespace InputQueue

def request (queue : InputQueue) (prompt : String) (validator : Option Validator) :
    InputQueue × Nat × List Notice :=
  let id := queue.issued + 1
  ({ queue with issued := id, pending := queue.pending ++ [⟨id, prompt, validator⟩] }, id,
   [.inputRequested id prompt])

def submit (queue : InputQueue) (text : String) :
    InputQueue × Except InputError Unit × List Notice :=
  match queue.pending with
  | [] => (queue, .error .noPendingRequest, [])
  | head :: rest =>
    match head.validator.bind fun validate => validate text with
    | some reason => (queue, .error (.rejected reason), [.inputRejected head.id reason])
    | none =>
      ({ queue with pending := rest, answers := (head.id, .ok text) :: queue.answers }, .ok (),
       [.inputAnswered head.id text])

def cancelAll (queue : InputQueue) : InputQueue × Nat :=
  ({ queue with
      pending := []
      answers :=
        queue.pending.foldl (fun answers head => (head.id, .error .cancelled) :: answers)
          queue.answers },
   queue.pending.length)

def answer? (queue : InputQueue) (id : Nat) : Option InputAnswer :=
  (queue.answers.find? fun (resolved, _) => resolved == id).map Prod.snd

def collect (queue : InputQueue) (id : Nat) : InputQueue :=
  { queue with answers := queue.answers.filter fun (resolved, _) => resolved != id }

def withdraw (queue : InputQueue) (id : Nat) : InputQueue :=
  { queue with pending := queue.pending.filter fun waiting => waiting.id != id }

end InputQueue

structure InputWait where
  id : Nat
  since : Nat
  limit : Option Nat
deriving DecidableEq, Repr

namespace InputWait

def isOver (wait : InputWait) (now : Nat) : Bool :=
  match wait.limit with
  | some limit => wait.since + limit ≤ now
  | none => false

def outcome? (wait : InputWait) (queue : InputQueue) (now : Nat) :
    Option (InputAnswer × InputQueue) :=
  match queue.answer? wait.id with
  | some answer => some (answer, queue.collect wait.id)
  | none =>
    if wait.isOver now then
      some (.error (.timedOut (wait.limit.getD 0)), queue.withdraw wait.id)
    else none

end InputWait

end Stepper
