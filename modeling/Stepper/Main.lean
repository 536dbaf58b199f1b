import Stepper.CommandLine.Program

/-! # Entry point -/

namespace Stepper.Main

def fileState (name : String) : IO FileState := do
  try
    return .text (← IO.FS.readFile name)
  catch
    | .noFileOrDirectory _ _ _ => return .missing
    | other => return .unreadable (toString other)

def fileStates : List String → IO (List (String × FileState))
  | [] => return []
  | name :: rest => do
    let state ← fileState name
    return (name, state) :: (← fileStates rest)

/-- A switch among the environment variables: off if it is zero, on if it is anything else. -/
def switch? (name : String) : IO (Option Bool) := do
  return (← IO.getEnv name).map fun value => value != "0"

def wantsColor : IO Bool := do
  if (← switch? "CLICOLOR_FORCE") = some true then return true
  else if (← switch? "NO_COLOR").isSome then return false
  else return ((← switch? "CLICOLOR").getD true) && (← (← IO.getStdout).isTty)

def display (chunks : List Chunk) : IO Unit := do
  for chunk in chunks do
    match chunk with
    | .out text =>
      let stdout ← IO.getStdout
      stdout.putStr text
      stdout.flush
    | .err text => (← IO.getStderr).putStr text

def typedLine : IO (Option String) := do
  let line ← (← IO.getStdin).getLine
  return if line.isEmpty then none else some line

partial def converse (started : Nat) (console : Console) : IO Bool := do
  let now ← IO.monoMsNow
  let (console, chunks, state) := (console.atTime (now - started)).work 1
  display chunks
  match state with
  | .working => converse started console
  | .listening =>
    let (console, chunks) := console.take (← typedLine)
    display chunks
    converse started console
  | .finished result =>
    display (console.conclude result)
    return result.success

def perform (invocation : Invocation) : IO UInt32 := do
  let home ← IO.getEnv "HOME"
  let states ← fileStates (invocation.files home)
  let files (name : String) : FileState := (states.lookup name).getD .missing
  let surroundings : Surroundings := { files, home, color := ← wantsColor }
  match invocation.command, invocation.console surroundings with
  | .run, .ok console =>
    return if ← converse (← IO.monoMsNow) console then 0 else 1
  | _, _ =>
    match invocation.report surroundings [] with
    | .ok report =>
      display report.chunks
      return if report.success then 0 else 1
    | .error refusal =>
      display [.err refusal.text]
      return 1

end Stepper.Main

open Stepper Stepper.Main in
def main (args : List String) : IO UInt32 := do
  match readArguments args with
  | .invocation invocation => perform invocation
  | _ =>
    let ending := commandLine args ⟨fun _ => .missing, none, false⟩ []
    display ending.chunks
    return ending.code.toUInt32
