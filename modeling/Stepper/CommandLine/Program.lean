import Stepper.CommandLine.Arguments
import Stepper.CommandLine.Console
import Stepper.Config.Reader

/-! # Commands -/

namespace Stepper

inductive FileState where
  | missing
  | unreadable (reason : String)
  | text (content : String)

def FileState.missingReason : String := "No such file or directory (os error 2)"

structure Surroundings where
  files : String → FileState
  home : Option String
  color : Bool

structure Refusal where
  context : String
  causes : List String

def Refusal.text (refusal : Refusal) : String :=
  "Error: " ++ refusal.context ++ "\n" ++
    match refusal.causes with
    | [] => ""
    | [cause] => "\nCaused by:\n    " ++ cause ++ "\n"
    | causes =>
      "\nCaused by:\n" ++ String.join (causes.zipIdx.map fun (cause, position) =>
        padLeft 5 (toString position) ++ ": " ++ cause ++ "\n")

def Surroundings.read (s : Surroundings) (purpose file : String) : Except Refusal String :=
  match s.files file with
  | .text content => .ok content
  | .missing => .error ⟨purpose ++ " " ++ file, [FileState.missingReason]⟩
  | .unreadable reason => .error ⟨purpose ++ " " ++ file, [reason]⟩

def defaultConfigFile (home : String) : String := home ++ "/.susa/config.toml"

def Surroundings.configOf (s : Surroundings) (file : String) : Except Refusal Config := do
  let text ← s.read "Read config" file
  match Config.read? text with
  | some config => .ok config
  | none => .error ⟨"Invalid config " ++ file, ["Parse engine config"]⟩

def Surroundings.config (s : Surroundings) (named : Option String) : Except Refusal Config :=
  match named, s.home with
  | some file, _ => s.configOf file
  | none, none => .ok {}
  | none, some home =>
    match s.files (defaultConfigFile home) with
    | .missing => .ok {}
    | _ => s.configOf (defaultConfigFile home)

def Invocation.files (i : Invocation) (home : Option String) : List String :=
  i.input :: ((i.value? .config).toList ++ (home.map defaultConfigFile).toList)

def setBreakpoints : List String → Engine → Except Refusal Engine
  | [], e => .ok e
  | spec :: rest, e =>
    match BreakpointSpec.parse spec with
    | .error error => .error ⟨error.message, []⟩
    | .ok parsed =>
      match e.setBreakpoint parsed.line parsed.condition none with
      | .error error => .error ⟨"Breakpoint '" ++ spec ++ "'", [error.message]⟩
      | .ok (e, _) => setBreakpoints rest e

def setWatches : List String → Engine → Except Refusal Engine
  | [], e => .ok e
  | source :: rest, e =>
    match e.setWatch source with
    | .error error => .error ⟨"Watch '" ++ source ++ "'", [error.message]⟩
    | .ok e => setWatches rest e

def Invocation.console (i : Invocation) (s : Surroundings) : Except Refusal Console := do
  let config ← s.config (i.value? .config)
  let source ← s.read "Read" i.input
  let e := Engine.ofConfig config
  let e ← setBreakpoints (i.values .breakpoint) e
  let e ← setWatches (i.values .watch) e
  let e := { e with bus := e.bus.subscribe.1 }
  let options : ExecutionOptions :=
    { timeout := (i.value? .timeout).bind readWord?
      debug := i.isSet .debug || i.isSet .step || i.isSet .breakpoint
      step := i.isSet .step }
  let (host, _) := ({ Host.ofConfig config with engine := e }).start (.execute source options)
  return { host, file := i.input, source, color := s.color && !i.isSet .noColor }

structure Report where
  chunks : List Chunk
  success : Bool

def excerpts (color : Bool) (file source : String) (diagnostics : List Diagnostic) : List Chunk :=
  diagnostics.map fun d => .err (d.excerpt color file source)

def checkReport (color : Bool) (file source : String) : Report :=
  let analysis := analyze source
  let errors := analysis.errors.length
  let warnings := analysis.diagnostics.length - errors
  let summary :=
    if analysis.isValid then
      Chunk.out (Style.success.paint color "✓" ++ " " ++ file ++ " (" ++ toString warnings ++
        " warning(s))\n")
    else
      .err (Style.error.paint color "✗" ++ " " ++ file ++ ": " ++ toString errors ++ " error(s), " ++
        toString warnings ++ " warning(s)\n")
  ⟨excerpts color file source analysis.diagnostics ++ [summary], analysis.isValid⟩

def tokensReport (color : Bool) (file source : String) (trivia : Bool) : Report :=
  let all := scanAll commentMarker source
  let stream := if trivia then all else all.withoutTrivia
  ⟨stream.tokens.map (fun t => .out (t.text ++ "\n")) ++ excerpts color file source stream.errors,
   stream.errors.isEmpty⟩

def astReport (color : Bool) (file source : String) : Report :=
  let analysis := analyze source
  let tree :=
    match analysis.program with
    | some program => [Chunk.out (program.toJson.pretty ++ "\n")]
    | none => []
  ⟨excerpts color file source analysis.diagnostics ++ tree, analysis.program.isSome⟩

def Invocation.report (i : Invocation) (s : Surroundings) (lines : List String) :
    Except Refusal Report :=
  let color := s.color && !i.isSet .noColor
  match i.command with
  | .run =>
    (i.console s).map fun console =>
      let (chunks, success) := Console.converse Host.roundBound lines console
      ⟨chunks, success⟩
  | .check => (s.read "Read" i.input).map fun source => checkReport color i.input source
  | .tokens =>
    (s.read "Read" i.input).map fun source => tokensReport color i.input source (i.isSet .trivia)
  | .ast => (s.read "Read" i.input).map fun source => astReport color i.input source

def versionText (command : Option CommandName) : String :=
  match command with
  | none => "susa 0.2.0\n"
  | some name => "susa-" ++ name.text ++ " 0.2.0\n"

def OptionName.spelling (option : OptionName) : String :=
  let short :=
    match option.short? with
    | some c => "  -" ++ String.singleton c ++ ", "
    | none => "      "
  let value :=
    match option.value? with
    | some name => " <" ++ name ++ ">"
    | none => ""
  short ++ "--" ++ option.long ++ value

def columns (rows : List (String × String)) : String :=
  let width := rows.foldl (fun width (left, _) => max width left.length) 0
  String.join (rows.map fun (left, right) =>
    left ++ "".pushn ' ' (width - left.length + 2) ++ right ++ "\n")

def paragraphs (rows : List (String × String)) : String :=
  "\n".intercalate (rows.map fun (left, right) => left ++ "\n          " ++ right ++ "\n")

def CommandName.helpForm (command : CommandName) (form : HelpForm) : HelpForm :=
  if command.details?.isSome then form else .brief

def OptionName.summaryIn (option : OptionName) (command : Option CommandName) (form : HelpForm) :
    String :=
  let other :=
    match option, command.bind CommandName.details?, form with
    | .help, some _, .brief => " (see more with '--help')"
    | .help, some _, .full => " (see a summary with '-h')"
    | _, _, _ => ""
  option.summary ++ other

def helpText (form : HelpForm) (command : Option CommandName) : String :=
  let options := (OptionName.available command).map fun o => (o.spelling, o.summaryIn command form)
  match command with
  | none =>
    "SUSA: run, debug, check and inspect .susa programs\n\n" ++
      "Usage: susa [OPTIONS] <COMMAND>\n\n" ++
      "Commands:\n" ++ columns (CommandName.all.map fun c => ("  " ++ c.text, c.summary)) ++ "\n" ++
      "Options:\n" ++ columns options
  | some name =>
    let usage := "Usage: susa " ++ name.text ++ " [OPTIONS] <INPUT>\n\n"
    match name.helpForm form with
    | .brief =>
      name.summary ++ "\n\n" ++ usage ++
        "Arguments:\n" ++ columns [("  <INPUT>", "")] ++ "\n" ++
        "Options:\n" ++ columns options
    | .full =>
      name.summary ++ "\n\n" ++ name.details?.getD "" ++ "\n\n" ++ usage ++
        "Arguments:\n" ++ paragraphs [("  <INPUT>", "")] ++ "\n" ++
        "Options:\n" ++ paragraphs options

structure Ending where
  code : Nat
  chunks : List Chunk

def commandLine (args : List String) (s : Surroundings) (lines : List String) : Ending :=
  match readArguments args with
  | .misuse => ⟨2, [.err "Usage: susa [OPTIONS] <COMMAND>\n"]⟩
  | .help form command => ⟨0, [.out (helpText form command)]⟩
  | .version command => ⟨0, [.out (versionText command)]⟩
  | .invocation i =>
    match i.report s lines with
    | .error refusal => ⟨1, [.err refusal.text]⟩
    | .ok report => ⟨if report.success then 0 else 1, report.chunks⟩

end Stepper
