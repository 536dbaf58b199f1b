import Stepper.BreakpointSpec

/-! # Arguments -/

namespace Stepper

inductive CommandName where
  | run
  | check
  | tokens
  | ast
deriving DecidableEq, Repr

inductive OptionName where
  | config
  | noColor
  | timeout
  | debug
  | step
  | breakpoint
  | watch
  | trivia
  | help
  | version
deriving DecidableEq, Repr

namespace CommandName

def all : List CommandName := [.run, .check, .tokens, .ast]

def text : CommandName → String
  | .run => "run"
  | .check => "check"
  | .tokens => "tokens"
  | .ast => "ast"

def ofText? (word : String) : Option CommandName := all.find? fun command => command.text == word

def summary : CommandName → String
  | .run => "Run a program, streaming its output"
  | .check => "Validate a program and print diagnostics (exit 1 on errors)"
  | .tokens => "Dump the token stream"
  | .ast => "Dump the AST as JSON"

def details? : CommandName → Option String
  | .run =>
    some ("Examples: susa run demo.susa susa run demo.susa --debug -b 4 -b 9:i>2 " ++
      "--watch total")
  | .check | .tokens | .ast => none

end CommandName

namespace OptionName

def long : OptionName → String
  | .config => "config"
  | .noColor => "no-color"
  | .timeout => "timeout-ms"
  | .debug => "debug"
  | .step => "step"
  | .breakpoint => "break"
  | .watch => "watch"
  | .trivia => "trivia"
  | .help => "help"
  | .version => "version"

def short? : OptionName → Option Char
  | .breakpoint => some 'b'
  | .help => some 'h'
  | .version => some 'V'
  | _ => none

def value? : OptionName → Option String
  | .config => some "FILE"
  | .timeout => some "N"
  | .breakpoint => some "LINE[:COND]"
  | .watch => some "EXPR"
  | _ => none

def isRepeatable : OptionName → Bool
  | .breakpoint | .watch => true
  | _ => false

def admits (option : OptionName) (value : String) : Bool :=
  match option with
  | .config => !value.isEmpty
  | .timeout => (readWord? value).isSome
  | _ => true

def summary : OptionName → String
  | .config => "Global: path to config (TOML); default: ~/.susa/config.toml"
  | .noColor => "Global: disable colored output"
  | .timeout => "Wall-clock budget in milliseconds (0 = unlimited)"
  | .debug => "Debug mode: breakpoints and stepping; stdin takes debugger commands while paused"
  | .step => "Pause before the first statement (implies --debug)"
  | .breakpoint => "Breakpoint as LINE or LINE:CONDITION (repeatable)"
  | .watch => "Watch expression shown on every pause (repeatable)"
  | .trivia => "Include whitespace and comment tokens"
  | .help => "Print help"
  | .version => "Print version"

def available : Option CommandName → List OptionName
  | none | some .check | some .ast => [.config, .noColor, .help, .version]
  | some .run => [.config, .timeout, .debug, .noColor, .step, .breakpoint, .watch, .help, .version]
  | some .tokens => [.config, .trivia, .noColor, .help, .version]

end OptionName

structure GivenOption where
  name : OptionName
  value : String
deriving DecidableEq, Repr

structure Invocation where
  command : CommandName
  input : String
  options : List GivenOption
deriving DecidableEq, Repr

namespace Invocation

def isSet (i : Invocation) (name : OptionName) : Bool := i.options.any fun given => given.name == name

def values (i : Invocation) (name : OptionName) : List String :=
  (i.options.filter fun given => given.name == name).map GivenOption.value

def value? (i : Invocation) (name : OptionName) : Option String := (i.values name).getLast?

end Invocation

inductive HelpForm where
  | brief
  | full
deriving DecidableEq, Repr

inductive Demand where
  | invocation (invocation : Invocation)
  | help (form : HelpForm) (command : Option CommandName)
  | version (command : Option CommandName)
  | misuse
deriving DecidableEq, Repr

def looksLikeOption (arg : String) : Bool :=
  match arg.toList with
  | '-' :: _ :: _ => true
  | _ => false

structure Spelling where
  name : OptionName
  form : HelpForm
  attached : Option String

def spelling? (command : Option CommandName) (arg : String) : Option Spelling :=
  match arg.toList with
  | '-' :: '-' :: characters =>
    let name := String.ofList (characters.takeWhile (· ≠ '='))
    let attached :=
      match characters.dropWhile (· ≠ '=') with
      | _ :: rest => some (String.ofList rest)
      | [] => none
    ((OptionName.available command).find? fun option => option.long == name).map fun option =>
      ⟨option, .full, attached⟩
  | '-' :: c :: rest =>
    ((OptionName.available command).find? fun option => option.short? == some c).map fun option =>
      let attached :=
        match option.value?, rest with
        | none, _ | _, [] => none
        | some _, '=' :: rest => some (String.ofList rest)
        | some _, rest => some (String.ofList rest)
      ⟨option, .brief, attached⟩
  | _ => none

structure Given where
  options : List GivenOption
  input : Option String

def Given.add? (given : Given) (name : OptionName) (value : String) : Option Given :=
  if !name.admits value then none
  else if !name.isRepeatable && given.options.any (fun o => o.name == name) then none
  else some { given with options := ⟨name, value⟩ :: given.options }

def Given.addInput? (given : Given) (arg : String) : Option Given :=
  if given.input.isSome || arg.isEmpty then none else some { given with input := some arg }

def readPart (command : Option CommandName) (given : Given) :
    List String → (Given → List String → Demand) → Demand
  | [], finish => finish given []
  | "--" :: rest, finish =>
    match command, rest with
    | some _, [] => finish given []
    | some _, [arg] =>
      match given.addInput? arg with
      | some given => finish given []
      | none => .misuse
    | _, _ => .misuse
  | arg :: rest, finish =>
    if looksLikeOption arg then
      match spelling? command arg with
      | none => .misuse
      | some ⟨name, form, attached⟩ =>
        match name.value?, attached with
        | none, some _ => .misuse
        | none, none =>
          match name with
          | .help => .help form command
          | .version => .version command
          | switch =>
            match given.add? switch "" with
            | some given => readPart command given rest finish
            | none => .misuse
        | some _, some value =>
          match given.add? name value with
          | some given => readPart command given rest finish
          | none => .misuse
        | some _, none =>
          match rest with
          | [] => .misuse
          | value :: rest =>
            if looksLikeOption value then .misuse
            else
              match given.add? name value with
              | some given => readPart command given rest finish
              | none => .misuse
    else
      match command with
      | none => finish given (arg :: rest)
      | some _ =>
        match given.addInput? arg with
        | some given => readPart command given rest finish
        | none => .misuse

def readArguments (args : List String) : Demand :=
  readPart none ⟨[], none⟩ args fun before rest =>
    match rest with
    | [] => .misuse
    | word :: rest =>
      match CommandName.ofText? word with
      | none => .misuse
      | some command =>
        readPart (some command) ⟨[], none⟩ rest fun behind _ =>
          match behind.input with
          | none => .misuse
          | some input =>
            .invocation ⟨command, input, before.options.reverse ++ behind.options.reverse⟩

end Stepper
