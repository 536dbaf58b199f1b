import Stepper.Syntax.StmtParser

/-! # Analysis of a source text -/

namespace Stepper

structure Analysis where
  tokens : List Token
  program : Option Program
  diagnostics : List Diagnostic

def analyzeUnit (unit : Nat) (source : String) : Analysis :=
  let stream := scan source
  let parsed := parse stream.tokens unit
  let diagnostics := stream.errors ++ parsed.errors ++ parsed.warnings
  { tokens := stream.tokens
    program := if diagnostics.any Diagnostic.isError then none else some ⟨parsed.statements⟩
    diagnostics }

def analyze (source : String) : Analysis := analyzeUnit 0 source

namespace Analysis

def errors (a : Analysis) : List Diagnostic := a.diagnostics.filter Diagnostic.isError

def isValid (a : Analysis) : Bool := a.errors.isEmpty

end Analysis

end Stepper
