import Stepper.Diagnostic
import Stepper.Token.Basic

/-! # What can be wrong with a program text -/

namespace Stepper

inductive Header where
  | function
  | classDef
  | branch
  | whileLoop
  | forRange
  | repeatLoop
deriving DecidableEq, Repr

def Header.text : Header → String
  | .function => "function header"
  | .classDef => "class header"
  | .branch => "IF condition"
  | .whileLoop => "WHILE condition"
  | .forRange => "FOR range"
  | .repeatLoop => "LOOP header"

inductive Expectation where
  | variableName
  | typeName
  | functionName
  | startOfParameters
  | parameterName
  | endOfParameters
  | className
  | superclassName
  | rangeVariable
  | rangeAssign
  | rangeEnd
  | loopVariable
  | loopCount
  | loopTimes
  | opener (header : Header)
  | endOfArguments
  | endOfIndex
  | memberName
  | endOfGroup
  | endOfArray
  | expression
  | endOfStatement
deriving DecidableEq, Repr

def Expectation.text : Expectation → String
  | .variableName => "variable name after LET"
  | .typeName => "type name after ':'"
  | .functionName => "function name after FUNC"
  | .startOfParameters => "'(' after function name"
  | .parameterName => "parameter name"
  | .endOfParameters => "')' after parameters"
  | .className => "class name after CLASS"
  | .superclassName => "superclass name after EXTENDS"
  | .rangeVariable => "loop variable name after FOR"
  | .rangeAssign => "'=' after FOR variable"
  | .rangeEnd => "TO in FOR range"
  | .loopVariable => "loop variable name"
  | .loopCount => "FOR after loop variable initializer"
  | .loopTimes => "TIMES after loop count"
  | .opener header => "':' after " ++ header.text
  | .endOfArguments => "')' after arguments"
  | .endOfIndex => "']' after index"
  | .memberName => "member name after '.'"
  | .endOfGroup => "')' after expression"
  | .endOfArray => "']' after array elements"
  | .expression => "expression"
  | .endOfStatement => "newline after statement"

inductive SyntaxProblem where
  | expected (what : Expectation) (found : TokenKind)
  | missingEnd
  | strayEnd
  | strayBranch (keyword : Keyword)
  | blockTooDeep
  | expressionTooDeep
  | returnOutsideFunction
  | outsideLoop (keyword : Keyword)
  | notAClassMember
  | invalidTarget
  | unclosedPlaceholder
  | emptyPlaceholder
  | trailing (found : TokenKind)
  | unreachable
  | unresolvedSuperclass (name : String)

namespace SyntaxProblem

def message : SyntaxProblem → String
  | .expected what found => "Expected " ++ what.text ++ ", found " ++ found.text
  | .missingEnd => "Expected END to close block"
  | .strayEnd => "Unexpected END without an open block"
  | .strayBranch keyword => "Unexpected " ++ keyword.text ++ " without matching IF"
  | .blockTooDeep => "Block nested too deeply"
  | .expressionTooDeep => "Expression nested too deeply"
  | .returnOutsideFunction => "RETURN outside of a function"
  | .outsideLoop keyword => keyword.text ++ " outside of a loop"
  | .notAClassMember => "Only LET and FUNC are allowed in a CLASS body"
  | .invalidTarget => "Invalid assignment target"
  | .unclosedPlaceholder => "Unclosed '\x7b' in interpolated string"
  | .emptyPlaceholder => "Expected expression in interpolation placeholder"
  | .trailing found => "Unexpected " ++ found.text ++ " after expression"
  | .unreachable => "Unreachable statement"
  | .unresolvedSuperclass name =>
    "Superclass '" ++ name ++ "' is recorded but not resolved; inherited members are unavailable"

def errorAt (problem : SyntaxProblem) (location : Location) : Diagnostic :=
  .error .syntactic problem.message location

def warningAt (problem : SyntaxProblem) (location : Location) : Diagnostic :=
  .warning .syntactic problem.message location

end SyntaxProblem

end Stepper
