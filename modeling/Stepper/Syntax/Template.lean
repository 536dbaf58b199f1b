import Stepper.Syntax.Expr
import Stepper.Syntax.Problem

/-! # Templates -/

namespace Stepper

inductive TemplatePiece where
  | literal (text : List Char)
  | code (text : List Char)
  | unclosed
deriving DecidableEq, Repr

inductive TemplateState where
  | outside (literal : List Char)
  | inside (depth : Nat) (code : List Char)

def literalPiece (reversed : List Char) : List TemplatePiece :=
  if reversed.isEmpty then [] else [.literal reversed.reverse]

def templatePieces : TemplateState → List Char → List TemplatePiece
  | .outside literal, [] => literalPiece literal
  | .outside literal, '\x7b' :: '\x7b' :: rest => templatePieces (.outside ('\x7b' :: literal)) rest
  | .outside literal, '\x7d' :: '\x7d' :: rest => templatePieces (.outside ('\x7d' :: literal)) rest
  | .outside literal, c :: rest =>
    if c = '\x7b' then literalPiece literal ++ templatePieces (.inside 0 []) rest
    else templatePieces (.outside (c :: literal)) rest
  | .inside _ _, [] => [.unclosed]
  | .inside depth code, c :: rest =>
    if c = '\x7b' then templatePieces (.inside (depth + 1) (c :: code)) rest
    else if c = '\x7d' then
      match depth with
      | 0 => .code code.reverse :: templatePieces (.outside []) rest
      | outer + 1 => templatePieces (.inside outer (c :: code)) rest
    else templatePieces (.inside depth (c :: code)) rest

def partsOfPieces (read : List Char → Except Diagnostic Expr) (location : Location) :
    List TemplatePiece → Except Diagnostic (List StringPart)
  | [] => .ok []
  | .literal text :: rest =>
    (partsOfPieces read location rest).map (StringPart.literal (String.ofList text) :: ·)
  | .code text :: rest =>
    match read text with
    | .ok value => (partsOfPieces read location rest).map (StringPart.placeholder value :: ·)
    | .error error => .error error
  | .unclosed :: _ => .error (SyntaxProblem.unclosedPlaceholder.errorAt location)

end Stepper
