import Stepper.Analysis
import Stepper.Json.Basic
import Stepper.Sketch

/-! # Tokens, trees and diagnostics as structured values -/

namespace Stepper

def Location.toJson (l : Location) : Json :=
  .object [("line", .nat l.line), ("column", .nat l.column), ("start", .nat l.start),
    ("end", .nat l.stop)]

def DiagnosticKind.name : DiagnosticKind → String
  | .lexical => "lexical"
  | .syntactic => "syntax"
  | .runtime => "runtime"
  | .timeout => "timeout"
  | .input => "input"
  | .session => "session"

def Diagnostic.toJson (d : Diagnostic) : Json :=
  .object [("kind", .string d.kind.name), ("severity", .string d.severity.text),
    ("message", .string d.message), ("location", d.location.toJson),
    ("suggestions", .ofList .string d.suggestions)]

def Comment.toJson (c : Comment) : Json :=
  .object [("text", .string c.text), ("line", .nat c.location.line),
    ("column", .nat c.location.column), ("start", .nat c.location.start),
    ("end", .nat c.location.stop)]

def Keyword.caseName : Keyword → String
  | .LET => "Let"
  | .FUNC => "Func"
  | .CLASS => "Class"
  | .EXTENDS => "Extends"
  | .IF => "If"
  | .ELSE => "Else"
  | .ELIF => "Elif"
  | .THEN => "Then"
  | .DO => "Do"
  | .WHILE => "While"
  | .FOR => "For"
  | .TO => "To"
  | .STEP => "Step"
  | .LOOP => "Loop"
  | .TIMES => "Times"
  | .START => "Start"
  | .END => "End"
  | .RETURN => "Return"
  | .PRINT => "Print"
  | .BREAK => "Break"
  | .CONTINUE => "Continue"
  | .AND => "And"
  | .OR => "Or"
  | .NOT => "Not"
  | .TRUE => "True"
  | .FALSE => "False"
  | .NULL => "Null"

def Operator.caseName : Operator → String
  | .plus => "Plus"
  | .minus => "Minus"
  | .star => "Star"
  | .slash => "Slash"
  | .percent => "Percent"
  | .assign => "Assign"
  | .equalEqual => "EqualEqual"
  | .notEqual => "NotEqual"
  | .less => "Less"
  | .lessEqual => "LessEqual"
  | .greater => "Greater"
  | .greaterEqual => "GreaterEqual"
  | .andAnd => "AndAnd"
  | .orOr => "OrOr"
  | .bang => "Bang"

def Punct.caseName : Punct → String
  | .openParen => "OpenParen"
  | .closeParen => "CloseParen"
  | .openBracket => "OpenBracket"
  | .closeBracket => "CloseBracket"
  | .openBrace => "OpenBrace"
  | .closeBrace => "CloseBrace"
  | .comma => "Comma"
  | .colon => "Colon"
  | .dot => "Dot"
  | .semicolon => "Semicolon"

def TokenKind.toJson : TokenKind → Json
  | .keyword word => .tagged "Keyword" (.string word.caseName)
  | .identifier name => .tagged "Identifier" (.string name)
  | .number value => .tagged "Number" (.float value)
  | .string content => .tagged "Str" (.string content)
  | .interpolated body => .tagged "Interpolated" (.string body)
  | .operator sign => .tagged "Operator" (.string sign.caseName)
  | .punct sign => .tagged "Punct" (.string sign.caseName)
  | .newline => .string "Newline"
  | .comment text => .tagged "Comment" (.string text)
  | .whitespace => .string "Whitespace"
  | .invalid => .string "Invalid"
  | .endOfFile => .string "Eof"

def BinaryOp.caseName : BinaryOp → String
  | .add => "Add"
  | .sub => "Sub"
  | .mul => "Mul"
  | .div => "Div"
  | .mod => "Mod"
  | .eq => "Eq"
  | .ne => "Ne"
  | .lt => "Lt"
  | .le => "Le"
  | .gt => "Gt"
  | .ge => "Ge"

def LogicalOp.caseName : LogicalOp → String
  | .and => "And"
  | .or => "Or"

def UnaryOp.caseName : UnaryOp → String
  | .neg => "Neg"
  | .not => "Not"

def nodeJson (kind : Json) (location : Location) : Json :=
  .object [("kind", kind), ("location", location.toJson)]

mutual

def Expr.toJson : Expr → Json
  | .number value l => nodeJson (.tagged "Number" (.float value)) l
  | .string content l => nodeJson (.tagged "Str" (.string content)) l
  | .bool value l => nodeJson (.tagged "Bool" (.bool value)) l
  | .null l => nodeJson (.string "Null") l
  | .interpolated parts l => nodeJson (.tagged "Interpolated" (.array (partsJson parts))) l
  | .array items l => nodeJson (.tagged "Array" (.array (exprsJson items))) l
  | .identifier name l => nodeJson (.tagged "Identifier" (.string name)) l
  | .assign name value l =>
    nodeJson (.tagged "Assign" (.object [("name", .string name), ("value", value.toJson)])) l
  | .binary op left right l =>
    nodeJson (.tagged "Binary" (.object
      [("op", .string op.caseName), ("left", left.toJson), ("right", right.toJson)])) l
  | .logical op left right l =>
    nodeJson (.tagged "Logical" (.object
      [("op", .string op.caseName), ("left", left.toJson), ("right", right.toJson)])) l
  | .unary op operand l =>
    nodeJson (.tagged "Unary" (.object
      [("op", .string op.caseName), ("operand", operand.toJson)])) l
  | .call callee args l =>
    nodeJson (.tagged "Call" (.object
      [("callee", callee.toJson), ("args", .array (exprsJson args))])) l
  | .index target index l =>
    nodeJson (.tagged "Index" (.object [("target", target.toJson), ("index", index.toJson)])) l
  | .member target name l =>
    nodeJson (.tagged "Member" (.object [("target", target.toJson), ("name", .string name)])) l

def exprsJson : List Expr → List Json
  | [] => []
  | first :: rest => first.toJson :: exprsJson rest

def StringPart.toJson : StringPart → Json
  | .literal text => .tagged "Literal" (.string text)
  | .placeholder value => .tagged "Placeholder" value.toJson

def partsJson : List StringPart → List Json
  | [] => []
  | first :: rest => first.toJson :: partsJson rest

end

mutual

def Stmt.toJson : Stmt → Json
  | .declare name hint value l =>
    nodeJson (.tagged "Let" (.object
      [("name", .string name), ("type_hint", .ofOption .string hint),
       ("value", .ofOption Expr.toJson value)])) l
  | .function decl l => nodeJson (.tagged "Function" (functionJson decl)) l
  | .classDef decl l => nodeJson (.tagged "Class" (classJson decl)) l
  | .branch condition thenBranch elseBranch l =>
    nodeJson (.tagged "If" (.object
      [("condition", condition.toJson), ("then_branch", blockJson thenBranch),
       ("else_branch", optionBlockJson elseBranch)])) l
  | .whileLoop condition body l =>
    nodeJson (.tagged "While" (.object
      [("condition", condition.toJson), ("body", blockJson body)])) l
  | .forRange var first last step body l =>
    nodeJson (.tagged "ForRange" (.object
      [("var", .string var), ("from", first.toJson), ("to", last.toJson),
       ("step", .ofOption Expr.toJson step), ("body", blockJson body)])) l
  | .repeatLoop var start count body l =>
    nodeJson (.tagged "Repeat" (.object
      [("var", .ofOption .string var), ("start", .ofOption Expr.toJson start),
       ("count", count.toJson), ("body", blockJson body)])) l
  | .block body l => nodeJson (.tagged "Block" (blockJson body)) l
  | .giveBack value l => nodeJson (.tagged "Return" (.ofOption Expr.toJson value)) l
  | .print args l => nodeJson (.tagged "Print" (.array (exprsJson args))) l
  | .leaveLoop l => nodeJson (.string "Break") l
  | .nextIteration l => nodeJson (.string "Continue") l
  | .expression value l => nodeJson (.tagged "Expr" value.toJson) l

def stmtsJson : List Stmt → List Json
  | [] => []
  | first :: rest => first.toJson :: stmtsJson rest

def blockJson : Block → Json
  | ⟨statements, l⟩ => .object [("statements", .array (stmtsJson statements)), ("location", l.toJson)]

def optionBlockJson : Option Block → Json
  | none => .null
  | some body => blockJson body

def functionJson : FunctionDecl → Json
  | ⟨name, params, body, l, _⟩ =>
    .object [("name", .string name), ("params", .ofList .string params), ("body", blockJson body),
      ("location", l.toJson)]

def classJson : ClassDecl → Json
  | ⟨name, superclass, body, l, _⟩ =>
    .object [("name", .string name), ("superclass", .ofOption .string superclass),
      ("body", blockJson body), ("location", l.toJson)]

end

def Program.toJson (p : Program) : Json := .object [("statements", .array (stmtsJson p.statements))]

def SketchKind.name : SketchKind → String
  | .declare => "let"
  | .print => "print"
  | .function => "func"
  | .classDef => "class"
  | .branch => "branch"
  | .loop => "loop"
  | .block => "block"
  | .giveBack => "return"
  | .close => "end"
  | .expression => "expression"

def SketchLine.toJson (l : SketchLine) : Json :=
  .object [("line", .nat l.number), ("text", .string l.text), ("kind", .string l.kind.name),
    ("depth", .nat l.depth)]

end Stepper
