import Stepper.Decimal.Text
import Stepper.Location
import Stepper.Text.Basic
import Stepper.Text.Quoted

/-! # Tokens -/

namespace Stepper

inductive Keyword where
  | LET
  | FUNC
  | CLASS
  | EXTENDS
  | IF
  | ELSE
  | ELIF
  | THEN
  | DO
  | WHILE
  | FOR
  | TO
  | STEP
  | LOOP
  | TIMES
  | START
  | END
  | RETURN
  | PRINT
  | BREAK
  | CONTINUE
  | AND
  | OR
  | NOT
  | TRUE
  | FALSE
  | NULL
deriving DecidableEq, Repr

namespace Keyword

def spellings : List (String × Keyword) :=
  [("let", .LET), ("var", .LET), ("set", .LET),
   ("func", .FUNC), ("function", .FUNC), ("def", .FUNC), ("fn", .FUNC),
   ("class", .CLASS),
   ("extends", .EXTENDS), ("inherits", .EXTENDS),
   ("if", .IF),
   ("else", .ELSE), ("otherwise", .ELSE),
   ("elif", .ELIF), ("elseif", .ELIF),
   ("then", .THEN),
   ("do", .DO),
   ("while", .WHILE),
   ("for", .FOR),
   ("to", .TO),
   ("step", .STEP),
   ("loop", .LOOP), ("repeat", .LOOP),
   ("times", .TIMES),
   ("start", .START), ("begin", .START),
   ("end", .END), ("endif", .END), ("endwhile", .END), ("endfor", .END), ("endloop", .END),
   ("endfunc", .END), ("endclass", .END), ("done", .END),
   ("return", .RETURN),
   ("print", .PRINT), ("say", .PRINT), ("display", .PRINT), ("show", .PRINT),
   ("break", .BREAK),
   ("continue", .CONTINUE),
   ("and", .AND),
   ("or", .OR),
   ("not", .NOT),
   ("true", .TRUE),
   ("false", .FALSE),
   ("null", .NULL), ("none", .NULL), ("nil", .NULL)]

def ofWord? (word : String) : Option Keyword :=
  (spellings.find? fun (spelling, _) => Text.sameLetters spelling word).map Prod.snd

def canonical (k : Keyword) : String :=
  ((spellings.find? fun (_, keyword) => keyword == k).map Prod.fst).getD "?"

def text (k : Keyword) : String := String.ofList (k.canonical.toList.map Char.toUpper)

def beginsStatement : Keyword → Bool
  | .LET | .FUNC | .CLASS | .IF | .WHILE | .FOR | .LOOP | .START | .RETURN | .PRINT | .BREAK
  | .CONTINUE | .END | .ELSE | .ELIF => true
  | _ => false

end Keyword

inductive Operator where
  | plus
  | minus
  | star
  | slash
  | percent
  | assign
  | equalEqual
  | notEqual
  | less
  | lessEqual
  | greater
  | greaterEqual
  | andAnd
  | orOr
  | bang
deriving DecidableEq, Repr

def Operator.symbol : Operator → String
  | .plus => "+"
  | .minus => "-"
  | .star => "*"
  | .slash => "/"
  | .percent => "%"
  | .assign => "="
  | .equalEqual => "=="
  | .notEqual => "!="
  | .less => "<"
  | .lessEqual => "<="
  | .greater => ">"
  | .greaterEqual => ">="
  | .andAnd => "&&"
  | .orOr => "||"
  | .bang => "!"

inductive Punct where
  | openParen
  | closeParen
  | openBracket
  | closeBracket
  | openBrace
  | closeBrace
  | comma
  | colon
  | dot
  | semicolon
deriving DecidableEq, Repr

def Punct.symbol : Punct → Char
  | .openParen => '('
  | .closeParen => ')'
  | .openBracket => '['
  | .closeBracket => ']'
  | .openBrace => '\x7b'
  | .closeBrace => '\x7d'
  | .comma => ','
  | .colon => ':'
  | .dot => '.'
  | .semicolon => ';'

inductive TokenKind where
  | keyword (word : Keyword)
  | identifier (name : String)
  | number (value : Float)
  | string (content : String)
  | interpolated (body : String)
  | operator (sign : Operator)
  | punct (sign : Punct)
  | newline
  | comment (text : String)
  | whitespace
  | invalid
  | endOfFile

namespace TokenKind

def isTrivia : TokenKind → Bool
  | .whitespace | .comment _ => true
  | _ => false

def isEnd : TokenKind → Bool
  | .endOfFile => true
  | _ => false

def text : TokenKind → String
  | .keyword word => word.text
  | .identifier _ => "identifier"
  | .number _ => "number"
  | .string _ => "string"
  | .interpolated _ => "interpolated string"
  | .operator sign => "'" ++ sign.symbol ++ "'"
  | .punct sign => "'" ++ sign.symbol.toString ++ "'"
  | .newline => "newline"
  | .comment _ => "comment"
  | .whitespace => "whitespace"
  | .invalid => "invalid token"
  | .endOfFile => "end of file"

end TokenKind

structure Token where
  kind : TokenKind
  lexeme : String
  location : Location

namespace Token

def text (t : Token) : String :=
  let shown :=
    match t.kind with
    | .identifier name => "Identifier('" ++ name ++ "')"
    | .number value => "Number(" ++ Decimal.plain value ++ ")"
    | .string content => "String(" ++ Text.quoted content ++ ")"
    | .interpolated body => "Interpolated(" ++ Text.quoted body ++ ")"
    | .comment content => "Comment(" ++ Text.quoted content ++ ")"
    | .keyword word => "Keyword(" ++ word.text ++ ")"
    | other => other.text
  shown ++ " @" ++ t.location.text

end Token

end Stepper
