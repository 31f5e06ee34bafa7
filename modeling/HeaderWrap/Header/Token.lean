import HeaderWrap.Text.Basic

/-! The tokens of a C header. Each token keeps the text skipped before it, so the tokens in order
spell the header up to its last token. -/
namespace HeaderWrap.Header
open Text

inductive TokenKind where
  | word
  | star
  | amp
  | lparen
  | rparen
  | comma
  | semi
  | newline
  | other
  deriving DecidableEq, Repr

structure Token where
  /-- Blanks and comment text before the token. -/
  skipped : List Char
  kind : TokenKind
  text : List Char
  deriving DecidableEq, Repr

namespace Token

def source (t : Token) : List Char := t.skipped ++ t.text

def bare (t : Token) : Token := { t with skipped := [] }

def skip (s : List Char) : List Token → List Token
  | [] => []
  | t :: ts => { t with skipped := s ++ t.skipped } :: ts

/-- Puts a word character in front: it joins a word that begins right there. -/
def consWord (c : Char) : List Token → List Token
  | [] => [⟨[], .word, [c]⟩]
  | t :: ts =>
    if t.kind = .word ∧ t.skipped = [] then { t with text := c :: t.text } :: ts
    else ⟨[], .word, [c]⟩ :: t :: ts

def kindOf : Char → TokenKind
  | '*' => .star
  | '&' => .amp
  | '(' => .lparen
  | ')' => .rparen
  | ',' => .comma
  | ';' => .semi
  | '\n' => .newline
  | _ => .other

end Token

inductive Mode where
  | code
  | lineComment
  | blockComment
  deriving DecidableEq, Repr

/-- Cuts a text into tokens. Newlines are tokens wherever they stand; comments and other blanks are
skipped, and a block comment that is never closed reaches to the end. -/
def tokens : Mode → List Char → List Token
  | _, [] => []
  | .code, '/' :: '/' :: s => Token.skip ['/', '/'] (tokens .lineComment s)
  | .code, '/' :: '*' :: s => Token.skip ['/', '*'] (tokens .blockComment s)
  | .code, c :: s =>
    if c = '\n' then ⟨[], .newline, ['\n']⟩ :: tokens .code s
    else if isBlank c then Token.skip [c] (tokens .code s)
    else if isWordChar c then Token.consWord c (tokens .code s)
    else ⟨[], Token.kindOf c, [c]⟩ :: tokens .code s
  | .lineComment, c :: s =>
    if c = '\n' then ⟨[], .newline, ['\n']⟩ :: tokens .code s
    else Token.skip [c] (tokens .lineComment s)
  | .blockComment, '*' :: '/' :: s => Token.skip ['*', '/'] (tokens .code s)
  | .blockComment, c :: s =>
    if c = '\n' then ⟨[], .newline, ['\n']⟩ :: tokens .blockComment s
    else Token.skip [c] (tokens .blockComment s)

end HeaderWrap.Header
