/-! Places in a text: UTF-8 byte offsets, and lines and columns. -/
namespace HeaderWrap.Text

def byteLength : List Char → Nat
  | [] => 0
  | c :: s => c.utf8Size + byteLength s

structure LineColumn where
  line : Nat
  column : Nat
  deriving DecidableEq, Repr

/-- The offset at which a line begins; past the last line, the end of the text. -/
def lineStart : List Char → Nat → Nat
  | [], _ => 0
  | _ :: _, 0 => 0
  | c :: s, n + 1 => c.utf8Size + if c = '\n' then lineStart s n else lineStart s (n + 1)

/-- The offset of the byte that a line and a column counted from 1 name; column 0 counts as 1. The
column is added in 64 bits and wraps. -/
def LineColumn.offset? (s : List Char) (p : LineColumn) : Option Nat :=
  if p.line = 0 then none
  else
    let offset := UInt64.ofNat (lineStart s (p.line - 1)) + UInt64.ofNat (p.column - 1)
    if offset.toNat < byteLength s then some offset.toNat else none

private def lineColumnFrom (p : LineColumn) : Nat → List Char → LineColumn
  | _, [] => p
  | n, c :: s =>
    if n < c.utf8Size then { p with column := p.column + n }
    else if c = '\n' then lineColumnFrom ⟨p.line + 1, 0⟩ (n - c.utf8Size) s
    else lineColumnFrom { p with column := p.column + c.utf8Size } (n - c.utf8Size) s

def LineColumn.after (s : List Char) (n : Nat) : LineColumn := lineColumnFrom ⟨1, 0⟩ n s

end HeaderWrap.Text
