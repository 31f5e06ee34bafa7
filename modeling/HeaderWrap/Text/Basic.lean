/-! Texts: blank characters, words, and the occurrences of a pattern, from left to right and without
overlaps. -/
namespace HeaderWrap.Text

/-- The characters with Unicode's White_Space property. -/
def isBlank (c : Char) : Bool :=
  let n := c.toNat
  (0x09 ≤ n && n ≤ 0x0D) || n == 0x20 || n == 0x85 || n == 0xA0 || n == 0x1680 ||
    (0x2000 ≤ n && n ≤ 0x200A) || n == 0x2028 || n == 0x2029 || n == 0x202F ||
    n == 0x205F || n == 0x3000

def trim (s : List Char) : List Char :=
  ((s.dropWhile isBlank).reverse.dropWhile isBlank).reverse

def allBlank (s : List Char) : Bool := s.all isBlank

def isWordChar (c : Char) : Bool := c.isAlphanum || c == '_'

def lastWord (s : List Char) : List Char :=
  ((s.reverse.dropWhile (!isWordChar ·)).takeWhile isWordChar).reverse

def unwords (parts : List String) : String := String.intercalate " " parts

/-- `occurrencesFrom pattern skip offset s` gives the byte offsets of the occurrences in `s`, which
begins at `offset`, after its first `skip` characters. -/
def occurrencesFrom (pattern : List Char) : Nat → Nat → List Char → List Nat
  | _, _, [] => []
  | n + 1, offset, c :: s => occurrencesFrom pattern n (offset + c.utf8Size) s
  | 0, offset, c :: s =>
    if pattern.isPrefixOf (c :: s) then
      offset :: occurrencesFrom pattern (pattern.length - 1) (offset + c.utf8Size) s
    else occurrencesFrom pattern 0 (offset + c.utf8Size) s

def occurrences (pattern s : List Char) : List Nat := occurrencesFrom pattern 0 0 s

def quotedOccurrences (name s : List Char) : List Nat :=
  if name = [] then []
  else
    (List.merge (occurrences ('"' :: name ++ ['"']) s) (occurrences ('\'' :: name ++ ['\'']) s)
      (· ≤ ·)).map (· + 1)

/-- `replaceFrom n` drops `n` characters, the rest of an occurrence already replaced, and goes
on. -/
def replaceFrom (pattern replacement : List Char) : Nat → List Char → List Char
  | _, [] => []
  | n + 1, _ :: s => replaceFrom pattern replacement n s
  | 0, c :: s =>
    if pattern.isPrefixOf (c :: s) then
      replacement ++ replaceFrom pattern replacement (pattern.length - 1) s
    else c :: replaceFrom pattern replacement 0 s

/-- Replaces the occurrences of a pattern. An empty pattern occurs nowhere. -/
def replaceAll (pattern replacement s : String) : String :=
  if pattern.isEmpty then s
  else String.ofList (replaceFrom pattern.toList replacement.toList 0 s.toList)

end HeaderWrap.Text
