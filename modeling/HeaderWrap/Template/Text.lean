import HeaderWrap.Text.Basic

/-! Template texts with their sites `%%NAME%%`. A text is cut into pieces that spell it, so filling
a site leaves all other text alone, and filled text is never searched for sites. -/
namespace HeaderWrap
open Text

/-- A site and the text in front of it, back to the site before. -/
structure Site where
  lead : List Char
  name : String
  deriving DecidableEq, Repr

/-- A template text: its sites in order, and what follows the last. -/
structure TemplateText where
  sites : List Site
  rest : List Char
  deriving DecidableEq, Repr

namespace Site

def mark (s : Site) : List Char := '%' :: '%' :: s.name.toList ++ ['%', '%']

/-- The text between the start of the line, or the site before, and the site. -/
def indent (s : Site) : List Char := (s.lead.reverse.takeWhile (· ≠ '\n')).reverse

def before (s : Site) : List Char := (s.lead.reverse.dropWhile (· ≠ '\n')).reverse

def named? : List Char → Option (List Char)
  | '%' :: '%' :: s =>
    let name := s.takeWhile isWordChar
    if name ≠ [] ∧ ['%', '%'].isPrefixOf (s.dropWhile isWordChar) then some name else none
  | _ => none

end Site

namespace TemplateText

def consChar (c : Char) (t : TemplateText) : TemplateText :=
  match t.sites with
  | [] => { t with rest := c :: t.rest }
  | s :: ss => { t with sites := { s with lead := c :: s.lead } :: ss }

def consSite (name : List Char) (t : TemplateText) : TemplateText :=
  { t with sites := ⟨[], String.ofList name⟩ :: t.sites }

/-- `parseFrom n` drops `n` characters, the rest of a site already read, and goes on. -/
def parseFrom : Nat → List Char → TemplateText
  | _, [] => ⟨[], []⟩
  | n + 1, _ :: s => parseFrom n s
  | 0, c :: s =>
    match Site.named? (c :: s) with
    | some name => consSite name (parseFrom (name.length + 3) s)
    | none => consChar c (parseFrom 0 s)

def parse (text : String) : TemplateText := parseFrom 0 text.toList

def source (t : TemplateText) : String :=
  String.ofList ((t.sites.flatMap fun s => s.lead ++ s.mark) ++ t.rest)

def tokens (t : TemplateText) : List String := t.sites.map Site.name

def contains (t : TemplateText) (token : String) : Bool := t.tokens.contains token

def indentOf? (t : TemplateText) (token : String) : Option String :=
  (t.sites.find? (·.name == token)).map fun s => String.ofList s.indent

end TemplateText

structure Filled where
  text : String
  /-- The tokens of contents that found no site left. -/
  missing : List String
  /-- The tokens left in the text, each once. -/
  unresolved : List String
  deriving DecidableEq, Repr

namespace TemplateText

/-- Puts a content into the first site of its token that has none yet. -/
def place? (token content : String) :
    List (Site × Option String) → Option (List (Site × Option String))
  | [] => none
  | (s, slot) :: slots =>
    if s.name = token ∧ slot = none then some ((s, some content) :: slots)
    else (place? token content slots).map ((s, slot) :: ·)

/-- Sites with the contents placed so far, and the tokens of those that found no site left. -/
structure Assigned where
  slots : List (Site × Option String)
  missing : List String

def Assigned.give (a : Assigned) (p : String × String) : Assigned :=
  match place? p.1 p.2 a.slots with
  | some slots => { a with slots }
  | none => { a with missing := a.missing ++ [p.1] }

def assign (sites : List Site) (contents : List (String × String)) : Assigned :=
  contents.foldl Assigned.give ⟨sites.map (·, none), []⟩

def indentLines (indent content : List Char) : List Char :=
  List.intercalate ['\n'] ((content.splitOn '\n').map (indent ++ ·))

/-- The text of a site and what leads to it, filled or as it was. -/
def fillSite : Site × Option String → List Char
  | (s, some content) => s.before ++ indentLines s.indent content.toList
  | (s, none) => s.lead ++ s.mark

def fill (t : TemplateText) (contents : List (String × String)) : Filled :=
  let a := assign t.sites contents
  { text := String.ofList (a.slots.flatMap fillSite ++ t.rest)
    missing := a.missing
    unresolved := ((a.slots.filter (·.2.isNone)).map (·.1.name)).eraseDups }

end TemplateText
end HeaderWrap
