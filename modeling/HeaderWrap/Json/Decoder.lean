import HeaderWrap.Document.Decoder
import HeaderWrap.Json.Reader

/-! JSON as a document format. Content is checked as it is read, so a mismatch in front of a fault
of the syntax wins. -/
namespace HeaderWrap.Json
open Document

def mismatched {α : Type} (expected : String) : Reader α := settled do
  let found (f : Found) : Reader α := refuse (.type f expected)
  match ← peek? with
  | some 'n' =>
    expectAll "null".toList
    found .null
  | some 't' =>
    expectAll "true".toList
    found (.boolean true)
  | some 'f' =>
    expectAll "false".toList
    found (.boolean false)
  | some '"' =>
    advance
    found (.string (← stringBody true))
  | some '[' => found .sequence
  | some '\x7b' => found .map
  | some c =>
    if c == '-' || c.isDigit then
      match ← number with
      | .integer n => found (.integer n)
      | .float x => found (.float (Decimal.scientific.render x))
    else failAhead
  | none => failAhead

def text (expected : String) : Reader String := do
  match ← peekPiece? with
  | none => failAhead
  | some '"' =>
    advance
    stringBody true
  | _ => mismatched expected

def flag : Reader Bool := do
  match ← peekPiece? with
  | none => failAhead
  | some 't' =>
    expectAll "true".toList
    pure true
  | some 'f' =>
    expectAll "false".toList
    pure false
  | _ => mismatched "a boolean"

def optional {α : Type} (read : Reader α) : Reader (Option α) := do
  match ← peekPiece? with
  | some 'n' =>
    expectAll "null".toList
    pure none
  | _ => some <$> read

/-! ### Lists and objects -/

private def nextItem (first : Bool) : Reader Bool := do
  match ← peekPiece? with
  | none => failAhead
  | some ']' => pure false
  | some c =>
    if first then pure true
    else if c == ',' then
      advance
      match ← peekPiece? with
      | none | some ']' => failAhead
      | some _ => pure true
    else failAhead

private def closeList : Reader Unit := do
  match ← peekPiece? with
  | some ']' => advance
  | some ',' =>
    advance
    let _ ← peekPiece?
    failAhead
  | _ => failAhead

private def nextKey? (first : Bool) : Reader (Option String) := do
  match ← peekPiece? with
  | some '\x7d' => pure none
  | next =>
    if !first then
      if next != some ',' then failAhead
      advance
    if (← peekPiece?) != some '"' then failAhead
    advance
    some <$> stringBody true

private def colon : Reader Unit := do
  if (← peekPiece?) != some ':' then failAhead
  advance

private def closeObject : Reader Unit := do
  if (← peekPiece?) != some '\x7d' then failAhead
  advance

def items {α : Type} (read : Reader α) (first : Bool) : Nat → Reader (List α)
  | 0 => failAhead
  | n + 1 => do
    if ← nextItem first then return (← read) :: (← items read false n)
    else return []

def bound : Reader Nat := fun c => .ok (c.rest.length + 1) c

def list {α : Type} (read : Reader α) : Reader (List α) := settled do
  match ← peekPiece? with
  | none => failAhead
  | some '[' =>
    advance
    enclosed (do items read true (← bound)) closeList
  | _ => mismatched "a sequence"

def entries {α : Type} (read : Reader α) (first : Bool) (t : Table String α) :
    Nat → Reader (Table String α)
  | 0 => failAhead
  | n + 1 => do
    match ← nextKey? first with
    | none => return t
    | some key =>
      colon
      entries read false (t.insert key (← read)) n

def table {α : Type} (read : Reader α) : Reader (Table String α) := settled do
  match ← peekPiece? with
  | none => failAhead
  | some '\x7b' =>
    advance
    enclosed (do entries read true ∅ (← bound)) closeObject
  | _ => mismatched "a map"

/-! ### Records and choices -/

/-- The members of a record. A field given twice is refused before its value is read; the value of
an unknown member is passed over. -/
def members {α : Type} (r : Record Reader α) (first : Bool) (a : α) (given : List String) :
    Nat → Reader α
  | 0 => failAhead
  | n + 1 => do
    match ← nextKey? first with
    | none =>
      match r.missing? given with
      | some name => refuse (.missingField name)
      | none => return a
    | some key =>
      match r.field? key with
      | none =>
        colon
        skip
        members r false a given n
      | some field =>
        if given.contains field.name then refuse (.duplicateField field.name)
        colon
        members r false ((← field.read) a) (field.name :: given) n

def elements {α : Type} (r : Record Reader α) (index : Nat) (a : α) :
    List (Field Reader α) → Reader α
  | [] => return a
  | field :: fields => do
    if ← nextItem (index == 0) then elements r (index + 1) ((← field.read) a) fields
    else if field.isRequired then refuse (.length index r.expectedLength)
    else elements r (index + 1) a fields

def record {α : Type} (r : Record Reader α) : Reader α := settled do
  match ← peekPiece? with
  | none => failAhead
  | some '[' =>
    advance
    enclosed (elements r 0 r.initial r.fields) closeList
  | some '\x7b' =>
    advance
    enclosed (do members r true r.initial [] (← bound)) closeObject
  | _ => mismatched r.expected

def variant {α : Type} (variants : List (String × α)) (name : String) : Reader α :=
  match variants.lookup name with
  | some a => pure a
  | none => refuse (.unknownVariant name (variants.map Prod.fst))

def choice {α : Type} (variants : List (String × α)) : Reader α := do
  let named : Reader α := settled do variant variants (← text "variant identifier")
  match ← peekPiece? with
  | some '"' => named
  | some '\x7b' =>
    advance
    if (← peekPiece?) != some '"' then failAhead
    let a ← named
    colon
    match ← peekPiece? with
    | none => failAhead
    | some 'n' => expectAll "null".toList
    | _ => mismatched "unit"
    let next ← peekPiece?
    if next != some '\x7d' then failAt (← get).offset
    advance
    pure a
  | _ => failAhead

instance : Format Reader where
  map f r := f <$> r
  text := text
  flag := flag
  optional := optional
  list := list
  table := table
  choice := choice
  record := record

end HeaderWrap.Json
