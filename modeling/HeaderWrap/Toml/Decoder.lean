import HeaderWrap.Decimal.Shortest
import HeaderWrap.Document.Decoder
import HeaderWrap.Toml.Document

/-! TOML as a document format. A whole document is read first; then its tables are decoded in the
order of their keys. -/
namespace HeaderWrap.Toml
open Document

abbrev Decoder (α : Type) := Value → Except (Option Mismatch) α

private def datetimeKey : String := "$__toml_private_datetime"

/-- An integer beyond 64 bits is shown with the type that holds it. -/
private def foundInteger (n : Int) : Found :=
  if -Nat.pow 2 63 ≤ n ∧ n < Nat.pow 2 64 then .integer n
  else .wideInteger n (if n < Nat.pow 2 127 then "i128" else "u128")

def Value.found? : Value → Option Found
  | .string s => some (.string s)
  | .integer n => some (foundInteger n)
  | .float x => some (.float (Decimal.positional.render x))
  | .unreadable => none
  | .boolean b => some (.boolean b)
  | .array _ => some .sequence
  | .datetime _ | .table _ => some .map

def mismatched {α : Type} (expected : String) : Decoder α := fun v =>
  .error (v.found?.map (.type · expected))

mutual

private def Value.isReadable : Value → Bool
  | .unreadable => false
  | .array items => areReadable items
  | .table entries => haveReadable entries
  | _ => true

private def areReadable : List Value → Bool
  | [] => true
  | v :: vs => v.isReadable && areReadable vs

private def haveReadable : List (String × Value) → Bool
  | [] => true
  | (_, v) :: es => v.isReadable && haveReadable es

end

private def Value.entries? : Value → Option (List (String × Value))
  | .table entries => some entries
  | .datetime text => some [(datetimeKey, .string text)]
  | _ => none

def text (expected : String) : Decoder String
  | .string s => .ok s
  | v => mismatched expected v

def flag : Decoder Bool
  | .boolean b => .ok b
  | v => mismatched "a boolean" v

def optional {α : Type} (read : Decoder α) : Decoder (Option α) := fun v => some <$> read v

def list {α : Type} (read : Decoder α) : Decoder (List α)
  | .array items => items.mapM read
  | v => mismatched "a sequence" v

def table {α : Type} (read : Decoder α) : Decoder (Table String α) := fun v =>
  match v.entries? with
  | some entries => entries.foldlM (fun t (key, v) => return t.insert key (← read v)) ∅
  | none => mismatched "a map" v

def members {α : Type} (r : Record Decoder α) (a : α) (given : List String) :
    List (String × Value) → Except (Option Mismatch) α
  | [] =>
    match r.missing? given with
    | some name => .error (some (.missingField name))
    | none => .ok a
  | (key, v) :: entries =>
    match r.field? key with
    | none => if v.isReadable then members r a given entries else .error none
    | some field => do
      if given.contains field.name then .error (some (.duplicateField field.name))
      members r ((← field.read v) a) (field.name :: given) entries

/-- The elements of an array that gives the fields of a record in order. Elements beyond the last
field are left alone. -/
def elements {α : Type} (r : Record Decoder α) (index : Nat) (a : α) :
    List (Field Decoder α) → List Value → Except (Option Mismatch) α
  | [], _ => .ok a
  | field :: fields, v :: vs => do elements r (index + 1) ((← field.read v) a) fields vs
  | field :: fields, [] =>
    if field.isRequired then .error (some (.length index r.expectedLength))
    else elements r (index + 1) a fields []

def record {α : Type} (r : Record Decoder α) : Decoder α := fun v =>
  match v, v.entries? with
  | .array items, _ => elements r 0 r.initial r.fields items
  | _, some entries => members r r.initial [] entries
  | v, none => mismatched r.expected v

def variant {α : Type} (variants : List (String × α)) (name : String) :
    Except (Option Mismatch) α :=
  match variants.lookup name with
  | some a => .ok a
  | none => .error (some (.unknownVariant name (variants.map Prod.fst)))

def choice {α : Type} (variants : List (String × α)) : Decoder α
  | .string name => variant variants name
  | .table [(name, v)] => do
    let a ← variant variants name
    match v with
    | .array [] | .table [] => .ok a
    | _ => .error none
  | _ => .error none

instance : Format Decoder where
  map f read := fun v => f <$> read v
  text := text
  flag := flag
  optional := optional
  list := list
  table := table
  choice := choice
  record := record

def readAll {α : Type} (read : Decoder α) (text : String) : Except (Option Mismatch) α :=
  match parse? text with
  | some v => read v
  | none => .error none

end HeaderWrap.Toml
