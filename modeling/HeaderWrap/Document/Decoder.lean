import HeaderWrap.Document.Mismatch
import HeaderWrap.Table

/-! Decoding documents: what a data format has to offer so that values can be described once and
read from any format. -/
namespace HeaderWrap.Document

structure Field (D : Type → Type) (α : Type) where
  name : String
  aliases : List String
  isRequired : Bool
  /-- Reads the field's value and says how it goes into the record. -/
  read : D (α → α)

/-- A record: the value of one without fields, and its fields in order of declaration. -/
structure Record (D : Type → Type) (α : Type) where
  title : String
  initial : α
  fields : List (Field D α)

namespace Record
variable {D : Type → Type} {α : Type}

def expected (r : Record D α) : String := "struct " ++ r.title

def expectedLength (r : Record D α) : String :=
  r.expected ++ " with " ++ toString r.fields.length ++
    if r.fields.length = 1 then " element" else " elements"

def field? (r : Record D α) (key : String) : Option (Field D α) :=
  r.fields.find? fun f => f.name == key || f.aliases.contains key

def missing? (r : Record D α) (given : List String) : Option String :=
  (r.fields.find? fun f => f.isRequired && !given.contains f.name).map Field.name

end Record

class Format (D : Type → Type) where
  map {α β : Type} : (α → β) → D α → D β
  /-- A text; the argument names what is expected. -/
  text : String → D String
  flag : D Bool
  optional {α : Type} : D α → D (Option α)
  list {α : Type} : D α → D (List α)
  /-- A table with free keys, a repeated key keeping its place and its last value. -/
  table {α : Type} : D α → D (Table String α)
  choice {α : Type} : List (String × α) → D α
  /-- A record, by the names of its fields or as a list in order of declaration. -/
  record {α : Type} : Record D α → D α

namespace Field
variable {D : Type → Type} [Format D] {α β : Type}

def optional (name : String) (aliases : List String) (read : D β) (set : β → α → α) : Field D α :=
  ⟨name, aliases, false, Format.map set read⟩

def required (name : String) (aliases : List String) (read : D β) (set : β → α → α) : Field D α :=
  ⟨name, aliases, true, Format.map set read⟩

end Field
end HeaderWrap.Document
