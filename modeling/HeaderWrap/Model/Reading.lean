import HeaderWrap.Json.Decoder
import HeaderWrap.Model.Schema
import HeaderWrap.Model.Validation
import HeaderWrap.Path
import HeaderWrap.Toml.Decoder

/-! Reading models from text, as TOML or as JSON. -/
namespace HeaderWrap.Model
open Text

inductive Encoding where
  | toml
  | json
  deriving DecidableEq, Repr

/-- A file whose extension is `json`, in letters of any case, is JSON; any other is TOML. -/
def Encoding.ofPath (path : String) : Encoding :=
  match Path.extension? path with
  | some e => if e.toList.map Char.toLower = "json".toList then .json else .toml
  | none => .toml

/-- The byte that was read last before a fault after `offset` bytes. -/
def faultSpan? (text : List Char) (offset : Nat) : Option Span :=
  ((LineColumn.after text offset).offset? text).map fun offset => ⟨offset, 1⟩

def decode (encoding : Encoding) (text : String) : Except Error Model :=
  match encoding with
  | .toml => (Toml.readAll (Document.Format.record Schema.model) text).mapError .toml
  | .json => (Json.readAll (Document.Format.record Schema.model) text).mapError fun f =>
      .json f.mismatch? (f.offset?.bind (faultSpan? text.toList))

def read (encoding : Encoding) (text : String) : Except Error Model := do
  let m ← decode encoding text
  m.validate text.toList
  return m

end HeaderWrap.Model
