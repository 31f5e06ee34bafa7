import HeaderWrap.Document.Decoder
import HeaderWrap.Model

/-! How models are written: their sections, the names of the fields, and what may be left out. -/
namespace HeaderWrap.Model.Schema
open Document
variable {D : Type → Type} [Format D]

def string : D String := Format.text "a string"

def path : D String := Format.text "path string"

def strings : D (List String) := Format.list string

private def optionalString : D (Option String) := Format.optional string

def roots : Record D Roots where
  title := "Paths"
  initial := {}
  fields := [
    .optional "sources" [] path fun s r => { r with sources := s },
    .optional "templates" [] path fun s r => { r with templates := s },
    .optional "output" [] path fun s r => { r with output := s }]

def options : Record D Options where
  title := "CodegenConfig"
  initial := {}
  fields := [
    .optional "self_arg" [] string fun s o => { o with selfArg := s },
    .optional "body_indent" [] string fun s o => { o with bodyIndent := s },
    .optional "const_getters" [] Format.flag fun b o => { o with constGetters := b },
    .optional "strict_tokens" [] Format.flag fun b o => { o with strictTokens := b }]

private def classEntry : Record D ClassEntry where
  title := "ClassDef"
  initial := ⟨"", ""⟩
  fields := [
    .required "name" ["cpp"] string fun s c => { c with name := s },
    .required "c_type" ["c"] string fun s c => { c with type := s }]

private def templateEntry : Record D TemplateEntry where
  title := "TemplateDef"
  initial := ⟨"", [], none, none⟩
  fields := [
    .required "name" [] string fun s t => { t with name := s },
    .optional "classes" [] strings fun ss t => { t with classes := ss },
    .optional "header" ["file_h"] optionalString fun s? t => { t with header? := s? },
    .optional "impl" ["file_cpp"] optionalString fun s? t => { t with implementation? := s? }]

private def headerEntry : Record D HeaderEntry where
  title := "HeaderFileDef"
  initial := ⟨"", "", []⟩
  fields := [
    .required "path" [] string fun s h => { h with path := s },
    .required "free_func_group" [] string fun s h => { h with group := s },
    .optional "exclude" [] strings fun ss h => { h with exclude := ss }]

private def kinds : List (String × ConversionKind) :=
  [("handle", .handle), ("text", .text), ("class-descriptor", .classDescriptor)]

def typeEntry : Record D TypeEntry where
  title := "TypeDef"
  initial := ⟨"", .handle, none, none⟩
  fields := [
    .required "wrapper" [] string fun s t => { t with wrapper := s },
    .optional "kind" [] (Format.choice kinds) fun k t => { t with kind := k },
    .optional "value_cast" [] optionalString fun s? t => { t with valueCast? := s? },
    .optional "return_cast" [] optionalString fun s? t => { t with returnCast? := s? }]

def model : Record D Model where
  title := "Model"
  initial := .empty
  fields := [
    .optional "paths" [] (Format.record roots) fun r m => { m with roots := r },
    .optional "codegen" [] (Format.record options) fun o m => { m with options := o },
    .optional "classes" [] (Format.list (Format.record classEntry)) fun cs m =>
      { m with classes := cs },
    .optional "templates" [] (Format.list (Format.record templateEntry)) fun ts m =>
      { m with templates := ts },
    .optional "files" [] (Format.list (Format.record headerEntry)) fun hs m =>
      { m with headers := hs },
    .optional "types" [] (Format.table (Format.record typeEntry)) fun ts m =>
      { m with types := ts }]

end HeaderWrap.Model.Schema
