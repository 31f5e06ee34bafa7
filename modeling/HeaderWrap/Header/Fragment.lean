import HeaderWrap.Header.Token
import HeaderWrap.Registry

/-! Resolving fragments of the shape `[const] [struct] type [*|&] [name]` into declarations. -/
namespace HeaderWrap.Header
open Text

structure Parts where
  isConst : Bool
  base : String
  modifier : Modifier
  name : String
  deriving DecidableEq, Repr

/-- Reads leading `const` and `struct`, each at most once, and says which were there. -/
def readQualifiers (isConst isStruct : Bool) : List Token → Option (Bool × Bool × List Token)
  | [] => some (isConst, isStruct, [])
  | t :: ts =>
    if t.text = "const".toList then if isConst then none else readQualifiers true isStruct ts
    else if t.text = "struct".toList then if isStruct then none else readQualifiers isConst true ts
    else some (isConst, isStruct, t :: ts)

def isModifier (t : Token) : Bool := t.kind = .star || t.kind = .amp

/-- Reads one `*` or `&`. A run of several, such as `**`, has no modifier of its own. -/
def readModifier : List Token → Option (Modifier × List Token)
  | [] => some (.plain, [])
  | t :: ts =>
    if isModifier t then
      if ts.head?.any isModifier then none
      else some (if t.kind = .star then .pointer else .reference, ts)
    else some (.plain, t :: ts)

/-- Reads what follows the base type: whether the last word of the type is the name instead, and
the name. -/
def readName (position : Position) (words : List (List Char)) (modifier : Modifier) :
    List Token → Option (List (List Char) × List Char)
  | [] =>
    if modifier = .plain ∧ position = .parameter ∧ 1 < words.length then
      some (words.dropLast, words.getLast?.getD [])
    else some (words, [])
  | [t] => if modifier ≠ .plain ∧ t.kind = .word then some (words, t.text) else none
  | _ => none

/-- A structure tag may differ from its type by one leading underscore. -/
def stripTag : List Char → List Char
  | '_' :: s => s
  | s => s

def lexemes (fragment : List Char) : List Token :=
  ((tokens .code fragment).filter (·.kind ≠ .newline)).map Token.bare

def partsOf? (position : Position) (ts : List Token) : Option Parts := do
  let (isConst, isStruct, rest) ← readQualifiers false false ts
  let words := (rest.takeWhile (·.kind = .word)).map Token.text
  guard (words ≠ [] ∧ !words.contains "const".toList ∧ !words.contains "struct".toList)
  let (modifier, rest) ← readModifier (rest.dropWhile (·.kind = .word))
  let (words, name) ← readName position words modifier rest
  let base := List.intercalate [' '] words
  return ⟨isConst, String.ofList (if isStruct then stripTag base else base), modifier,
    String.ofList name⟩

def parts? (position : Position) (fragment : String) : Option Parts :=
  partsOf? position (lexemes fragment.toList)

def wrapperType? (registry : Registry) (position : Position) (p : Parts) : Option String :=
  (registry.get? p.base).map fun c =>
    (if p.isConst then "const " else "") ++ c.typeAt position p.modifier

def resolve (registry : Registry) (position : Position) (fragment : String) : Declaration :=
  match parts? position fragment with
  | some p => .resolved p.base p.modifier p.isConst p.name (wrapperType? registry position p)
  | none => .unresolved fragment

theorem resolve_of_parts {position : Position} {fragment : String} {p : Parts}
    (read : parts? position fragment = some p) (registry : Registry) :
    resolve registry position fragment =
      .resolved p.base p.modifier p.isConst p.name (wrapperType? registry position p) := by
  rw [resolve, read]

/-- Another fragment stands for the same declaration just if it has the same parts. -/
theorem resolve_eq_resolve_iff {position : Position} {fragment other : String} {p : Parts}
    (read : parts? position fragment = some p) (registry : Registry) :
    resolve registry position other = resolve registry position fragment ↔
      parts? position other = some p := by
  constructor
  · intro same
    cases again : parts? position other with
    | none =>
      rw [resolve_of_parts read, resolve, again] at same
      contradiction
    | some q =>
      rw [resolve_of_parts read, resolve_of_parts again] at same
      obtain ⟨base, modifier, isConst, name, -⟩ := Declaration.resolved.inj same
      cases p
      cases q
      simp_all
  · intro again
    rw [resolve_of_parts read, resolve_of_parts again]

theorem isResolved_resolve (registry : Registry) (position : Position) (fragment : String) :
    (resolve registry position fragment).isResolved = (parts? position fragment).isSome := by
  rw [resolve]
  cases parts? position fragment with
  | none => rfl
  | some p => rfl

end HeaderWrap.Header
