import HeaderWrap.Toml.Grammar

/-! Building the tables of a TOML document from its statements. No table is defined twice, and
what is written as one value is not extended. -/
namespace HeaderWrap.Toml

inductive Origin where
  /-- Named on the way to another table. -/
  | implied
  /-- By a header, or as the document itself. -/
  | header
  /-- By a dotted key. -/
  | dotted
  deriving DecidableEq

inductive Node where
  | value (v : Value)
  | table (origin : Origin) (entries : List (String × Node))
  /-- The items of an array of tables. -/
  | tables (items : List (List (String × Node)))
  deriving Inhabited

abbrev Entries := List (String × Node)

private def store (key : String) (node : Node) : Entries → Entries
  | [] => [(key, node)]
  | e :: es => if e.1 = key then (key, node) :: es else e :: store key node es

/-- What may be entered on the way along a path, and what is created there. The last item of an
array of tables may always be. -/
inductive Way where
  /-- Along a header: any table. -/
  | header
  /-- Along a dotted key: tables that no header defined. -/
  | dotted
  deriving DecidableEq

def within (way : Way) (change : Origin → Entries → Option Entries) :
    List String → Origin → Entries → Option Entries
  | [], origin, es => change origin es
  | key :: path, _, es =>
    match es.lookup key with
    | none => do
      let origin := if way = .header then .implied else .dotted
      let child ← within way change path origin []
      return store key (.table origin child) es
    | some (.table origin child) =>
      if way = .dotted ∧ origin = .header then none
      else do
        let child ← within way change path origin child
        return store key (.table origin child) es
    | some (.tables items) => do
      let child ← within way change path .header (items.getLast?.getD [])
      return store key (.tables (items.dropLast ++ [child])) es
    | some (.value _) => none

/-- Adds a pair to a table: a new key, in a table made by dotted keys if and only if its own path is
one. -/
private def addPair (path : List String) (name : String) (v : Value) : Origin → Entries → Option Entries :=
  within .dotted (fun origin es =>
    if (path = []) = (origin = .dotted) ∨ (es.lookup name).isSome then none
    else some (es ++ [(name, .value v)])) path

private def defineTable (name : String) (_ : Origin) (es : Entries) : Option Entries :=
  match es.lookup name with
  | none => some (store name (.table .header []) es)
  | some (.table .implied child) => some (store name (.table .header child) es)
  | some _ => none

private def beginItem (name : String) (_ : Origin) (es : Entries) : Option Entries :=
  match es.lookup name with
  | none => some (store name (.tables [[]]) es)
  | some (.tables items) => some (store name (.tables (items ++ [[]])) es)
  | some _ => none

mutual

private def Node.finish : Node → Value
  | .value v => v
  | .table _ es => .table (sortEntries (finishEntries es))
  | .tables items => .array (finishItems items)

private def finishEntries : List (String × Node) → List (String × Value)
  | [] => []
  | (key, node) :: es => (key, node.finish) :: finishEntries es

private def finishItems : List (List (String × Node)) → List Value
  | [] => []
  | es :: items => .table (sortEntries (finishEntries es)) :: finishItems items

end

mutual

def Term.value? : Term → Option Value
  | .value v => some v
  | .array items => (itemValues? items).map .array
  | .inlineTable pairs => (pairEntries? pairs []).map fun es =>
      .table (sortEntries (finishEntries es))

private def itemValues? : List Term → Option (List Value)
  | [] => some []
  | t :: ts => do return (← t.value?) :: (← itemValues? ts)

private def pairEntries? : List ((List String × String) × Term) → Entries → Option Entries
  | [], es => some es
  | ((path, name), t) :: pairs, es => do
    pairEntries? pairs (← addPair path name (← t.value?) .header es)

end

structure Progress where
  root : Entries
  current : List String

def Progress.step (p : Progress) : Statement → Option Progress
  | .table path name => do
    return ⟨← within .header (defineTable name) path .header p.root, path ++ [name]⟩
  | .arrayItem path name => do
    return ⟨← within .header (beginItem name) path .header p.root, path ++ [name]⟩
  | .pair path name t => do
    let v ← t.value?
    return { p with root := ← within .header (addPair path name v) p.current .header p.root }

def parse? (text : String) : Option Value := do
  let p ← (← statements? text).foldlM Progress.step ⟨[], []⟩
  return .table (sortEntries (finishEntries p.root))

end HeaderWrap.Toml
