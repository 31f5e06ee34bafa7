import HeaderWrap.Group
import HeaderWrap.Proofs.Table

/-! Laws of groups: adding functions to one group changes no other, and a group that is filled
under one prefix lists its functions in the order in which they were added. -/
namespace HeaderWrap

namespace Group

@[simp] theorem name_addAll (entity? : Option String) (g : Group) (fs : List Function) :
    (g.addAll entity? fs).name = g.name := by
  induction fs generalizing g with
  | nil => rfl
  | cons f fs ih => exact ih (g.add entity? f)

@[simp] theorem kind_addAll (entity? : Option String) (g : Group) (fs : List Function) :
    (g.addAll entity? fs).kind = g.kind := by
  induction fs generalizing g with
  | nil => rfl
  | cons f fs ih => exact ih (g.add entity? f)

theorem addAll_append (entity? : Option String) (g : Group) (fs fs' : List Function) :
    g.addAll entity? (fs ++ fs') = (g.addAll entity? fs).addAll entity? fs' :=
  List.foldl_append

/-- A group filled under one prefix holds the functions in the order they were added. -/
theorem functions_addAll {entity? : Option String} {g : Group} {fs : List Function}
    (one : g.buckets.entries = [(entity?, fs)]) (fs' : List Function) :
    (g.addAll entity? fs').functions = (fs ++ fs').map (entity?, ·) := by
  induction fs' generalizing g fs with
  | nil => simp [addAll, functions, one]
  | cons f fs' ih =>
    have keys : g.buckets.keys = [entity?] := by rw [Table.keys, one]; rfl
    have get : g.buckets.get? entity? = some fs := by simp [Table.get?, one]
    have next : (g.add entity? f).buckets.entries = [(entity?, fs ++ [f])] := by
      refine Table.entries_eq ?_ ?_
      · rw [add, Table.keys_upsert, keys]
        simp
      · intro e he
        obtain rfl : e = (entity?, fs ++ [f]) := by simpa using he
        rw [add, Table.get?_upsert, if_pos rfl, get]
        rfl
    rw [addAll, List.foldl_cons, ← addAll, ih next, List.append_assoc]
    rfl

theorem functions_filled (name : String) (kind : GroupKind) (entity? : Option String)
    (fs : List Function) :
    ((ofKind name kind).addAll entity? fs).functions = fs.map (entity?, ·) := by
  cases fs with
  | nil => rfl
  | cons f fs =>
    have one : ((ofKind name kind).add entity? f).buckets.entries = [(entity?, [f])] := rfl
    exact functions_addAll one fs

end Group

namespace Groups

theorem get?_addTo (gs : Groups) (name k : String) (entity? : Option String)
    (fs : List Function) :
    (gs.addTo name entity? fs).get? k =
      if k = name then (gs.get? name).map (·.addAll entity? fs) else gs.get? k :=
  Table.get?_modify gs name k _

theorem keys_addTo (gs : Groups) (name : String) (entity? : Option String) (fs : List Function) :
    (gs.addTo name entity? fs).keys = gs.keys :=
  Table.keys_modify gs name _

theorem get?_addFree (gs : Groups) (name k : String) (fs : List Function) :
    (gs.addFree name fs).get? k =
      if k = name then some ((gs.getOrFree name).addAll none fs) else gs.get? k :=
  Table.get?_upsert gs name k _

theorem ofClasses_concat (classes : List (String × String)) (c : String × String) :
    ofClasses (classes ++ [c]) = (ofClasses classes).put (.ofKind c.1 (.wrapper c.2)) := by
  rw [ofClasses, List.foldl_append]
  rfl

end Groups

end HeaderWrap
