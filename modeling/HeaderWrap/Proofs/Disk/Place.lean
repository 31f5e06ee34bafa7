import Mathlib.Data.Fintype.EquivFin
import HeaderWrap.Proofs.Disk.Tree

/-! The places that paths lead to, part by part and whatever is there. A path may lead above the
directory that it is taken from; one that is confined does not, wherever it is taken from. -/
namespace HeaderWrap

namespace Path

def pieces (s : List Char) : List String := ((s.splitOn '/').map String.ofList).filter (· ≠ "")

def names (path : String) : List String := pieces path.toList

def depth? (d : Nat) : List String → Option Nat
  | [] => some d
  | part :: parts =>
    if part = "." then depth? d parts
    else if part = ".." then if d = 0 then none else depth? (d - 1) parts
    else depth? (d + 1) parts

/-- A path that is relative, leads nowhere above the directory that it is taken from, and ends below
it. -/
def Confined (path : String) : Prop :=
  isAbsolute path = false ∧ ∃ d, depth? 0 (names path) = some (d + 1)

instance (path : String) : Decidable (Confined path) :=
  decidable_of_iff (isAbsolute path = false ∧ 0 < (depth? 0 (names path)).getD 0) <|
    and_congr_right fun _ => by
      cases depth? 0 (names path) with
      | none => simp
      | some d => cases d <;> simp

end Path

namespace Place

def step (here : Place) (part : String) : Place :=
  if part = "." then here else if part = ".." then here.dropLast else here ++ [part]

def walk (here : Place) (parts : List String) : Place := parts.foldl step here

def Below (directory place : Place) : Prop := directory <+: place ∧ place ≠ directory

def Apart (a b : Place) : Prop := ¬ a <+: b ∧ ¬ b <+: a

instance (directory place : Place) : Decidable (Below directory place) :=
  inferInstanceAs (Decidable (_ ∧ _))

instance (a b : Place) : Decidable (Apart a b) := inferInstanceAs (Decidable (_ ∧ _))

theorem Apart.not_below {a b place : Place} (apart : Apart a b) (h : Below a place) :
    ¬ Below b place := fun h' =>
  (List.prefix_or_prefix_of_prefix h.1 h'.1).elim apart.1 apart.2

private theorem walk_up (here : Place) {up : Place} (full : up ≠ []) (parts : List String) :
    walk (here ++ up) (".." :: parts) = walk (here ++ up.dropLast) parts := by
  rw [← List.dropLast_append_of_ne_nil full]
  rfl

private theorem walk_down {part : String} (dot : part ≠ ".") (dots : part ≠ "..") (here : Place)
    (parts : List String) : walk here (part :: parts) = walk (here ++ [part]) parts := by
  rw [walk, List.foldl_cons, step, if_neg dot, if_neg dots]
  rfl

/-- Parts with a depth lead that deep below the directory where they begin. -/
theorem walk_of_depth? {parts : List String} {d e : Nat} (h : Path.depth? d parts = some e)
    (here : Place) {up : Place} (deep : up.length = d) :
    ∃ rest, walk (here ++ up) parts = here ++ rest ∧ rest.length = e := by
  fun_induction Path.depth? d parts generalizing up with
  | case1 d => exact ⟨up, rfl, deep.trans (Option.some.inj h)⟩
  | case2 d parts ih => exact ih h deep
  | case3 parts => contradiction
  | case4 d parts _ above ih =>
    rw [walk_up here (List.ne_nil_of_length_pos (by omega))]
    exact ih h (by rw [List.length_dropLast, deep])
  | case5 d part parts dot dots ih =>
    rw [walk_down dot dots, List.append_assoc]
    exact ih h (by rw [List.length_append, deep, List.length_singleton])

private theorem not_mem_walk {n : String} {here : Place} {parts : List String} (free : n ∉ here)
    (fresh : n ∉ parts) : n ∉ walk here parts := by
  induction parts generalizing here with
  | nil => exact free
  | cons part parts ih =>
    obtain ⟨other, fresh⟩ := not_or.mp (mt List.mem_cons.mpr fresh)
    refine ih ?_ fresh
    unfold step
    split
    · exact free
    · split
      · exact fun mem => free (List.mem_of_mem_dropLast mem)
      · rw [List.mem_append, List.mem_singleton, not_or]
        exact ⟨free, other⟩

private theorem not_mem_walk_of_depth? {n : String} {parts : List String} {d : Nat}
    (h : Path.depth? d parts = none) (fresh : n ∉ parts) {up : Place} (free : n ∉ up)
    (deep : up.length = d) : n ∉ walk ([n] ++ up) parts := by
  fun_induction Path.depth? d parts generalizing up with
  | case1 d => contradiction
  | case2 d parts ih => exact ih h (List.not_mem_of_not_mem_cons fresh) free deep
  | case3 parts =>
    obtain rfl := List.eq_nil_of_length_eq_zero deep
    have start : n ∉ walk [] parts :=
      not_mem_walk List.not_mem_nil (List.not_mem_of_not_mem_cons fresh)
    exact start
  | case4 d parts _ above ih =>
    rw [walk_up [n] (List.ne_nil_of_length_pos (by omega))]
    exact ih h (List.not_mem_of_not_mem_cons fresh) (fun mem => free (List.mem_of_mem_dropLast mem))
      (by rw [List.length_dropLast, deep])
  | case5 d part parts dot dots ih =>
    obtain ⟨other, fresh⟩ := not_or.mp (mt List.mem_cons.mpr fresh)
    rw [walk_down dot dots, List.append_assoc]
    refine ih h fresh ?_ (by rw [List.length_append, deep, List.length_singleton])
    rw [List.mem_append, List.mem_singleton, not_or]
    exact ⟨free, other⟩

end Place

/-! ### Places in a tree -/

namespace Path

private theorem pieces_append (a b : List Char) : pieces (a ++ '/' :: b) = pieces a ++ pieces b := by
  rw [pieces, List.splitOn_append_cons_self, List.map_append, List.filter_append]
  rfl

private theorem pieces_nil : pieces [] = [] := rfl

private theorem names_eq_parts (path : String) :
    names path = ((parts path).reverse.map String.ofList).filter (· ≠ "") := by
  rw [parts, List.reverse_reverse]
  split
  · next absolute =>
    obtain ⟨s, rooted⟩ := List.head?_eq_some_iff.mp (beq_iff_eq.mp absolute)
    rw [names, rooted]
    exact pieces_append [] s
  · rfl

section
variable {path : String} (relative : isAbsolute path = false)
include relative

private theorem join_empty : join "" path = path := by
  rw [join, relative]
  simp

private theorem toList_join {base : String} (nonempty : base ≠ "") :
    ∃ s t, (join base path).toList = s ++ '/' :: path.toList ∧ base.toList = s ++ t ∧
      (t = [] ∨ t = ['/']) := by
  rw [join, relative, if_neg Bool.false_ne_true]
  by_cases slash : endsInSlash base
  · obtain ⟨s, ends⟩ := List.getLast?_eq_some_iff.mp (beq_iff_eq.mp slash)
    refine ⟨s, ['/'], ?_, ends, .inr rfl⟩
    simp [slash, ends]
  · exact ⟨base.toList, [], by simp [slash, nonempty], (List.append_nil _).symm, .inl rfl⟩

/-- A relative path adds its parts to those of the directory that it is taken from. -/
theorem names_join (base : String) : names (join base path) = names base ++ names path := by
  by_cases nonempty : base = ""
  · rw [nonempty, join_empty relative]
    rfl
  · obtain ⟨s, t, joined, split, none | slash⟩ := toList_join relative nonempty
    · rw [names, joined, pieces_append, names, split, none, List.append_nil]
      rfl
    · rw [names, joined, pieces_append, names, split, slash, pieces_append, pieces_nil,
        List.append_nil]
      rfl

private theorem isAbsolute_join (base : String) : isAbsolute (join base path) = isAbsolute base := by
  by_cases nonempty : base = ""
  · rw [nonempty, join_empty relative, relative]
    rfl
  · obtain ⟨s, t, joined, split, kind⟩ := toList_join relative nonempty
    rw [isAbsolute, joined, isAbsolute, split]
    cases s with
    | nil =>
      rcases kind with rfl | rfl
      · exact absurd (String.toList_eq_nil_iff.mp split) nonempty
      · rfl
    | cons c s => rfl

end

end Path

namespace FileTree
open Place

def place (t : FileTree) (path : String) : Place :=
  walk (if Path.isAbsolute path then [] else t.workingDirectory) (Path.names path)

variable {t : FileTree} {path : String}

private theorem place_join (relative : Path.isAbsolute path = false) (directory : String) :
    t.place (Path.join directory path) = walk (t.place directory) (Path.names path) := by
  rw [place, Path.isAbsolute_join relative, Path.names_join relative, walk, List.foldl_append]
  rfl

private theorem place_join_of_isAbsolute (absolute : Path.isAbsolute path) (directory : String) :
    t.place (Path.join directory path) = walk [] (Path.names path) := by
  rw [Path.join, if_pos absolute, place, if_pos absolute]

private theorem place_of_enter {here place : Place} {part : String}
    (entered : t.enter here part = .ok place) : place = step here part := by
  unfold enter at entered
  split at entered
  · contradiction
  · contradiction
  · unfold step
    split_ifs at entered ⊢
    all_goals exact (Except.ok.inj entered).symm

/-- What is found is where the path leads. -/
theorem place_of_locate {place : Place} (located : t.locate path = .ok place) :
    place = t.place path := by
  obtain ⟨parts, cut, followed⟩ := bind_eq_ok_iff.mp located
  obtain rfl : parts = Path.names path := by
    rw [Path.names_eq_parts]
    unfold partsOf at cut
    split_ifs at cut
    exact (Except.ok.inj cut).symm
  unfold follow at followed
  unfold FileTree.place
  generalize (if Path.isAbsolute path then [] else t.workingDirectory) = here at followed ⊢
  generalize Path.names path = parts at followed ⊢
  clear cut
  induction parts generalizing here with
  | nil => exact (Except.ok.inj followed).symm
  | cons part parts ih =>
    rw [List.foldlM_cons] at followed
    obtain ⟨next, entered, rest⟩ := bind_eq_ok_iff.mp followed
    rw [ih next rest, place_of_enter entered]
    rfl

theorem Extends.place {t' : FileTree} {written : Place → Prop} (h : t.Extends t' written)
    (path : String) : t'.place path = t.place path := by
  rw [FileTree.place, FileTree.place, h.workingDirectory]

end FileTree

/-- A path leads below every directory that it is taken from just if it is confined. -/
theorem Path.confined_iff {path : String} :
    Confined path ↔ ∀ (t : FileTree) directory,
      Place.Below (t.place directory) (t.place (join directory path)) := by
  constructor
  · rintro ⟨relative, d, deep⟩ t directory
    obtain ⟨rest, leads, length⟩ := Place.walk_of_depth? deep (t.place directory) List.length_nil
    rw [List.append_nil] at leads
    rw [FileTree.place_join relative, leads]
    refine ⟨List.prefix_append _ _, fun same => ?_⟩
    rw [List.append_right_eq_self] at same
    rw [same] at length
    contradiction
  · intro below
    obtain ⟨n, fresh⟩ := Infinite.exists_notMem_finset (names path).toFinset
    rw [List.mem_toFinset] at fresh
    -- a directory of that name, taken as the working directory
    have leads := below ⟨[n], ∅⟩ ""
    have home : FileTree.place ⟨[n], ∅⟩ "" = [n] := rfl
    rw [home] at leads
    cases absolute : isAbsolute path with
    | true =>
      rw [FileTree.place_join_of_isAbsolute absolute] at leads
      exact absurd (leads.1.subset List.mem_cons_self) (Place.not_mem_walk List.not_mem_nil fresh)
    | false =>
      rw [FileTree.place_join absolute, home] at leads
      refine ⟨absolute, ?_⟩
      cases deep : depth? 0 (names path) with
      | none =>
        exact absurd (leads.1.subset List.mem_cons_self)
          (Place.not_mem_walk_of_depth? deep fresh List.not_mem_nil List.length_nil)
      | some d =>
        cases d with
        | succ d => exact ⟨d, rfl⟩
        | zero =>
          obtain ⟨rest, back, length⟩ := Place.walk_of_depth? deep [n] List.length_nil
          obtain rfl := List.eq_nil_of_length_eq_zero length
          exact absurd back leads.2

/-! ### Where files are written -/

namespace Disk

/-- Whether a file can be written or not, no file changes but where its path leads. -/
theorem writeFile_extends (path text : String) (t : FileTree) :
    t.Extends ((writeFile (m := StateM FileTree) path text).run t).2 (· = t.place path) := by
  unfold writeFile
  rw [StateT.run_bind]
  have grown := onlyAdds_ensureAll (((Path.parent? path).map Path.directories).getD []) t
  generalize (ensureAll (m := StateM FileTree) _).run t = made at grown ⊢
  obtain ⟨result, t₁⟩ := made
  cases result with
  | error f => exact grown.mono nofun
  | ok =>
    refine (grown.mono nofun).trans ?_
    change t₁.Extends (FileTree.change (·.write path text.toUTF8) t₁).2 _
    unfold FileTree.change
    split
    · rename_i t₂ wrote
      obtain ⟨place, names, free, rfl⟩ := FileTree.write_eq_ok wrote
      have leads : place = t.place path :=
        (FileTree.place_of_locate names.2).trans (grown.place path)
      exact .put _ (.inl leads) fun node there => ⟨leads, fun directory => free (directory ▸ there)⟩
    · exact .refl t₁ _

theorem update_extends (path text : String) (t : FileTree) :
    t.Extends ((update (m := StateM FileTree) path text).run t).2 (· = t.place path) := by
  rw [run_update]
  split
  · exact .refl t _
  · exact writeFile_extends path text t

end Disk
end HeaderWrap
