import HeaderWrap.Proofs.Lists
import HeaderWrap.Proofs.Template.Patching

/-! Which content stands at which site: the sites of a token receive its contents in order. A token
with more contents than sites is missing once for each content left over, and one with more sites
than contents is unresolved. -/
namespace HeaderWrap

/-- Each element of a list with the number of equal ones in front of it. -/
def ranked (l : List String) : List (String × Nat) :=
  l.zipIdx.map fun (a, k) => (a, (l.take k).count a)

private theorem ranked_cons (a : String) (l : List String) :
    ranked (a :: l) = (a, 0) :: (ranked l).map fun (b, n) => (b, if a = b then n + 1 else n) := by
  rw [ranked, List.zipIdx_cons, List.zipIdx_succ, List.map_cons, List.map_map, ranked, List.map_map]
  congr 2
  funext ⟨b, k⟩
  dsimp only [Function.comp_apply]
  rw [List.take_succ_cons, List.count_cons]
  by_cases same : a = b
  · simp [same]
  · simp [same]

/-- The elements of a list with as many equal ones in front of them as another list holds, or
more. -/
def surplus (l other : List String) : List String :=
  ((ranked l).filter fun p => other.count p.1 ≤ p.2).map Prod.fst

private theorem surplus_cons (a : String) (l other : List String) :
    surplus (a :: l) other =
      if a ∈ other then surplus l (other.erase a) else a :: surplus l other := by
  have later : (((ranked l).map fun (b, n) => (b, if a = b then n + 1 else n)).filter
      fun p => other.count p.1 ≤ p.2).map Prod.fst = surplus l (other.erase a) := by
    have same : ((fun p => decide (other.count p.1 ≤ p.2)) ∘
        fun (b, n) => (b, if a = b then n + 1 else n)) =
        fun p => decide ((other.erase a).count p.1 ≤ p.2) := by
      funext ⟨b, n⟩
      dsimp only [Function.comp_apply]
      by_cases same : a = b
      · simp [same]
      · simp [same, List.count_erase]
    rw [List.filter_map, same, List.map_map]
    rfl
  rw [surplus, ranked_cons, List.filter_cons]
  split
  · rename_i first
    have apart : a ∉ other := List.count_eq_zero.mp (by simpa using first)
    rw [List.map_cons, later, if_neg apart, List.erase_of_not_mem apart]
  · rename_i first
    have held : a ∈ other := List.count_pos_iff.mp (Nat.pos_of_ne_zero (by simpa using first))
    rw [later, if_pos held]

private theorem surplus_eq_diff (l other : List String) : surplus l other = l.diff other := by
  induction l generalizing other with
  | nil => rw [List.nil_diff]; rfl
  | cons a l ih => rw [surplus_cons, List.cons_diff, ih, ih]

namespace TemplateText

def given (contents : List (String × String)) (token : String) : List String :=
  (contents.filter (·.1 = token)).map Prod.snd

private theorem given_append (before after : List (String × String)) (token : String) :
    given (before ++ after) token = given before token ++ given after token := by
  rw [given, List.filter_append, List.map_append]
  rfl

private theorem given_cons (p : String × String) (contents : List (String × String)) (token : String) :
    given (p :: contents) token =
      if p.1 = token then p.2 :: given contents token else given contents token := by
  by_cases own : p.1 = token
  · simp [given, own]
  · simp [given, own]

private theorem length_given (contents : List (String × String)) (token : String) :
    (given contents token).length = (contents.map Prod.fst).count token := by
  rw [given, List.length_map, List.count_eq_length_filter, List.filter_map, List.length_map]
  rfl

private theorem given_eq_nil_iff {contents : List (String × String)} {token : String} :
    given contents token = [] ↔ token ∉ contents.map Prod.fst := by
  rw [← List.length_eq_zero_iff, length_given, List.count_eq_zero]

private theorem given_of_takeContent? {token content : String} {contents left : List (String × String)}
    (h : takeContent? token contents = some (content, left)) (other : String) :
    given contents other = if token = other then content :: given left other else given left other := by
  obtain ⟨before, after, rfl, rfl, first⟩ := takeContent?_eq_some h
  rw [given_append, given_append, given_cons]
  split
  · rename_i own
    rw [← own, given_eq_nil_iff.mpr first]
    rfl
  · rfl

/-- What sites of the given names receive: of those with one name each receives the content that has
as many contents for that name in front of it as the site has sites. -/
def allot (names : List String) (contents : List (String × String)) : List (Option String) :=
  (ranked names).map fun (name, n) => (given contents name)[n]?

private theorem allot_cons (name : String) (names : List String) (contents left : List (String × String))
    (h : ∀ other, given left other = (given contents other).drop (if name = other then 1 else 0)) :
    allot (name :: names) contents = (given contents name)[0]? :: allot names left := by
  rw [allot, ranked_cons, List.map_cons, List.map_map, allot]
  congr 2
  funext ⟨other, n⟩
  dsimp only [Function.comp_apply]
  rw [h, List.getElem?_drop]
  split
  · rw [Nat.add_comm]
  · rw [Nat.zero_add]

private theorem deal_sites (ss : List Site) (contents : List (String × String)) :
    (deal ss contents).1 = ss.zip (allot (ss.map Site.name) contents) := by
  fun_induction deal ss contents with
  | case1 => rfl
  | case2 s ss contents content left taken filled rest rec ih =>
    have given (other : String) := given_of_takeContent? taken other
    rw [rec] at ih
    dsimp only at ih
    rw [ih, List.map_cons, allot_cons _ _ _ left, List.zip_cons_cons, given, if_pos rfl]
    · rfl
    · intro other
      rw [given other]
      split
      · rfl
      · rfl
  | case3 s ss contents taken filled rest rec ih =>
    have none := given_eq_nil_iff.mpr (not_mem_of_takeContent? taken)
    rw [rec] at ih
    dsimp only at ih
    rw [ih, List.map_cons, allot_cons _ _ _ contents, List.zip_cons_cons, none]
    · rfl
    · intro other
      split
      · rename_i own
        rw [← own, none, List.drop_nil]
      · rfl

private theorem dealt_eq_zip (t : TemplateText) (contents : List (String × String)) :
    t.dealt contents = t.sites.zip (allot t.tokens contents) := by
  rw [dealt_eq, deal_sites]
  rfl

private theorem length_allot (names : List String) (contents : List (String × String)) :
    (allot names contents).length = names.length := by
  rw [allot, ranked, List.length_map, List.length_map, List.length_zipIdx]

/-- The spots receive the contents that are allotted to the sites of their names. -/
theorem placed_eq_zip (t : TemplateText) (contents : List (String × String)) :
    t.placed contents = t.spots.zip (allot t.tokens contents) := by
  rw [placed, dealt_eq_zip, List.map_snd_zip]
  rw [length_allot, tokens, List.length_map]

/-- Only the contents of each token count, not how those of different tokens are mixed. -/
theorem dealt_congr (t : TemplateText) {contents others : List (String × String)}
    (h : ∀ token, given others token = given contents token) :
    t.dealt others = t.dealt contents := by
  have same : given others = given contents := funext h
  rw [dealt_eq_zip, dealt_eq_zip, allot, allot, same]

private theorem unresolved_eq (t : TemplateText) (contents : List (String × String)) :
    (t.fill contents).unresolved = (surplus t.tokens (contents.map Prod.fst)).eraseDups := by
  rw [surplus_eq_diff, fill, assign_eq]
  exact congrArg List.eraseDups (deal_rest t.sites contents).2

private theorem mem_unresolved_iff (t : TemplateText) (contents : List (String × String)) (token : String) :
    token ∈ (t.fill contents).unresolved ↔
      (contents.map Prod.fst).count token < t.tokens.count token := by
  rw [t.unresolved_eq, surplus_eq_diff, List.mem_eraseDups, ← List.count_pos_iff, List.count_diff,
    Nat.sub_pos_iff_lt]

private theorem missing_perm (t : TemplateText) {contents others : List (String × String)}
    (h : ∀ token, given others token = given contents token) :
    (t.fill others).missing.Perm (t.fill contents).missing := by
  rw [List.perm_iff_count]
  intro token
  rw [t.count_missing, t.count_missing, ← length_given, ← length_given, h]

/-- The sites of a token receive its contents one by one, and the filled text is the source with
these contents in the place of their sites, each line behind the indent of the site. A content for
which no site is left is missing, in the order of the contents, and a token with a site for which no
content is left is unresolved, in the order of the sites. So contents of different tokens can change
places. -/
theorem fill_allots (text : String) (contents : List (String × String)) :
    let t := parse text
    let placed := t.spots.zip (allot t.tokens contents)
    (t.spots.map Spot.name = t.tokens ∧ Laid text.toList 0 t.spots ∧
      placed.map Prod.fst = t.spots ∧ InOrder text.toList.length 0 (editsOf text.toList placed) ∧
      (t.fill contents).text = String.ofList (patch text.toList 0 (editsOf text.toList placed)) ∧
      ∀ p content, (p, some content) ∈ placed →
        ∃ e ∈ editsOf text.toList placed, e.Shows text.toList p content) ∧
    (t.fill contents).missing = surplus (contents.map Prod.fst) t.tokens ∧
    (t.fill contents).unresolved = (surplus t.tokens (contents.map Prod.fst)).eraseDups ∧
    (t.fill contents).unresolved.Nodup ∧
    (∀ token, token ∈ (t.fill contents).unresolved ↔
      (contents.map Prod.fst).count token < t.tokens.count token) ∧
    ∀ others, (∀ token, given others token = given contents token) →
      (t.fill others).text = (t.fill contents).text ∧
      (t.fill others).unresolved = (t.fill contents).unresolved ∧
      (t.fill others).missing.Perm (t.fill contents).missing := by
  intro t placed
  have whole : t.source = text := source_parse text
  have same : t.placed contents = placed := t.placed_eq_zip contents
  have laid : Laid text.toList 0 (placed.map Prod.fst) := same ▸ whole ▸ t.laid_placed contents
  refine ⟨⟨map_name_spotsFrom 0 _, whole ▸ t.laid_spots, same ▸ t.map_fst_placed contents,
    inOrder_editsOf laid (Nat.le_refl 0), ?_, fun p content => exists_edit laid⟩,
    ?_, t.unresolved_eq contents, ?_, t.mem_unresolved_iff contents, fun others h => ?_⟩
  · rw [t.text_fill contents, whole, same]
  · rw [t.missing_eq contents, surplus_eq_diff]
    exact (deal_rest t.sites contents).1
  · rw [t.unresolved_eq]
    exact nodup_eraseDups _
  · have same := t.dealt_congr h
    refine ⟨?_, ?_, t.missing_perm h⟩
    · rw [t.text_fill, t.text_fill, TemplateText.placed, same]
      rfl
    · exact congrArg (fun dealt => ((dealt.filter (·.2.isNone)).map (·.1.name)).eraseDups) same

/-- A content of another token moves behind the contents of a token. The first content for the token
stands at its only site, each line behind the indent. -/
theorem fill_allots_moved :
    let t := parse "  %%A%%|%%C%%"
    let contents := [("A", "1;\n2;"), ("B", "2"), ("A", "3")]
    let others := [("A", "1;\n2;"), ("A", "3"), ("B", "2")]
    (∀ token, given others token = given contents token) ∧
      (t.fill contents).text = "  1;\n  2;|%%C%%" ∧
      (t.fill contents).missing = ["B", "A"] ∧ (t.fill others).missing = ["A", "B"] ∧
      (t.fill others).text = (t.fill contents).text ∧
      (t.fill others).unresolved = (t.fill contents).unresolved ∧
      (t.fill others).missing.Perm (t.fill contents).missing := by
  intro t contents others
  have same : ∀ token, given others token = given contents token := by
    intro token
    by_cases own : "A" = token
    · subst own
      decide
    · simp [given, others, contents, List.filter_cons, own]
  obtain ⟨⟨-, -, -, -, patched, -⟩, -, -, -, -, moved⟩ := fill_allots "  %%A%%|%%C%%" contents
  exact ⟨same, patched.trans (by decide), by decide, by decide, moved others same⟩

end TemplateText

end HeaderWrap
