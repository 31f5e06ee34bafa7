import Mathlib.Data.List.Count
import Mathlib.Data.List.Induction
import HeaderWrap.Template.Text

/-! Filling a template: each content goes to one site of its token, or is reported missing. Placing
the contents one after the other comes to the same as dealing them to the sites in their order. -/
namespace HeaderWrap.TemplateText

def takeContent? (token : String) :
    List (String × String) → Option (String × List (String × String))
  | [] => none
  | p :: ps =>
    if p.1 = token then some (p.2, ps)
    else (takeContent? token ps).map fun (content, rest) => (content, p :: rest)

/-- Gives each site in turn the first content left for its token, and returns what is left over. -/
def deal : List Site → List (String × String) →
    List (Site × Option String) × List (String × String)
  | [], contents => ([], contents)
  | s :: ss, contents =>
    match takeContent? s.name contents with
    | some (content, contents) =>
      let (slots, left) := deal ss contents
      ((s, some content) :: slots, left)
    | none =>
      let (slots, left) := deal ss contents
      ((s, none) :: slots, left)

/-- The first content for a token is taken out of a list, and leaves the others in their order. -/
theorem takeContent?_eq_some {token content : String} {contents left : List (String × String)}
    (h : takeContent? token contents = some (content, left)) :
    ∃ before after, contents = before ++ (token, content) :: after ∧ left = before ++ after ∧
      token ∉ before.map Prod.fst := by
  induction contents generalizing left with
  | nil => contradiction
  | cons p contents ih =>
    rw [takeContent?] at h
    split at h
    · rename_i own
      obtain ⟨rfl, rfl⟩ := Prod.mk.inj (Option.some.inj h)
      exact ⟨[], contents, by rw [← own]; rfl, rfl, List.not_mem_nil⟩
    · rename_i other
      obtain ⟨⟨content', left'⟩, taken, same⟩ := Option.map_eq_some_iff.mp h
      obtain ⟨rfl, rfl⟩ := Prod.mk.inj same
      obtain ⟨before, after, rfl, rfl, first⟩ := ih taken
      refine ⟨p :: before, after, rfl, rfl, ?_⟩
      rw [List.map_cons, List.mem_cons, not_or]
      exact ⟨Ne.symm other, first⟩

theorem not_mem_of_takeContent? {token : String} {contents : List (String × String)}
    (h : takeContent? token contents = none) : token ∉ contents.map Prod.fst := by
  induction contents with
  | nil => exact List.not_mem_nil
  | cons p contents ih =>
    rw [takeContent?] at h
    split at h
    · contradiction
    · rename_i other
      rw [List.map_cons, List.mem_cons, not_or]
      exact ⟨Ne.symm other, ih (Option.map_eq_none_iff.mp h)⟩

private theorem takeContent?_concat (token : String) (contents : List (String × String))
    (p : String × String) :
    takeContent? token (contents ++ [p]) =
      match takeContent? token contents with
      | some (content, left) => some (content, left ++ [p])
      | none => if p.1 = token then some (p.2, contents) else none := by
  induction contents with
  | nil =>
    rw [List.nil_append, takeContent?, takeContent?]
    rfl
  | cons q contents ih =>
    rw [List.cons_append, takeContent?, takeContent?, ih]
    by_cases own : q.1 = token
    · rw [if_pos own, if_pos own]
    · rw [if_neg own, if_neg own]
      cases takeContent? token contents with
      | some taken => rfl
      | none =>
        dsimp only
        split
        · rfl
        · rfl

/-- One more content goes to the first site of its token that is dealt none, or is left over. -/
theorem deal_concat (ss : List Site) (contents : List (String × String)) (p : String × String) :
    deal ss (contents ++ [p]) =
      match place? p.1 p.2 (deal ss contents).1 with
      | some slots => (slots, (deal ss contents).2)
      | none => ((deal ss contents).1, (deal ss contents).2 ++ [p]) := by
  induction ss generalizing contents with
  | nil => rfl
  | cons s ss ih =>
    rw [deal, deal, takeContent?_concat]
    cases takeContent? s.name contents with
    | some taken =>
      dsimp only
      rw [ih, place?, if_neg (by simp)]
      cases place? p.1 p.2 (deal ss taken.2).1 with
      | none => rfl
      | some slots => rfl
    | none =>
      dsimp only
      by_cases own : p.1 = s.name
      · rw [if_pos own, place?, if_pos ⟨own.symm, rfl⟩]
      · rw [if_neg own, place?, if_neg fun h => own h.1.symm]
        dsimp only
        rw [ih]
        cases place? p.1 p.2 (deal ss contents).1 with
        | none => rfl
        | some slots => rfl

private theorem deal_nil (ss : List Site) : deal ss [] = (ss.map (·, none), []) := by
  induction ss with
  | nil => rfl
  | cons s ss ih =>
    rw [deal, takeContent?]
    dsimp only
    rw [ih, List.map_cons]

/-- The sites end up with the same contents, and the same tokens are missing, if the contents are
placed one after the other or are dealt to the sites. -/
theorem assign_eq (ss : List Site) (contents : List (String × String)) :
    assign ss contents = ⟨(deal ss contents).1, (deal ss contents).2.map Prod.fst⟩ := by
  -- `assign` places the last content last, so the induction takes the contents off at their end
  induction contents using List.reverseRecOn with
  | nil =>
    rw [deal_nil]
    rfl
  | append_singleton contents p ih =>
    rw [assign, List.foldl_append, ← assign, ih, List.foldl_cons, List.foldl_nil, deal_concat,
      Assigned.give]
    dsimp only
    cases place? p.1 p.2 (deal ss contents).1 with
    | some slots => rfl
    | none =>
      dsimp only
      rw [List.map_append, List.map_singleton]

def received (site : Site × Option String) : Option (String × String) :=
  site.2.map (site.1.name, ·)

private theorem sites_deal (sites : List Site) (contents : List (String × String)) :
    (deal sites contents).1.map Prod.fst = sites := by
  fun_induction deal sites contents with
  | case1 => rfl
  | case2 s ss contents content left taken filled rest rec ih =>
    rw [rec] at ih
    rw [List.map_cons, ih]
  | case3 s ss contents taken filled rest rec ih =>
    rw [rec] at ih
    rw [List.map_cons, ih]

/-- No content is lost or repeated. -/
theorem deal_perm (sites : List Site) (contents : List (String × String)) :
    ((deal sites contents).1.filterMap received ++ (deal sites contents).2).Perm contents := by
  fun_induction deal sites contents with
  | case1 => rfl
  | case2 s ss contents content left taken filled rest rec ih =>
    obtain ⟨before, after, rfl, rfl, -⟩ := takeContent?_eq_some taken
    rw [rec] at ih
    exact (ih.cons (s.name, content)).trans List.perm_middle.symm
  | case3 s ss contents taken filled rest rec ih =>
    rw [rec] at ih
    exact ih

private theorem erase_of_takeContent? {token content : String} {contents left : List (String × String)}
    (h : takeContent? token contents = some (content, left)) :
    left.map Prod.fst = (contents.map Prod.fst).erase token := by
  obtain ⟨before, after, rfl, rfl, first⟩ := takeContent?_eq_some h
  rw [List.map_append, List.map_append, List.map_cons, List.erase_append_right _ first,
    List.erase_cons_head]

/-- The tokens of the contents that are left over, and those of the sites that receive none, are
what the tokens of the contents and of the sites have beyond each other. -/
theorem deal_rest (ss : List Site) (contents : List (String × String)) :
    (deal ss contents).2.map Prod.fst = (contents.map Prod.fst).diff (ss.map Site.name) ∧
    ((deal ss contents).1.filter (·.2.isNone)).map (·.1.name) =
      (ss.map Site.name).diff (contents.map Prod.fst) := by
  fun_induction deal ss contents with
  | case1 contents => exact ⟨rfl, (List.nil_diff _).symm⟩
  | case2 s ss contents content left taken filled rest rec ih =>
    obtain ⟨before, after, split, -⟩ := takeContent?_eq_some taken
    have held : s.name ∈ contents.map Prod.fst := by
      rw [split, List.map_append, List.map_cons]
      exact List.mem_append_right _ List.mem_cons_self
    rw [rec, erase_of_takeContent? taken] at ih
    rw [List.map_cons, List.diff_cons, List.cons_diff_of_mem held]
    exact ih
  | case3 s ss contents taken filled rest rec ih =>
    have apart := not_mem_of_takeContent? taken
    rw [rec] at ih
    rw [List.map_cons, List.diff_cons, List.cons_diff_of_not_mem apart,
      List.erase_of_not_mem apart]
    exact ⟨ih.1, congrArg (s.name :: ·) ih.2⟩

def dealt (t : TemplateText) (contents : List (String × String)) : List (Site × Option String) :=
  (assign t.sites contents).slots

theorem dealt_eq (t : TemplateText) (contents : List (String × String)) :
    t.dealt contents = (deal t.sites contents).1 := by
  rw [dealt, assign_eq]

theorem missing_eq (t : TemplateText) (contents : List (String × String)) :
    (t.fill contents).missing = (deal t.sites contents).2.map Prod.fst := by
  rw [fill, assign_eq]

theorem sites_dealt (t : TemplateText) (contents : List (String × String)) :
    (t.dealt contents).map Prod.fst = t.sites := by
  rw [dealt_eq, sites_deal]

/-- A site receives nothing but what is given for its name. -/
theorem mem_of_received {t : TemplateText} {contents : List (String × String)} {s : Site}
    {content : String} (h : (s, some content) ∈ t.dealt contents) : (s.name, content) ∈ contents := by
  rw [dealt_eq] at h
  refine (deal_perm t.sites contents).subset (List.mem_append_left _ ?_)
  exact List.mem_filterMap.mpr ⟨_, h, rfl⟩

/-- Only given tokens are missing. -/
theorem mem_of_missing {t : TemplateText} {contents : List (String × String)} {token : String}
    (h : token ∈ (t.fill contents).missing) : token ∈ contents.map Prod.fst := by
  rw [missing_eq] at h
  obtain ⟨p, left, rfl⟩ := List.mem_map.mp h
  exact List.mem_map_of_mem ((deal_perm t.sites contents).subset (List.mem_append_right _ left))

/-- A token is missing as often as it is given beyond the sites of its name. -/
theorem count_missing (t : TemplateText) (contents : List (String × String)) (token : String) :
    (t.fill contents).missing.count token =
      (contents.map Prod.fst).count token - t.tokens.count token := by
  rw [missing_eq, (deal_rest t.sites contents).1, List.count_diff]
  rfl

private theorem count_received (slots : List (Site × Option String)) (token content : String) :
    (slots.filterMap received).count (token, content) =
      (slots.map fun q => (q.1.name, q.2)).count (token, some content) := by
  induction slots with
  | nil => rfl
  | cons q slots ih =>
    obtain ⟨s, content?⟩ := q
    rw [List.map_cons, List.count_cons, ← ih]
    cases content? with
    | none =>
      rw [List.filterMap_cons_none rfl, if_neg (by simp), Nat.add_zero]
    | some content' =>
      have own : received (s, some content') = some (s.name, content') := rfl
      rw [List.filterMap_cons_some own, List.count_cons]
      simp

/-- A content is received as often as it is given, or its token is missing. -/
theorem count_dealt (t : TemplateText) (contents : List (String × String))
    (token content : String) :
    contents.count (token, content) ≤
        ((t.dealt contents).map fun q => (q.1.name, q.2)).count (token, some content) ∨
      token ∈ (t.fill contents).missing := by
  rw [← count_received, dealt_eq, missing_eq]
  by_cases left : (token, content) ∈ (deal t.sites contents).2
  · exact .inr (List.mem_map_of_mem left)
  · have dealt := (deal_perm t.sites contents).count_eq (token, content)
    rw [List.count_append, List.count_eq_zero_of_not_mem left, Nat.add_zero] at dealt
    exact .inl (Nat.le_of_eq dealt.symm)

end HeaderWrap.TemplateText
