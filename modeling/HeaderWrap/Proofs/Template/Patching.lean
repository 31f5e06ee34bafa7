import Mathlib.Data.List.TakeWhile
import HeaderWrap.Proofs.Header.Words
import HeaderWrap.Proofs.Lists
import HeaderWrap.Proofs.Template.Filling

/-! A filled template is its source with some parts replaced: a site that receives a content gives
up the part from its indent to its end, and all other text is copied. -/
namespace HeaderWrap
open Text

def slice (source : List Char) (start stop : Nat) : List Char := (source.take stop).drop start

private theorem slice_left (s r : List Char) (i : Nat) : slice (s ++ r) i s.length = s.drop i := by
  rw [slice, List.take_left]

private theorem slice_between (s m r : List Char) :
    slice (s ++ (m ++ r)) s.length (s.length + m.length) = m := by
  rw [← List.append_assoc, ← List.length_append, slice_left, List.drop_left]

structure Edit where
  start : Nat
  stop : Nat
  text : List Char
  deriving DecidableEq, Repr

/-- Copies a text from a position on, but puts each edit in the place of its part. -/
def patch (source : List Char) : Nat → List Edit → List Char
  | pos, [] => source.drop pos
  | pos, e :: es => slice source pos e.start ++ e.text ++ patch source e.stop es

/-- Each edit begins behind the one before, so that a text is cut from left to right. -/
def InOrder (length : Nat) : Nat → List Edit → Prop
  | pos, [] => pos ≤ length
  | pos, e :: es => pos ≤ e.start ∧ e.start ≤ e.stop ∧ InOrder length e.stop es

def lineStart (source : List Char) (pos : Nat) : Nat :=
  pos - ((source.take pos).reverse.takeWhile (· ≠ '\n')).length

/-- Where a site stands: its line as far as it belongs to the site, and its mark. -/
structure Spot where
  name : String
  lineStart : Nat
  start : Nat
  stop : Nat
  deriving DecidableEq, Repr

def markOf (token : String) : String := "%%" ++ token ++ "%%"

/-- The spots stand in their order behind a position. A line begins where it does in the text, or
behind the site before if that is on the line. -/
def Laid (source : List Char) : Nat → List Spot → Prop
  | pos, [] => pos ≤ source.length
  | pos, p :: ps =>
    p.lineStart = max pos (lineStart source p.start) ∧ p.lineStart ≤ p.start ∧ p.start < p.stop ∧
      slice source p.start p.stop = (markOf p.name).toList ∧ Laid source p.stop ps

/-- What the sites that receive a content are replaced by. -/
def editsOf (source : List Char) (spots : List (Spot × Option String)) : List Edit :=
  spots.filterMap fun (p, content?) => content?.map fun content =>
    ⟨p.lineStart, p.stop,
      TemplateText.indentLines (slice source p.lineStart p.start) content.toList⟩

private theorem newline_not_mem_slice {source : List Char} {i pos : Nat} (h : lineStart source pos ≤ i) :
    '\n' ∉ slice source i pos := by
  intro newline
  rw [lineStart] at h
  rw [slice] at newline
  generalize front : source.take pos = l at h newline
  have short : l.length ≤ pos := front ▸ List.length_take_le pos source
  have split := reverse_split (· ≠ '\n') l
  have lengths := congrArg List.length split
  rw [List.length_append, List.length_reverse, List.length_reverse] at lengths
  have behind : (l.reverse.dropWhile (· ≠ '\n')).reverse.length ≤ i := by
    rw [List.length_reverse]
    omega
  rw [← split] at newline
  have last := List.drop_subset_drop_left _ behind newline
  rw [List.drop_left] at last
  have other := List.mem_takeWhile_imp (List.mem_reverse.mp last)
  rw [decide_eq_true_eq] at other
  exact other rfl

private theorem Laid.lineStart_le {source : List Char} {pos : Nat} {spots : List Spot}
    (h : Laid source pos spots) : ∀ p ∈ spots, lineStart source p.start ≤ p.lineStart := by
  induction spots generalizing pos with
  | nil => exact fun p hp => absurd hp List.not_mem_nil
  | cons q spots ih =>
    obtain ⟨first, -, -, -, later⟩ := h
    intro p hp
    rcases List.mem_cons.mp hp with rfl | hp
    · exact first ▸ Nat.le_max_right _ _
    · exact ih later p hp

private theorem editsOf_none (source : List Char) (p : Spot) (placed : List (Spot × Option String)) :
    editsOf source ((p, none) :: placed) = editsOf source placed := rfl

private theorem editsOf_some (source : List Char) (p : Spot) (content : String)
    (placed : List (Spot × Option String)) :
    editsOf source ((p, some content) :: placed) =
      ⟨p.lineStart, p.stop,
        TemplateText.indentLines (slice source p.lineStart p.start) content.toList⟩ ::
        editsOf source placed := rfl

theorem inOrder_editsOf {source : List Char} {placed : List (Spot × Option String)}
    {pos cursor : Nat} (h : Laid source pos (placed.map Prod.fst)) (le : cursor ≤ pos) :
    InOrder source.length cursor (editsOf source placed) := by
  induction placed generalizing pos cursor with
  | nil => exact Nat.le_trans le h
  | cons q placed ih =>
    obtain ⟨p, content?⟩ := q
    obtain ⟨first, order, proper, -, later⟩ := h
    dsimp only at first order proper later
    have behind : pos ≤ p.lineStart := first ▸ Nat.le_max_left _ _
    cases content? with
    | none => exact ih later (by omega)
    | some content =>
      exact ⟨Nat.le_trans le behind, Nat.le_trans order (Nat.le_of_lt proper),
        ih later (Nat.le_refl _)⟩

namespace TemplateText

private theorem splitOn_indentLines {indent : List Char} (h : '\n' ∉ indent) (content : List Char) :
    (indentLines indent content).splitOn '\n' = (content.splitOn '\n').map (indent ++ ·) := by
  apply List.splitOn_intercalate
  · intro line hline
    obtain ⟨l, hl, rfl⟩ := List.mem_map.mp hline
    rw [List.mem_append, not_or]
    exact ⟨h, not_mem_of_mem_splitOn hl⟩
  · exact mt List.map_eq_nil_iff.mp (List.splitOn_ne_nil _ _)

end TemplateText

/-- An edit shows a text at a spot: in the place of the spot, from where its line begins, stand the
lines of the text, each behind the indent of the spot. -/
structure Edit.Shows (e : Edit) (source : List Char) (p : Spot) (text : String) : Prop where
  start : e.start = p.lineStart
  stop : e.stop = p.stop
  lines : e.text.splitOn '\n' =
    (text.toList.splitOn '\n').map (slice source p.lineStart p.start ++ ·)

/-- What a spot receives is shown there. -/
theorem exists_edit {source : List Char} {pos : Nat} {placed : List (Spot × Option String)}
    (laid : Laid source pos (placed.map Prod.fst)) {p : Spot} {content : String}
    (h : (p, some content) ∈ placed) : ∃ e ∈ editsOf source placed, e.Shows source p content := by
  have line := newline_not_mem_slice (laid.lineStart_le p (List.mem_map_of_mem h))
  exact ⟨_, List.mem_filterMap.mpr ⟨_, h, rfl⟩, rfl, rfl,
    TemplateText.splitOn_indentLines line content.toList⟩

namespace Site

theorem before_append_indent (s : Site) : s.before ++ s.indent = s.lead :=
  reverse_split _ s.lead

private theorem length_lead (s : Site) : s.lead.length = s.before.length + s.indent.length := by
  rw [← List.length_append, s.before_append_indent]

private theorem mark_eq (s : Site) : s.mark = (markOf s.name).toList := by
  simp [mark, markOf]

private theorem max_lineStart (s : Site) (spelled r : List Char) :
    max spelled.length (lineStart (spelled ++ (s.lead ++ r)) (spelled.length + s.lead.length)) =
      spelled.length + s.before.length := by
  have split := s.length_lead
  have front : (spelled ++ (s.lead ++ r)).take (spelled.length + s.lead.length) =
      spelled ++ s.lead := by
    rw [← List.append_assoc, ← List.length_append, List.take_left]
  rw [lineStart, front, List.reverse_append, List.takeWhile_append]
  rw [indent, List.length_reverse] at split
  split
  · rename_i whole
    rw [List.length_append, List.length_reverse] at *
    omega
  · omega

private theorem slice_before (s : Site) (spelled r : List Char) {i : Nat} (le : i ≤ spelled.length) :
    slice (spelled ++ (s.lead ++ r)) i (spelled.length + s.before.length) =
      spelled.drop i ++ s.before := by
  have line : spelled ++ (s.lead ++ r) = (spelled ++ s.before) ++ (s.indent ++ r) := by
    rw [← s.before_append_indent]
    simp only [List.append_assoc]
  rw [line, ← List.length_append, slice_left, List.drop_append_of_le_length le]

private theorem slice_indent (s : Site) (spelled r : List Char) :
    slice (spelled ++ (s.lead ++ r)) (spelled.length + s.before.length)
      (spelled.length + s.lead.length) = s.indent := by
  have line := slice_between (spelled ++ s.before) s.indent r
  rw [List.length_append, Nat.add_assoc, ← s.length_lead, List.append_assoc,
    ← List.append_assoc s.before, s.before_append_indent] at line
  exact line

end Site

namespace TemplateText

def spell (sites : List Site) (rest : List Char) : List Char :=
  (sites.flatMap fun s => s.lead ++ s.mark) ++ rest

theorem spell_cons (s : Site) (ss : List Site) (rest : List Char) :
    spell (s :: ss) rest = s.lead ++ (s.mark ++ spell ss rest) := by
  simp only [spell, List.flatMap_cons, List.append_assoc]

def spotsFrom : Nat → List Site → List Spot
  | _, [] => []
  | pos, s :: ss =>
    let start := pos + s.lead.length
    let stop := start + s.mark.length
    ⟨s.name, pos + s.before.length, start, stop⟩ :: spotsFrom stop ss

theorem map_name_spotsFrom (pos : Nat) (ss : List Site) :
    (spotsFrom pos ss).map Spot.name = ss.map Site.name := by
  induction ss generalizing pos with
  | nil => rfl
  | cons s ss ih => rw [spotsFrom, List.map_cons, List.map_cons, ih]

theorem laid_spotsFrom (spelled : List Char) (ss : List Site) (rest : List Char) :
    Laid (spelled ++ spell ss rest) spelled.length (spotsFrom spelled.length ss) := by
  induction ss generalizing spelled with
  | nil =>
    rw [spotsFrom, Laid, List.length_append]
    exact Nat.le_add_right _ _
  | cons s ss ih =>
    have later := ih (spelled ++ s.lead ++ s.mark)
    have mark := slice_between (spelled ++ s.lead) s.mark (spell ss rest)
    have split := s.length_lead
    simp only [List.length_append, List.append_assoc] at later mark
    rw [spell_cons, spotsFrom, Laid]
    refine ⟨(s.max_lineStart spelled _).symm, ?_, ?_, ?_, ?_⟩
    · dsimp only
      omega
    · simp [Site.mark]
    · exact mark.trans s.mark_eq
    · rw [Nat.add_assoc]
      exact later

/-- Behind a position the edits turn the text into the filled sites. -/
theorem patch_editsOf (filled : List (Site × Option String)) (rest spelled : List Char)
    {cursor : Nat} (le : cursor ≤ spelled.length) :
    patch (spelled ++ spell (filled.map Prod.fst) rest) cursor
        (editsOf (spelled ++ spell (filled.map Prod.fst) rest)
          ((spotsFrom spelled.length (filled.map Prod.fst)).zip (filled.map Prod.snd))) =
      spelled.drop cursor ++ (filled.flatMap fillSite ++ rest) := by
  induction filled generalizing spelled cursor with
  | nil => exact List.drop_append_of_le_length le
  | cons q filled ih =>
    obtain ⟨s, content?⟩ := q
    have stop : spelled.length + s.lead.length + s.mark.length =
        (spelled ++ s.lead ++ s.mark).length := by
      simp only [List.length_append]
    have whole : spelled ++ spell (s :: filled.map Prod.fst) rest =
        spelled ++ s.lead ++ s.mark ++ spell (filled.map Prod.fst) rest := by
      simp only [spell_cons, List.append_assoc]
    have later {cursor : Nat} (le : cursor ≤ (spelled ++ s.lead ++ s.mark).length) :=
      ih (spelled ++ s.lead ++ s.mark) le
    rw [← whole, ← stop] at later
    rw [List.flatMap_cons, List.map_cons, List.map_cons, spotsFrom, List.zip_cons_cons]
    cases content? with
    | none =>
      rw [editsOf_none, later (by omega), List.append_assoc, List.drop_append_of_le_length le,
        fillSite]
      simp only [List.append_assoc]
    | some content =>
      rw [editsOf_some, patch, later (Nat.le_refl _), stop, List.drop_length, spell_cons]
      dsimp only
      rw [s.slice_before spelled _ le, s.slice_indent, fillSite]
      simp only [List.append_assoc, List.nil_append]

/-- The name that a text begins with, and the text behind its mark. -/
theorem named?_eq_some {c : Char} {s name : List Char} (h : Site.named? (c :: s) = some name) :
    isWord name ∧
      c :: s = '%' :: '%' :: name ++ ['%', '%'] ++ s.drop (name.length + 3) := by
  unfold Site.named? at h
  split at h
  · rename_i r same
    obtain ⟨rfl, rfl⟩ := List.cons.inj same
    dsimp only at h
    split at h
    · rename_i named
      obtain rfl := Option.some.inj h
      obtain ⟨behind, split⟩ := List.isPrefixOf_iff_prefix.mp named.2
      have whole : r.takeWhile isWordChar ++ ['%', '%'] ++ behind = r := by
        rw [List.append_assoc, split, List.takeWhile_append_dropWhile]
      have rest : ('%' :: r).drop ((r.takeWhile isWordChar).length + 3) = behind := by
        generalize r.takeWhile isWordChar = name at whole
        rw [← whole, List.drop_succ_cons]
        exact List.drop_left' List.length_append
      refine ⟨isWord_iff.mpr ⟨named.1, fun d hd => List.mem_takeWhile_imp hd⟩, ?_⟩
      rw [rest, List.cons_append, List.cons_append, List.cons_append, List.cons_append, whole]
    · contradiction
  · contradiction

theorem spell_consChar (c : Char) (t : TemplateText) :
    spell (consChar c t).sites (consChar c t).rest = c :: spell t.sites t.rest := by
  obtain ⟨sites, rest⟩ := t
  cases sites with
  | nil => rfl
  | cons s ss => rfl

theorem spell_consSite (name : List Char) (t : TemplateText) :
    spell (consSite name t).sites (consSite name t).rest =
      '%' :: '%' :: name ++ ['%', '%'] ++ spell t.sites t.rest := by
  rw [consSite, spell_cons, Site.mark, String.toList_ofList]
  rfl

theorem spell_parseFrom (n : Nat) (s : List Char) :
    spell (parseFrom n s).sites (parseFrom n s).rest = s.drop n := by
  fun_induction parseFrom n s with
  | case1 => rw [List.drop_nil]; rfl
  | case2 n c s ih => exact ih
  | case3 c s name named ih =>
    rw [spell_consSite, ih]
    exact (named?_eq_some named).2.symm
  | case4 c s named ih =>
    rw [spell_consChar, ih]
    rfl

/-- A template is cut into pieces without any loss. -/
theorem source_parse (text : String) : (parse text).source = text :=
  (congrArg String.ofList (spell_parseFrom 0 text.toList)).trans (String.ofList_toList)

theorem tokens_consChar (c : Char) (t : TemplateText) : (consChar c t).tokens = t.tokens := by
  obtain ⟨sites, rest⟩ := t
  cases sites with
  | nil => rfl
  | cons s ss => rfl

/-- Only a word names a site. -/
theorem isWord_token (n : Nat) (s : List Char) :
    ∀ token ∈ (parseFrom n s).tokens, isWord token.toList := by
  fun_induction parseFrom n s with
  | case1 => exact fun token h => absurd h List.not_mem_nil
  | case2 n c s ih => exact ih
  | case3 c s name named ih =>
    intro token h
    rcases List.mem_cons.mp h with rfl | h
    · rw [String.toList_ofList]
      exact (named?_eq_some named).1
    · exact ih token h
  | case4 c s named ih =>
    rw [tokens_consChar]
    exact ih

def spots (t : TemplateText) : List Spot := spotsFrom 0 t.sites

def placed (t : TemplateText) (contents : List (String × String)) : List (Spot × Option String) :=
  t.spots.zip ((t.dealt contents).map Prod.snd)

private theorem length_spots (t : TemplateText) : t.spots.length = t.sites.length := by
  have names := congrArg List.length (map_name_spotsFrom 0 t.sites)
  rwa [List.length_map, List.length_map] at names

theorem map_fst_placed (t : TemplateText) (contents : List (String × String)) :
    (t.placed contents).map Prod.fst = t.spots := by
  apply List.map_fst_zip
  have dealt := congrArg List.length (t.sites_dealt contents)
  rw [List.length_map] at dealt ⊢
  exact Nat.le_of_eq (t.length_spots.trans dealt.symm)

/-- The spots receive what the sites of their names do. -/
theorem map_name_placed (t : TemplateText) (contents : List (String × String)) :
    (t.placed contents).map (fun q => (q.1.name, q.2)) =
      (t.dealt contents).map fun q => (q.1.name, q.2) := by
  have names : t.spots.map Spot.name = (t.dealt contents).map fun q => q.1.name := by
    rw [spots, map_name_spotsFrom, ← t.sites_dealt contents, List.map_map]
    rfl
  calc (t.placed contents).map (fun q => (q.1.name, q.2))
      = (t.spots.map Spot.name).zip ((t.dealt contents).map Prod.snd) := List.zip_map_left.symm
    _ = (t.dealt contents).map fun q => (q.1.name, q.2) := by rw [names, List.zip_map']

/-- A spot receives nothing but what is given for its name. -/
theorem mem_of_placed {t : TemplateText} {contents : List (String × String)} {p : Spot}
    {content : String} (h : (p, some content) ∈ t.placed contents) :
    (p.name, content) ∈ contents := by
  have named := List.mem_map_of_mem (f := fun q => (q.1.name, q.2)) h
  rw [t.map_name_placed contents] at named
  obtain ⟨⟨s, content?⟩, hs, same⟩ := List.mem_map.mp named
  obtain ⟨name, rfl⟩ := Prod.mk.inj same
  exact name ▸ mem_of_received hs

private theorem toList_source (t : TemplateText) : t.source.toList = spell t.sites t.rest :=
  String.toList_ofList

theorem laid_spots (t : TemplateText) : Laid t.source.toList 0 t.spots := by
  rw [toList_source]
  exact laid_spotsFrom [] t.sites t.rest

theorem laid_placed (t : TemplateText) (contents : List (String × String)) :
    Laid t.source.toList 0 ((t.placed contents).map Prod.fst) :=
  (t.map_fst_placed contents).symm ▸ t.laid_spots

theorem inOrder_placed (t : TemplateText) (contents : List (String × String)) :
    InOrder t.source.toList.length 0 (editsOf t.source.toList (t.placed contents)) :=
  inOrder_editsOf (t.laid_placed contents) (Nat.le_refl 0)

/-- A filled text is the source with the edits for the spots that receive a content. -/
theorem text_fill (t : TemplateText) (contents : List (String × String)) :
    (t.fill contents).text =
      String.ofList (patch t.source.toList 0 (editsOf t.source.toList (t.placed contents))) := by
  have patched := patch_editsOf (t.dealt contents) t.rest [] (Nat.le_refl 0)
  rw [t.sites_dealt contents, List.nil_append, ← toList_source] at patched
  exact (congrArg String.ofList patched).symm


/-- The line of a second site begins behind the first. -/
example : (parse "  %%A%% %%B%%\n").spots = [⟨"A", 0, 2, 7⟩, ⟨"B", 7, 8, 13⟩] := by decide

end TemplateText

end HeaderWrap
