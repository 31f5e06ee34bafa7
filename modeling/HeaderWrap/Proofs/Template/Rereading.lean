import HeaderWrap.Proofs.Template.Allotment
import HeaderWrap.Proofs.Template.Scanning

/-! Reading a filled template again. The sites that are left are found where they stand, and no others
are, just if no filled site is a seam: a place where the indent, the last line of the content and
what follows spell a mark that stood nowhere in the template. -/
namespace HeaderWrap.TemplateText
open Text

def lastLine (s : List Char) : List Char := (s.splitOn '\n').getLastD []

/-- The template text that dealt sites leave: the sites that receive nothing, in the filled text. -/
def remainder : List (Site × Option String) → List Char → TemplateText
  | [], rest => ⟨[], rest⟩
  | (s, some content) :: ss, rest => consText (fillSite (s, some content)) (remainder ss rest)
  | (s, none) :: ss, rest => consText s.lead (consSite s.name.toList (remainder ss rest))

/-- At no site that receives a content a mark begins in the indent, when the last line of the content
and the filled text behind it follow. -/
def Seamless : List (Site × Option String) → List Char → Prop
  | [], _ => True
  | (s, some content) :: ss, rest =>
    Bare s.indent (lastLine content.toList ++ (ss.flatMap fillSite ++ rest)) ∧ Seamless ss rest
  | (_, none) :: ss, rest => Seamless ss rest

private theorem spell_remainder (dealt : List (Site × Option String)) (rest : List Char) :
    spell (remainder dealt rest).sites (remainder dealt rest).rest =
      dealt.flatMap fillSite ++ rest := by
  induction dealt with
  | nil => rfl
  | cons q dealt ih =>
    obtain ⟨s, content?⟩ := q
    cases content? with
    | none =>
      rw [remainder, spell_consText, spell_consSite, ih, List.flatMap_cons, fillSite, s.mark_eq_markWith,
        markWith]
      simp only [List.append_assoc]
    | some content =>
      rw [remainder, spell_consText, ih, List.flatMap_cons, List.append_assoc]

private theorem tokens_remainder (dealt : List (Site × Option String)) (rest : List Char) :
    (remainder dealt rest).tokens = (dealt.filter (·.2.isNone)).map (·.1.name) := by
  induction dealt with
  | nil => rfl
  | cons q dealt ih =>
    obtain ⟨s, content?⟩ := q
    cases content? with
    | none =>
      rw [remainder, tokens_consText, List.filter_cons_of_pos rfl, List.map_cons, ← ih, consSite, tokens,
        List.map_cons, String.ofList_toList, tokens]
    | some content =>
      rw [remainder, tokens_consText, ih, List.filter_cons_of_neg (by simp)]

private theorem bare_line {indent r l : List Char} (free : Bare indent r) (plain : '%' ∉ l)
    (rest after : List Char) : Bare (indent ++ l ++ ['\n'] ++ rest) after ↔ Bare rest after := by
  have inner : Bare indent (l ++ ['\n'] ++ (rest ++ after)) := by
    rw [List.append_assoc]
    exact free.cut plain (rest ++ after)
  have ends : '%' ∉ l ++ ['\n'] := by simp [plain]
  rw [bare_append, List.append_assoc indent, bare_append]
  exact and_iff_right ⟨inner, bare_of_plain ends _⟩

private theorem bare_lines {indent r : List Char} (free : Bare indent r) {lines : List (List Char)}
    (plain : ∀ l ∈ lines, '%' ∉ l) (full : lines ≠ []) (after : List Char) :
    Bare (List.intercalate ['\n'] (lines.map (indent ++ ·))) after ↔
      Bare indent (lines.getLastD [] ++ after) := by
  induction lines with
  | nil => contradiction
  | cons l lines ih =>
    obtain ⟨line, plain⟩ := List.forall_mem_cons.mp plain
    cases lines with
    | nil =>
      rw [List.map_singleton, List.intercalate_singleton, bare_append]
      exact and_iff_left (bare_of_plain line after)
    | cons l' lines =>
      rw [List.map_cons, List.map_cons, List.intercalate_cons_cons, ← List.map_cons,
        bare_line free line, ih plain (List.cons_ne_nil l' lines)]
      rfl

private theorem bare_indentLines {indent r : List Char} (free : Bare indent r) {content : List Char}
    (plain : '%' ∉ content) (after : List Char) :
    Bare (indentLines indent content) after ↔ Bare indent (lastLine content ++ after) := by
  refine bare_lines free (fun l hl percent => plain ?_) (List.splitOn_ne_nil _ _) after
  have whole : List.intercalate ['\n'] (content.splitOn '\n') = content :=
    List.intercalate_splitOn '\n'
  exact whole ▸ mem_intercalate_of_mem ['\n'] hl percent

private theorem before_eq (s : Site) : s.before = [] ∨ ∃ b, s.before = b ++ ['\n'] := by
  rw [Site.before]
  cases stopped : s.lead.reverse.dropWhile (· ≠ '\n') with
  | nil => exact .inl rfl
  | cons c b =>
    have newline := List.head?_dropWhile_not (· ≠ '\n') s.lead.reverse
    rw [stopped] at newline
    obtain rfl : c = '\n' := by simpa using newline
    exact .inr ⟨b.reverse, List.reverse_cons⟩

private theorem bare_fillSite {s : Site} {r : List Char} (free : Bare s.lead r) {content : String}
    (plain : '%' ∉ content.toList) (after : List Char) :
    Bare (fillSite (s, some content)) after ↔
      Bare s.indent (lastLine content.toList ++ after) := by
  rw [← s.before_append_indent, bare_append] at free
  rw [fillSite]
  rcases before_eq s with none | ⟨b, ends⟩
  · rw [none, List.nil_append]
    exact bare_indentLines free.2 plain after
  · have first : Bare b (['\n'] ++ (s.indent ++ r)) := (bare_append.mp (ends ▸ free.1)).1
    have line := bare_line first (l := []) List.not_mem_nil (indentLines s.indent content.toList) after
    rw [List.append_nil] at line
    rw [ends, line]
    exact bare_indentLines free.2 plain after

/-- The filled text is read as what is left of the sites just if there is no seam. -/
theorem parseFrom_filled_iff {dealt : List (Site × Option String)} {rest : List Char}
    (scanned : Scanned (dealt.map Prod.fst) rest)
    (plain : ∀ s content, (s, some content) ∈ dealt → '%' ∉ content.toList) :
    parseFrom 0 (dealt.flatMap fillSite ++ rest) = remainder dealt rest ↔ Seamless dealt rest := by
  induction dealt with
  | nil =>
    have whole : parseFrom 0 (rest ++ []) = consText rest ⟨[], []⟩ :=
      parseFrom_append_iff.mpr ⟨scanned, rfl⟩
    rw [List.append_nil, consText_empty] at whole
    exact iff_of_true whole trivial
  | cons q dealt ih =>
    obtain ⟨s, content?⟩ := q
    obtain ⟨word, free, later⟩ := scanned
    have ih := ih later fun s content h => plain s content (List.mem_cons_of_mem _ h)
    rw [List.flatMap_cons, List.append_assoc, remainder.eq_def]
    cases content? with
    | none =>
      have here : Bare s.lead (s.mark ++ (dealt.flatMap fillSite ++ rest)) := free.mark word _
      dsimp only
      rw [fillSite, List.append_assoc, parseFrom_append_iff, and_iff_right here, s.mark_eq_markWith,
        parseFrom_markWith word, (consSite_injective _).eq_iff, ih, Seamless]
    | some content =>
      dsimp only
      rw [parseFrom_append_iff, ih, bare_fillSite free (plain s content List.mem_cons_self), Seamless]

def unfilled (t : TemplateText) (contents : List (String × String)) : TemplateText :=
  remainder (t.dealt contents) t.rest

def FillsSeamlessly (t : TemplateText) (contents : List (String × String)) : Prop :=
  Seamless (t.dealt contents) t.rest

/-- Only a percent sign in front of a filled site, on its line, can make a seam. -/
theorem seamless_of_plain {dealt : List (Site × Option String)} (rest : List Char)
    (plain : ∀ q ∈ dealt, q.2.isSome → '%' ∉ q.1.indent) : Seamless dealt rest := by
  induction dealt with
  | nil => trivial
  | cons q dealt ih =>
    obtain ⟨here, later⟩ := List.forall_mem_cons.mp plain
    obtain ⟨s, content?⟩ := q
    cases content? with
    | none => exact ih later
    | some content => exact ⟨bare_of_plain (here rfl) _, ih later⟩

/-- The sites that received nothing stand in the filled text, and their tokens are those reported as
unresolved. Without percent signs in the contents they are what is found when the text is read again,
if there is no seam and only then. There is none if no filled site has a percent sign in its
indent. -/
theorem fill_reread (text : String) (contents : List (String × String))
    (plain : ∀ p ∈ contents, '%' ∉ p.2.toList) :
    let t := parse text
    let again := parse (t.fill contents).text
    spell (t.unfilled contents).sites (t.unfilled contents).rest = (t.fill contents).text.toList ∧
    (again = t.unfilled contents ↔ t.FillsSeamlessly contents) ∧
    (t.unfilled contents).tokens.eraseDups = (t.fill contents).unresolved ∧
    (t.FillsSeamlessly contents →
      ∀ token, token ∈ again.tokens ↔ token ∈ (t.fill contents).unresolved) ∧
    ((∀ q ∈ t.dealt contents, q.2.isSome → '%' ∉ q.1.indent) → t.FillsSeamlessly contents) := by
  intro t again
  have scanned : Scanned ((t.dealt contents).map Prod.fst) t.rest :=
    t.sites_dealt contents ▸ scanned_parseFrom 0 text.toList
  have received : ∀ s content, (s, some content) ∈ t.dealt contents → '%' ∉ content.toList :=
    fun s content h => plain (s.name, content) (mem_of_received h)
  have whole : again = parseFrom 0 ((t.dealt contents).flatMap fillSite ++ t.rest) :=
    congrArg (parseFrom 0) String.toList_ofList
  have same : again = t.unfilled contents ↔ t.FillsSeamlessly contents :=
    whole ▸ parseFrom_filled_iff scanned received
  have unresolved : (t.unfilled contents).tokens.eraseDups = (t.fill contents).unresolved :=
    congrArg List.eraseDups (tokens_remainder (t.dealt contents) t.rest)
  have spelled : spell (t.unfilled contents).sites (t.unfilled contents).rest =
      (t.fill contents).text.toList :=
    (spell_remainder (t.dealt contents) t.rest).trans String.toList_ofList.symm
  refine ⟨spelled, same, unresolved, fun seamless token => ?_, seamless_of_plain t.rest⟩
  rw [same.mpr seamless, ← unresolved, List.mem_eraseDups]

/-- Percent signs beside sites make no seam as long as none is in the indent of a filled one. -/
theorem fill_reread_left :
    let t := parse "100% %%B%%\n  %%A%% %%B%%\n%%A%%%"
    let contents := [("A", "x;\ny;")]
    (∀ p ∈ contents, '%' ∉ p.2.toList) ∧
      (t.fill contents).text = "100% %%B%%\n  x;\n  y; %%B%%\n%%A%%%" ∧
      ∀ token, token ∈ (parse (t.fill contents).text).tokens ↔ token ∈ ["B", "A"] := by
  intro t contents
  have plain : ∀ p ∈ contents, '%' ∉ p.2.toList := by decide
  obtain ⟨-, -, -, same, seamless⟩ := fill_reread "100% %%B%%\n  %%A%% %%B%%\n%%A%%%" contents plain
  refine ⟨plain, by decide, ?_⟩
  have unresolved : (t.fill contents).unresolved = ["B", "A"] := by decide
  rw [← unresolved]
  exact same (seamless (by decide))

/-- An empty content lets the percent sign in front of its site and the one behind it meet. The token
that they make is not reported. -/
theorem seam_not_reported :
    let t := parse "%%%A%%%B%%"
    let contents := [("A", "")]
    (∀ p ∈ contents, '%' ∉ p.2.toList) ∧ (t.fill contents).text = "%%B%%" ∧
      (parse (t.fill contents).text).tokens = ["B"] ∧ (t.fill contents).unresolved = [] := by
  decide

end HeaderWrap.TemplateText
