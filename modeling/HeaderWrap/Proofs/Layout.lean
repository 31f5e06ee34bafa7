import HeaderWrap.Layout

/-! What is laid out, as text: each line of a program of steps on the level at which it is nested. -/
namespace HeaderWrap.Layout

structure Entry where
  level : Nat
  text : String
  deriving DecidableEq, Repr

def Entry.shown (unit : String) (e : Entry) : String :=
  String.join (List.replicate e.level unit) ++ e.text ++ "\n"

/-- The level behind a step that begins on a level. A block leaves it as it is. -/
def Step.next (level : Nat) : Step → Nat
  | .indent => level + 1
  | .dedent => level - 1
  | .line _ | .block .. => level

mutual

/-- The lines of a step on a level. The header of a block and its closing line stand on that level,
its body one deeper. -/
def Step.entries (level : Nat) : Step → List Entry
  | .line s => [⟨level, s⟩]
  | .block header close body => ⟨level, header⟩ :: (entries (level + 1) body ++ [⟨level, close⟩])
  | .indent | .dedent => []

def entries (level : Nat) : List Step → List Entry
  | [] => []
  | step :: p => step.entries level ++ entries (step.next level) p

end

/-- A program that begins on the level `n` ends on the level `m` and never goes further out than
`floor`; a step out from the outermost level stays on it. The body of each block never goes further
out than where it begins, and ends there. -/
inductive Stays : Nat → Nat → List Step → Nat → Prop where
  | nil (floor n : Nat) : Stays floor n [] n
  | line {floor n m : Nat} {p : List Step} (s : String) (rest : Stays floor n p m) :
      Stays floor n (.line s :: p) m
  | indent {floor n m : Nat} {p : List Step} (rest : Stays floor (n + 1) p m) :
      Stays floor n (.indent :: p) m
  | dedent {floor n m : Nat} {p : List Step} (inside : floor ≤ n - 1)
      (rest : Stays floor (n - 1) p m) : Stays floor n (.dedent :: p) m
  | block {floor n m : Nat} {p body : List Step} (header close : String)
      (inner : Stays (n + 1) (n + 1) body (n + 1)) (rest : Stays floor n p m) :
      Stays floor n (.block header close body :: p) m

/-- A step of a program, or of the body of a block in it, to any depth. -/
inductive Occurs (s : Step) : List Step → Prop where
  | here (p : List Step) : Occurs s (s :: p)
  | later {p : List Step} (t : Step) (rest : Occurs s p) : Occurs s (t :: p)
  | inside {body : List Step} (header close : String) (p : List Step) (inner : Occurs s body) :
      Occurs s (.block header close body :: p)

section
variable {floor n m : Nat} {p body : List Step}

private theorem entries_line (n : Nat) (s : String) (p : List Step) :
    entries n (.line s :: p) = ⟨n, s⟩ :: entries n p := rfl

private theorem entries_block (n : Nat) (header close : String) (body p : List Step) :
    entries n (.block header close body :: p) =
      ⟨n, header⟩ :: (entries (n + 1) body ++ ⟨n, close⟩ :: entries n p) := by
  rw [entries, Step.entries, List.cons_append, List.append_assoc]
  rfl

private theorem le_of_mem_entries (h : Stays floor n p m) (begins : floor ≤ n) :
    ∀ e ∈ entries n p, floor ≤ e.level := by
  induction h with
  | nil =>
    intro e he
    cases he
  | line s _ ih =>
    rw [entries_line, List.forall_mem_cons]
    exact ⟨begins, ih begins⟩
  | indent _ ih => exact ih (Nat.le_succ_of_le begins)
  | dedent inside _ ih => exact ih inside
  | block header close _ _ inner rest =>
    rw [entries_block, List.forall_mem_cons, List.forall_mem_append, List.forall_mem_cons]
    refine ⟨begins, ?_, begins, rest begins⟩
    intro e he
    have deeper := inner (Nat.le_refl _) e he
    omega

private theorem Stays.shift (h : Stays floor n p m) (begins : floor ≤ n) (positive : 0 < floor) (k : Nat) :
    Stays k (n - floor + k) p (m - floor + k) := by
  induction h generalizing k with
  | nil => exact .nil _ _
  | line s _ ih => exact .line s (ih begins positive k)
  | indent _ ih =>
    have deeper := ih (Nat.le_succ_of_le begins) positive k
    rw [Nat.succ_sub begins, Nat.succ_add] at deeper
    exact .indent deeper
  | @dedent floor n _ _ inside _ ih =>
    have outer := ih inside positive k
    have level : n - floor + k - 1 = n - 1 - floor + k := by omega
    rw [← level] at outer
    exact .dedent (by omega) outer
  | @block floor n _ _ _ header close _ _ inner rest =>
    have same := inner (Nat.le_refl _) (Nat.succ_pos n) (n - floor + k + 1)
    rw [Nat.sub_self, Nat.zero_add] at same
    exact .block header close same (rest begins positive k)

/-- The body of a block stays inside any level on which it may begin, and ends there. -/
theorem Stays.inner {header close : String} (h : Stays floor n p m)
    (found : Occurs (.block header close body) p) (k : Nat) : Stays (k + 1) (k + 1) body (k + 1) := by
  induction h with
  | nil => cases found
  | line _ _ ih | indent _ ih | dedent _ _ ih =>
    cases found with
    | later _ rest => exact ih rest
  | block _ _ same _ inner rest =>
    cases found with
    | here =>
      have shifted := same.shift (Nat.le_refl _) (Nat.succ_pos _) (k + 1)
      rwa [Nat.sub_self, Nat.zero_add] at shifted
    | later _ later => exact rest later
    | inside _ _ _ within => exact inner within

/-- The lines of a block stand together: its header, the body one deeper, and its closing line. -/
theorem exists_entries_block {header close : String} (found : Occurs (.block header close body) p)
    (n : Nat) : ∃ k before after, entries n p =
      before ++ ⟨k, header⟩ :: (entries (k + 1) body ++ ⟨k, close⟩ :: after) := by
  induction found generalizing n with
  | here p => exact ⟨n, [], entries n p, entries_block n header close body p⟩
  | later t _ ih =>
    obtain ⟨k, before, after, split⟩ := ih (t.next n)
    exact ⟨k, t.entries n ++ before, after, by rw [entries, split, List.append_assoc]⟩
  | inside outer closing p _ ih =>
    obtain ⟨k, before, after, split⟩ := ih (n + 1)
    refine ⟨k, ⟨n, outer⟩ :: before, after ++ ⟨n, closing⟩ :: entries n p, ?_⟩
    rw [entries_block, split]
    simp only [List.cons_append, List.append_assoc]

/-! ### The text -/

private theorem line_eq (unit text s : String) :
    (⟨unit, n, text⟩ : Layout).line s = ⟨unit, n, text ++ (Entry.mk n s).shown unit⟩ := by
  rw [line, Entry.shown, indentation]
  simp only [String.append_assoc]

/-- A block whose body ends on the level it begins on closes on the level of its header. -/
theorem take_block {unit text header close filled : String}
    (inner : (⟨unit, n + 1, text ++ (Entry.mk n header).shown unit⟩ : Layout).run body =
      ⟨unit, n + 1, filled⟩) :
    (⟨unit, n, text⟩ : Layout).take (.block header close body) =
      ⟨unit, n, filled ++ (Entry.mk n close).shown unit⟩ := by
  calc
    _ = (((⟨unit, n, text⟩ : Layout).line header).indent.run body).dedent.line close := rfl
    _ = ((⟨unit, n + 1, text ++ (Entry.mk n header).shown unit⟩ : Layout).run body).dedent.line
        close := by
      rw [line_eq unit text header]
      rfl
    _ = (⟨unit, n, filled⟩ : Layout).line close := by
      rw [inner]
      rfl
    _ = _ := line_eq unit filled close

/-- A program adds its entries to what was laid out before, and leads from its first level to its
last. -/
theorem run_eq (h : Stays floor n p m) (unit text : String) :
    (⟨unit, n, text⟩ : Layout).run p =
      ⟨unit, m, text ++ String.join ((entries n p).map (Entry.shown unit))⟩ := by
  induction h generalizing text with
  | nil => rw [run, entries, List.map_nil, String.join_nil, String.append_empty]
  | line s _ ih =>
    rw [run, take, line_eq, ih, entries_line, List.map_cons, String.join_cons, String.append_assoc]
  | indent _ ih => exact ih text
  | dedent _ _ ih => exact ih text
  | block header close _ _ inner rest =>
    rw [run, take_block (inner _), rest, entries_block]
    simp only [List.map_cons, List.map_append, String.join_cons, String.join_append,
      String.append_assoc]

private theorem exists_newline {es : List Entry} (full : es ≠ []) (unit text : String) :
    ∃ t, text ++ String.join (es.map (Entry.shown unit)) = t ++ "\n" := by
  obtain ⟨e, es, rfl⟩ := List.exists_cons_of_ne_nil full
  induction es generalizing e text with
  | nil =>
    refine ⟨text ++ (String.join (List.replicate e.level unit) ++ e.text), ?_⟩
    rw [List.map_singleton, String.join_cons, String.join_nil, String.append_empty, Entry.shown]
    simp only [String.append_assoc]
  | cons e' es ih =>
    obtain ⟨t, ends⟩ := ih (text ++ e.shown unit) e' (List.cons_ne_nil _ _)
    exact ⟨t, by rw [List.map_cons, String.join_cons, ← String.append_assoc, ends]⟩

end

section
variable {l : Layout}

private theorem fragment_eq {t : String} (h : l.text = t ++ "\n") : l.fragment = t := by
  rw [fragment, h]
  simp

/-- A text is its fragment and a newline, or it ends in none and is its own fragment. -/
theorem text_eq_or (l : Layout) : l.text = l.fragment ++ "\n" ∨
    (∀ t, l.text ≠ t ++ "\n") ∧ l.fragment = l.text := by
  by_cases ends : ∃ t, l.text = t ++ "\n"
  · obtain ⟨t, ends⟩ := ends
    exact .inl (by rw [fragment_eq ends, ends])
  · refine .inr ⟨fun t h => ends ⟨t, h⟩, ?_⟩
    rw [fragment]
    split
    · next last =>
      obtain ⟨cs, split⟩ := List.getLast?_eq_some_iff.mp last
      refine absurd ⟨String.ofList cs, ?_⟩ ends
      rw [← String.toList_inj, split, String.toList_append, String.toList_ofList]
      rfl
    · rfl

private theorem fragment_line (l : Layout) (s : String) :
    (l.line s).fragment = l.text ++ indentation l.unit l.level ++ s :=
  fragment_eq rfl

/-- A block at the outermost level whose body is one line. -/
theorem fragment_block_line (unit header close s : String) :
    ((start unit).block header close fun l => l.line s).fragment =
      header ++ "\n" ++ unit ++ s ++ "\n" ++ close := by
  have outer : indentation unit 0 = "" := rfl
  have inner : indentation unit 1 = unit := by simp [indentation]
  rw [block, fragment_line]
  simp [start, line, indent, dedent, outer, inner]

/-- The text of a program of steps, and its fragment. A program that stays inside the level on which
it begins adds its lines in order, each behind as many units as the level it is nested on, and ends
on the level to which its steps lead. The lines of a block, at any depth, stand together: its header
and its closing line on one level, its body on deeper ones; and a block leaves any level it begins on
as it is. A fragment is the text without its final newline, which is missing only where nothing was
laid out. -/
theorem run_lays_entries {l : Layout} {p : List Step} {m : Nat}
    (stays : Stays l.level l.level p m) :
    let es := entries l.level p
    (l.run p).text = l.text ++ String.join (es.map (Entry.shown l.unit)) ∧ (l.run p).level = m ∧
    (∀ e ∈ es, l.level ≤ e.level) ∧
    (∀ header close body, Occurs (.block header close body) p →
      (∃ k before after,
        es = before ++ ⟨k, header⟩ :: (entries (k + 1) body ++ ⟨k, close⟩ :: after) ∧
        ∀ e ∈ entries (k + 1) body, k < e.level) ∧
      ∀ l' : Layout, (l'.take (.block header close body)).level = l'.level) ∧
    ((l.run p).text = (l.run p).fragment ++ "\n" ∨
      es = [] ∧ (∀ t, l.text ≠ t ++ "\n") ∧ (l.run p).fragment = l.text) := by
  intro es
  have laid := run_eq stays l.unit l.text
  refine ⟨congrArg Layout.text laid, congrArg Layout.level laid,
    le_of_mem_entries stays (Nat.le_refl _), ?_, ?_⟩
  · intro header close body found
    constructor
    · obtain ⟨k, before, after, split⟩ := exists_entries_block found l.level
      exact ⟨k, before, after, split, le_of_mem_entries (stays.inner found k) (Nat.le_refl _)⟩
    · intro l'
      have inner := run_eq (stays.inner found l'.level) l'.unit
        (l'.text ++ (Entry.mk l'.level header).shown l'.unit)
      have closed : l'.take (.block header close body) = _ := take_block inner
      rw [closed]
  · rcases text_eq_or (l.run p) with ends | ⟨unended, same⟩
    · exact .inl ends
    · have text : (l.run p).text = l.text ++ String.join (es.map (Entry.shown l.unit)) :=
        congrArg Layout.text laid
      have none : es = [] := by
        apply Decidable.byContradiction
        intro full
        obtain ⟨t, ends⟩ := exists_newline full l.unit l.text
        exact unended t (text.trans ends)
      rw [none, List.map_nil, String.join_nil, String.append_empty] at text
      rw [text] at unended same
      exact .inr ⟨none, unended, same⟩

/-- Blocks in a block that is itself one level in, with a line set in further beside them. -/
theorem run_lays_nested :
    let inner : List Step := [.line "return;"]
    let body : List Step := [.indent, .line "f();", .dedent, .block "if (b) \x7b" "\x7d" inner]
    let l : Layout := ⟨"  ", 1, "g();\n"⟩
    let p : List Step := [.block "if (a) \x7b" "\x7d" body, .indent, .line "h();"]
    Stays 1 1 p 2 ∧ (l.run p).level = 2 ∧ (l.run p).text =
      "g();\n  if (a) \x7b\n      f();\n    if (b) \x7b\n      return;\n    \x7d\n  \x7d\n    h();\n" ∧
    (l.run p).text = (l.run p).fragment ++ "\n" ∧
    Occurs (.block "if (b) \x7b" "\x7d" inner) p ∧
    ∀ l' : Layout, (l'.take (.block "if (b) \x7b" "\x7d" inner)).level = l'.level := by
  intro inner body l p
  have inside : Stays 3 3 inner 3 := .line _ (.nil _ _)
  have around : Stays 2 2 body 2 :=
    .indent (.line _ (.dedent (by decide) (.block _ _ inside (.nil _ _))))
  have stays : Stays 1 1 p 2 := .block _ _ around (.indent (.line _ (.nil _ _)))
  have found : Occurs (.block "if (b) \x7b" "\x7d" inner) p :=
    .inside _ _ _ (.later _ (.later _ (.later _ (.here _))))
  obtain ⟨text, level, -, blocks, ends⟩ := @run_lays_entries l p 2 stays
  refine ⟨stays, level, text.trans (by decide +kernel), ends.resolve_right ?_, found,
    (blocks _ _ _ found).2⟩
  exact fun none => absurd none.1 (by decide +kernel)

end
end HeaderWrap.Layout
