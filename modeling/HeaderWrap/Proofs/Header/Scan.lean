import Mathlib.Data.List.TakeWhile
import HeaderWrap.Header.Signature

/-! The scan for declarations, by the positions of the tokens. It goes on behind every declaration and
behind every line that begins none, so that it tries each line once, unless a declaration that began
on an earlier line has taken it. -/
namespace HeaderWrap.Header

def BehindNewline (ts : List Token) (pos : Nat) : Prop :=
  ∃ i nl, pos = i + 1 ∧ ts[i]? = some nl ∧ nl.kind = .newline

/-- The first token of a line stands at a position. A line that holds nothing has none. -/
def BeginsLine (ts : List Token) (pos : Nat) : Prop :=
  (pos = 0 ∨ BehindNewline ts pos) ∧ ∃ t, ts[pos]? = some t ∧ t.kind ≠ .newline

def readAt (ts : List Token) (pos : Nat) : Option (Prototype × Nat) :=
  (readPrototype (ts.drop pos)).map fun (p, rest) => (p, ts.length - rest.length)

def lineAfter (ts : List Token) (pos : Nat) : Nat := ts.length - (nextLine (ts.drop pos)).length

section
variable {ts rest : List Token} {pos next : Nat}

private theorem drop_length_sub (h : rest <:+ ts) : ts.drop (ts.length - rest.length) = rest :=
  (List.suffix_iff_eq_drop.mp h).symm

private theorem drop_of_getElem? {t : Token} (h : ts[pos]? = some t) :
    ts.drop pos = t :: ts.drop (pos + 1) := by
  obtain ⟨inside, rfl⟩ := List.getElem?_eq_some_iff.mp h
  exact List.drop_eq_getElem_cons inside

private theorem behindNewline_of_suffix {nl : Token} (newline : nl.kind = .newline)
    (h : nl :: rest <:+ ts) : BehindNewline ts (ts.length - rest.length) := by
  obtain ⟨front, rfl⟩ := h
  refine ⟨front.length, nl, ?_, ?_, newline⟩
  · simp only [List.length_append, List.length_cons]
    omega
  · simp

private theorem readEnd_line (h : readEnd ts = some rest) :
    rest = [] ∨ ∃ nl, nl.kind = .newline ∧ nl :: rest <:+ ts := by
  unfold readEnd at h
  split at h
  · exact .inl (Option.some.inj h).symm
  · rename_i t ts
    split at h
    · rename_i newline
      obtain rfl := Option.some.inj h
      exact .inr ⟨t, newline, List.suffix_rfl⟩
    · split at h
      · split at h
        · exact .inl (Option.some.inj h).symm
        · rename_i u ts
          split at h
          · rename_i newline
            obtain rfl := Option.some.inj h
            exact .inr ⟨u, newline, List.suffix_cons t _⟩
          · contradiction
      · contradiction

private theorem readPrototype_line {p : Prototype} (h : readPrototype ts = some (p, rest)) :
    rest = [] ∨ ∃ nl, nl.kind = .newline ∧ nl :: rest <:+ ts := by
  obtain ⟨lparen, after, rparen, tail, head, -, args, -, ending, -⟩ := readPrototype_parts h
  have outer : lparen :: after <:+ ts := head ▸ List.dropWhile_suffix _
  have inner : rparen :: tail <:+ after := args ▸ List.dropWhile_suffix _
  have behind : tail <:+ ts :=
    ((List.suffix_cons rparen tail).trans inner).trans ((List.suffix_cons lparen after).trans outer)
  rcases readEnd_line ending with none | ⟨nl, newline, line⟩
  · exact .inl none
  · exact .inr ⟨nl, newline, line.trans behind⟩

/-- A declaration that is read takes at least one token, and the scan goes on in a new line. -/
theorem readAt_spec {p : Prototype} (h : readAt ts pos = some (p, next)) :
    pos < next ∧ next ≤ ts.length ∧ (next = ts.length ∨ BehindNewline ts next) ∧
      readPrototype (ts.drop pos) = some (p, ts.drop next) := by
  obtain ⟨⟨q, rest⟩, read, same⟩ := Option.map_eq_some_iff.mp h
  obtain ⟨rfl, rfl⟩ := Prod.mk.inj same
  have shorter := readPrototype_length read
  rw [List.length_drop] at shorter
  obtain ⟨lparen, after, outer, inner⟩ := readPrototype_suffix read
  have suffix : rest <:+ ts :=
    ((inner.trans (List.suffix_cons lparen after)).trans outer).trans (List.drop_suffix pos ts)
  refine ⟨by omega, Nat.sub_le _ _, ?_, by rw [drop_length_sub suffix, read]⟩
  rcases readPrototype_line read with rfl | ⟨nl, newline, behind⟩
  · exact .inl rfl
  · exact .inr (behindNewline_of_suffix newline (behind.trans (List.drop_suffix pos ts)))

private theorem nextLine_split (ts : List Token) :
    (nextLine ts = [] ∧ ∀ t ∈ ts, t.kind ≠ .newline) ∨
      ∃ line nl, ts = line ++ nl :: nextLine ts ∧ nl.kind = .newline ∧
        ∀ t ∈ line, t.kind ≠ .newline := by
  have whole := List.takeWhile_append_dropWhile (p := fun t : Token => decide (t.kind ≠ .newline)) (l := ts)
  have line : ∀ t ∈ ts.takeWhile fun t => decide (t.kind ≠ .newline), t.kind ≠ .newline :=
    fun t ht => by simpa using List.mem_takeWhile_imp ht
  rw [nextLine]
  cases stopped : ts.dropWhile fun t => decide (t.kind ≠ .newline) with
  | nil =>
    rw [stopped, List.append_nil] at whole
    exact .inl ⟨rfl, whole ▸ line⟩
  | cons nl rest =>
    rw [stopped] at whole
    refine .inr ⟨_, nl, whole.symm, ?_, line⟩
    have first := List.head?_dropWhile_not (fun t : Token => decide (t.kind ≠ .newline)) ts
    rw [stopped] at first
    simpa using first

private theorem lineAfter_spec (inside : pos < ts.length) :
    pos < lineAfter ts pos ∧ lineAfter ts pos ≤ ts.length ∧
      (lineAfter ts pos = ts.length ∨ BehindNewline ts (lineAfter ts pos)) ∧
      ts.drop (lineAfter ts pos) = nextLine (ts.drop pos) ∧
      ∀ i, pos < i → BehindNewline ts i → lineAfter ts pos ≤ i := by
  have suffix := (nextLine_suffix (ts.drop pos)).trans (List.drop_suffix pos ts)
  have before : nextLine (ts.drop pos) = [] ∨ BehindNewline ts (lineAfter ts pos) := by
    rcases nextLine_split (ts.drop pos) with ⟨none, -⟩ | ⟨line, nl, split, newline, -⟩
    · exact .inl none
    · have behind : nl :: nextLine (ts.drop pos) <:+ ts.drop pos := ⟨line, split.symm⟩
      exact .inr (behindNewline_of_suffix newline (behind.trans (List.drop_suffix pos ts)))
  refine ⟨?_, Nat.sub_le _ _, ?_, drop_length_sub suffix, ?_⟩
  · have full : ts.drop pos ≠ [] := by
      rw [ne_eq, List.drop_eq_nil_iff]
      omega
    obtain ⟨t, rest, whole⟩ := List.exists_cons_of_ne_nil full
    have shorter := nextLine_length t rest
    rw [← whole, List.length_drop] at shorter
    rw [lineAfter]
    omega
  · refine before.imp_left fun none => ?_
    rw [lineAfter, none]
    rfl
  · rintro i behind ⟨j, nl, rfl, found, newline⟩
    have there : (ts.drop pos)[j - pos]? = some nl := by
      rw [List.getElem?_drop, Nat.add_sub_of_le (Nat.le_of_lt_succ behind), found]
    rcases nextLine_split (ts.drop pos) with ⟨-, plain⟩ | ⟨line, nl', split, -, plain⟩
    · exact absurd newline (plain nl (List.mem_of_getElem? there))
    · -- the newline does not stand in the line that is passed over
      have past : line.length ≤ j - pos := by
        by_contra short
        rw [split, List.getElem?_append_left (Nat.lt_of_not_le short)] at there
        exact plain nl (List.mem_of_getElem? there) newline
      have lengths := congrArg List.length split
      rw [List.length_drop, List.length_append, List.length_cons] at lengths
      rw [lineAfter]
      omega

end

/-- One reading of the scan: where it is tried, and what is read there. -/
structure Attempt where
  start : Nat
  found? : Option (Prototype × Nat)
  deriving DecidableEq, Repr

/-- The position behind the tokens that a declaration takes; a line that begins none gives no tokens. -/
def Attempt.stop (a : Attempt) : Nat := (a.found?.map Prod.snd).getD a.start

def attemptsFrom (ts : List Token) (pos : Nat) : List Attempt :=
  match _h : ts[pos]? with
  | none => []
  | some t =>
    if t.kind = .newline then attemptsFrom ts (pos + 1)
    else
      match _found : readAt ts pos with
      | some (p, next) => ⟨pos, some (p, next)⟩ :: attemptsFrom ts next
      | none => ⟨pos, none⟩ :: attemptsFrom ts (lineAfter ts pos)
termination_by ts.length - pos
decreasing_by
  · have inside := (List.getElem?_eq_some_iff.mp _h).1
    omega
  · have inside := (List.getElem?_eq_some_iff.mp _h).1
    have := readAt_spec _found
    omega
  · have inside := (List.getElem?_eq_some_iff.mp _h).1
    have := lineAfter_spec inside
    omega

def attempts (ts : List Token) : List Attempt := attemptsFrom ts 0

/-- The scan finds what its readings find, in the same order. -/
theorem prototypesOf_drop (ts : List Token) (pos : Nat) :
    prototypesOf (ts.drop pos) = (attemptsFrom ts pos).filterMap (·.found?.map Prod.fst) := by
  fun_induction attemptsFrom ts pos with
  | case1 pos past =>
    rw [List.drop_eq_nil_of_le (List.getElem?_eq_none_iff.mp past), prototypesOf, List.filterMap_nil]
  | case2 pos t here newline ih =>
    rw [drop_of_getElem? here, prototypesOf, if_pos newline, ih]
  | case3 pos t here plain p next found ih =>
    have read := (readAt_spec found).2.2.2
    rw [drop_of_getElem? here] at read ⊢
    rw [prototypesOf_cons _ plain, read, List.filterMap_cons, ← ih]
    rfl
  | case4 pos t here plain none ih =>
    have read := Option.map_eq_none_iff.mp none
    have line := (lineAfter_spec (List.getElem?_eq_some_iff.mp here).1).2.2.2.1
    rw [drop_of_getElem? here] at read line ⊢
    rw [prototypesOf_cons _ plain, read, List.filterMap_cons, ← ih, line]
    rfl

/-- The readings from a position on are those of a scan: each is tried at the first token of a line,
behind all tokens that the ones before have taken, and no line behind the position is left out unless
a declaration that began before has taken its first token. -/
structure Scans (ts : List Token) (pos : Nat) (tries : List Attempt) : Prop where
  begins : ∀ a ∈ tries, pos ≤ a.start ∧ BeginsLine ts a.start ∧ a.found? = readAt ts a.start
  ordered : tries.Pairwise fun a b => a.start < b.start ∧ a.stop ≤ b.start
  whole : ∀ i, pos ≤ i → BeginsLine ts i → (∀ a ∈ tries, ¬ (a.start < i ∧ i < a.stop)) →
    ⟨i, readAt ts i⟩ ∈ tries

namespace Scans
variable {ts : List Token} {pos next : Nat} {tries : List Attempt}

/-- Behind the last token nothing is tried. -/
theorem nil (past : ts.length ≤ pos) : Scans ts pos [] where
  begins := List.forall_mem_nil _
  ordered := .nil
  whole i behind begins _ := by
    obtain ⟨-, t, here, -⟩ := begins
    have inside := (List.getElem?_eq_some_iff.mp here).1
    omega

/-- Positions where no line begins are passed over. -/
theorem pass (h : Scans ts next tries) (order : pos ≤ next)
    (none : ∀ i, pos ≤ i → i < next → ¬ BeginsLine ts i) : Scans ts pos tries where
  begins a ha := ⟨Nat.le_trans order (h.begins a ha).1, (h.begins a ha).2⟩
  ordered := h.ordered
  whole i behind begins := h.whole i (Nat.le_of_not_lt fun before => none i behind before begins) begins

/-- A line is tried, and the scan goes on behind what was taken. -/
theorem cons (a : Attempt) (h : Scans ts next tries) (line : BeginsLine ts a.start)
    (read : a.found? = readAt ts a.start) (order : a.start < next) (stop : a.stop ≤ next)
    (taken : ∀ i, a.start < i → i < next → BeginsLine ts i → i < a.stop) :
    Scans ts a.start (a :: tries) where
  begins := by
    refine List.forall_mem_cons.mpr ⟨⟨Nat.le_refl _, line, read⟩, fun b hb => ?_⟩
    obtain ⟨behind, rest⟩ := h.begins b hb
    exact ⟨by omega, rest⟩
  ordered := by
    refine List.pairwise_cons.mpr ⟨fun b hb => ?_, h.ordered⟩
    have behind := (h.begins b hb).1
    exact ⟨by omega, by omega⟩
  whole i behind begins outside := by
    obtain ⟨first, others⟩ := List.forall_mem_cons.mp outside
    rcases Nat.eq_or_lt_of_le behind with rfl | behind
    · rw [← read]
      exact List.mem_cons_self
    · refine List.mem_cons_of_mem a (h.whole i ?_ begins others)
      by_contra before
      exact first ⟨behind, taken i behind (by omega) begins⟩

end Scans

/-- From the beginning of a line on, or from the end, the readings are those of a scan. -/
theorem scans_attemptsFrom {ts : List Token} {pos : Nat}
    (line : pos = 0 ∨ pos = ts.length ∨ BehindNewline ts pos) :
    Scans ts pos (attemptsFrom ts pos) := by
  fun_induction attemptsFrom ts pos with
  | case1 pos past => exact .nil (List.getElem?_eq_none_iff.mp past)
  | case2 pos t here newline ih =>
    have next := ih (.inr (.inr ⟨pos, t, rfl, here, newline⟩))
    refine next.pass (Nat.le_succ pos) fun i behind before begins => ?_
    obtain rfl : i = pos := by omega
    obtain ⟨-, u, there, plain⟩ := begins
    rw [here] at there
    exact plain (Option.some.inj there ▸ newline)
  | case3 pos t here plain p next found ih =>
    have inside := (List.getElem?_eq_some_iff.mp here).1
    have first : BeginsLine ts pos := ⟨line.imp_right fun h => h.resolve_left (by omega), t, here, plain⟩
    obtain ⟨order, -, behind, -⟩ := readAt_spec found
    exact .cons ⟨pos, some (p, next)⟩ (ih (.inr behind)) first found.symm order (Nat.le_refl next)
      fun i _ before _ => before
  | case4 pos t here plain absent ih =>
    have inside := (List.getElem?_eq_some_iff.mp here).1
    have first : BeginsLine ts pos := ⟨line.imp_right fun h => h.resolve_left (by omega), t, here, plain⟩
    obtain ⟨order, -, behind, -, least⟩ := lineAfter_spec inside
    refine .cons ⟨pos, none⟩ (ih (.inr behind)) first absent.symm order (Nat.le_of_lt order) ?_
    intro i after before begins
    have next := least i after (begins.1.resolve_left (by omega))
    omega

/-- A declaration that is read ends behind its beginning, with the text or in front of a line. The scan
reads at the first tokens of lines only, further on each time, and finds its declarations in this order
on tokens that no two of them share. A line whose first token none of them takes was tried and begins
no declaration; one whose first token no earlier one takes is tried, and what begins there is found. -/
theorem scan_tries_lines (text : String) :
    let ts := tokens .code text.toList
    let tries := attempts ts
    (∀ start p next, readAt ts start = some (p, next) →
      start < next ∧ next ≤ ts.length ∧ (next = ts.length ∨ BehindNewline ts next)) ∧
    (∀ a ∈ tries, BeginsLine ts a.start ∧ a.found? = readAt ts a.start) ∧
    (tries.Pairwise fun a b => a.start < b.start ∧ a.stop ≤ b.start) ∧
    (∀ i, BeginsLine ts i → (∀ a ∈ tries, ¬ (a.start ≤ i ∧ i < a.stop)) → ⟨i, none⟩ ∈ tries) ∧
    (∀ i, BeginsLine ts i → (∀ a ∈ tries, ¬ (a.start < i ∧ i < a.stop)) →
      ⟨i, readAt ts i⟩ ∈ tries) ∧
    signatures text = tries.filterMap fun a => a.found?.map fun found => found.1.signature := by
  intro ts tries
  have scans : Scans ts 0 tries := scans_attemptsFrom (.inl rfl)
  refine ⟨fun start p next found => ?_, fun a ha => (scans.begins a ha).2, scans.ordered, ?_, ?_, ?_⟩
  · obtain ⟨order, within, behind, -⟩ := readAt_spec found
    exact ⟨order, within, behind⟩
  · intro i begins outside
    have tried := scans.whole i (Nat.zero_le i) begins fun a ha inner =>
      outside a ha ⟨Nat.le_of_lt inner.1, inner.2⟩
    cases read : readAt ts i with
    | none => exact read ▸ tried
    | some found =>
      -- what is found at a line takes its first token
      have order := (readAt_spec read).1
      exact absurd ⟨Nat.le_refl i, by simpa [Attempt.stop, read] using order⟩ (outside _ tried)
  · exact fun i begins outside => scans.whole i (Nat.zero_le i) begins outside
  · have found : prototypes text = tries.filterMap (·.found?.map Prod.fst) := prototypesOf_drop ts 0
    rw [signatures, found, List.map_filterMap]
    simp only [Option.map_map, Function.comp_def]

end HeaderWrap.Header
