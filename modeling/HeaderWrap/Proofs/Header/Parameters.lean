import HeaderWrap.Proofs.Header.Trimming
import HeaderWrap.Proofs.Lists

/-! Parameter lists with comments: the parts between the commas of the code, and what becomes of
each part when the list is cut at every comma. -/
namespace HeaderWrap.Header
open Text

def codeParts : Mode → List Char → List (List Char)
  | _, [] => [[]]
  | .code, '/' :: '/' :: s => (codeParts .lineComment s).modifyHead (['/', '/'] ++ ·)
  | .code, '/' :: '*' :: s => (codeParts .blockComment s).modifyHead (['/', '*'] ++ ·)
  | .code, c :: s =>
    if c = ',' then [] :: codeParts .code s else (codeParts .code s).modifyHead (c :: ·)
  | .lineComment, c :: s =>
    (codeParts (if c = '\n' then .code else .lineComment) s).modifyHead (c :: ·)
  | .blockComment, '*' :: '/' :: s => (codeParts .code s).modifyHead (['*', '/'] ++ ·)
  | .blockComment, c :: s => (codeParts .blockComment s).modifyHead (c :: ·)

theorem splitParams_append_comma (a b : List Char) :
    splitParams (a ++ ',' :: b) = splitParams a ++ splitParams b := by
  rw [splitParams, List.splitOn_append_cons_self, List.map_append, List.filter_append]
  rfl

/-- A text without commas is one parameter, unless it is blank. -/
theorem splitParams_of_no_comma {s : List Char} (h : ',' ∉ s) :
    splitParams s = if trim s = [] then [] else [trim s] := by
  rw [splitParams, List.splitOn_eq_singleton h]
  split <;> simp_all

/-- Cutting a list at its first comma cuts it between two parameters. -/
theorem splitParams_span (s : List Char) :
    splitParams (s.takeWhile (· ≠ ',')) ++ splitParams (s.dropWhile (· ≠ ',')) =
      splitParams s := by
  have hs : s.takeWhile (· ≠ ',') ++ s.dropWhile (· ≠ ',') = s := List.takeWhile_append_dropWhile
  have head := List.head?_dropWhile_not (fun c => decide (c ≠ ',')) s
  cases hd : s.dropWhile (· ≠ ',') with
  | nil =>
    rw [hd, List.append_nil] at hs
    rw [hs]
    simp [splitParams, trim]
  | cons c r =>
    rw [hd] at hs head
    obtain rfl : c = ',' := by simpa using head
    have tail : splitParams (',' :: r) = splitParams r := by
      simpa [splitParams, trim] using splitParams_append_comma [] r
    rw [tail, ← splitParams_append_comma, hs]

/-- No parameter stands among commas and blanks only. -/
theorem splitParams_eq_nil_iff (s : List Char) :
    splitParams s = [] ↔ ∀ c ∈ s, c = ',' ∨ isBlank c := by
  have parts : (∀ w ∈ s.splitOn ',', ∀ c ∈ w, isBlank c) ↔ ∀ c ∈ s, c = ',' ∨ isBlank c := by
    induction s with
    | nil => simp
    | cons x s ih =>
      rw [List.splitOn_cons_eq_if_modifyHead]
      by_cases hx : x = ','
      · simpa [hx] using ih
      · obtain ⟨w, ws, hw⟩ := List.exists_cons_of_ne_nil (List.splitOn_ne_nil ',' s)
        rw [hw] at ih ⊢
        simpa [hx, and_assoc] using fun _ => ih
  rw [← parts, splitParams, List.filter_eq_nil_iff]
  simp [trim_eq_nil_iff]

/-- The parts make up the text, and cutting the cleared text gives the cleared parts. -/
theorem codeParts_spec (m : Mode) (s : List Char) :
    ∃ p ps, codeParts m s = p :: ps ∧ s = p ++ ps.flatMap (',' :: ·) ∧
      (clear m s).splitOn ',' = clear m p :: ps.map (clear .code) := by
  -- What is read in front of a text belongs to its first part, and is cleared there as before.
  have extend {m n : Mode} {a b s : List Char} (plain : ',' ∉ b)
      (parts : codeParts m (a ++ s) = (codeParts n s).modifyHead (a ++ ·))
      (cleared : ∀ p q, s = p ++ q → clear m (a ++ p) = b ++ clear n p)
      (ih : ∃ p ps, codeParts n s = p :: ps ∧ s = p ++ ps.flatMap (',' :: ·) ∧
        (clear n s).splitOn ',' = clear n p :: ps.map (clear .code)) :
      ∃ p ps, codeParts m (a ++ s) = p :: ps ∧ a ++ s = p ++ ps.flatMap (',' :: ·) ∧
        (clear m (a ++ s)).splitOn ',' = clear m p :: ps.map (clear .code) := by
    obtain ⟨p, ps, hp, hs, hc⟩ := ih
    refine ⟨a ++ p, ps, by rw [parts, hp]; rfl, by rw [List.append_assoc, ← hs], ?_⟩
    rw [cleared s [] (List.append_nil s).symm, splitOn_append_of_not_mem plain, hc,
      cleared p _ hs]
    rfl
  have opens {a c : Char} {s p q : List Char} (h : ∀ r, c = '/' → s = a :: r → False)
      (hs : s = p ++ q) : ∀ r, c = '/' → p = a :: r → False :=
    fun r hc hp => h (r ++ q) hc (by rw [hs, hp, List.cons_append])
  fun_induction clear m s with
  | case1 m => exact ⟨[], [], by simp [codeParts], by simp⟩
  | case2 s ih => exact extend (a := ['/', '/']) (b := [' ']) (by decide) rfl (fun _ _ _ => rfl) ih
  | case3 s ih => exact extend (a := ['/', '*']) (b := [' ']) (by decide) rfl (fun _ _ _ => rfl) ih
  | case4 c s line block ih =>
    have parts : codeParts .code (c :: s) = if c = ',' then [] :: codeParts .code s
        else (codeParts .code s).modifyHead (c :: ·) := by
      rw [codeParts]
      · exact line
      · exact block
    by_cases comma : c = ','
    · obtain ⟨p, ps, hp, hs, hc⟩ := ih
      refine ⟨[], p :: ps, by rw [parts, if_pos comma, hp], by simp [comma, ← hs], ?_⟩
      rw [List.splitOn_cons_eq_if_modifyHead, hc, comma]
      rfl
    · rw [← clear_code_cons line block]
      refine extend (a := [c]) (b := [c]) (by simpa using Ne.symm comma) ?_ (fun p q hs => ?_) ih
      · rw [List.singleton_append, parts, if_neg comma]
        rfl
      · exact clear_code_cons (opens line hs) (opens block hs)
  | case5 s ih => exact extend (a := ['\n']) (b := ['\n']) (by decide) rfl (fun _ _ _ => rfl) ih
  | case6 c s hn ih =>
    have dropped (t : List Char) : clear .lineComment (c :: t) = clear .lineComment t := by
      rw [clear, if_neg hn]
    rw [← dropped]
    refine extend (a := [c]) (b := []) (by simp) ?_ (fun p _ _ => dropped p) ih
    rw [List.singleton_append, codeParts, if_neg hn]
    rfl
  | case7 s ih => exact extend (a := ['*', '/']) (b := []) (by simp) rfl (fun _ _ _ => rfl) ih
  | case8 s close ih =>
    exact extend (a := ['\n']) (b := ['\n']) (by decide) rfl (fun _ _ _ => rfl) ih
  | case9 c s close hn ih =>
    rw [← clear_block_cons hn close]
    refine extend (a := [c]) (b := []) (by simp) ?_ (fun p q hs => ?_) ih
    · rw [List.singleton_append, codeParts]
      · rfl
      · exact close
    · rw [List.singleton_append, clear_block_cons hn, List.nil_append]
      exact fun r hc hp => close (r ++ q) hc (by rw [hs, hp, List.cons_append])

example : codeParts .code "int a /* x, y */, int b".toList =
    ["int a /* x, y */".toList, " int b".toList] := by decide

/-- Cutting a list at every comma cuts each of its parts at the commas in its comments. -/
theorem splitParams_codeParts (s : List Char) :
    splitParams s = (codeParts .code s).flatMap splitParams := by
  obtain ⟨p, ps, hp, hs, -⟩ := codeParts_spec .code s
  rw [hp, hs]
  clear hp hs
  induction ps generalizing p with
  | nil => simp
  | cons q ps ih =>
    rw [List.flatMap_cons, List.cons_append, splitParams_append_comma, ih, ← List.flatMap_cons]

/-- The comments of a part hide its commas. -/
theorem comma_hidden {s p : List Char} (h : p ∈ codeParts .code s) : ',' ∉ clear .code p := by
  obtain ⟨q, qs, hq, -, hc⟩ := codeParts_spec .code s
  apply not_mem_of_mem_splitOn (s := clear .code s)
  rw [hc, ← List.map_cons, ← hq]
  exact List.mem_map_of_mem h

/-- Cutting a cleared list clears its parts, each of which is one parameter at most. -/
theorem splitParams_clear (s : List Char) :
    splitParams (clear .code s) =
      (codeParts .code s).flatMap fun p => splitParams (clear .code p) := by
  have each (ps : List (List Char)) (hps : ∀ p ∈ ps, ',' ∉ clear .code p) :
      ((ps.map (clear .code)).map trim).filter (· ≠ []) =
        ps.flatMap fun p => splitParams (clear .code p) := by
    induction ps with
    | nil => rfl
    | cons p ps ih =>
      rw [List.flatMap_cons, ← ih fun q hq => hps q (List.mem_cons_of_mem _ hq), splitParams,
        List.splitOn_eq_singleton (hps p List.mem_cons_self), ← List.filter_append]
      rfl
  obtain ⟨p, ps, hp, -, hc⟩ := codeParts_spec .code s
  rw [← each _ fun p => comma_hidden, splitParams, hc, hp]
  rfl

/-- A comment of a part opens before the first comma of the part. -/
theorem hasComment_takeWhile {s : List Char} (hidden : ',' ∉ clear .code s) (h : hasComment s) :
    hasComment (s.takeWhile (· ≠ ',')) := by
  fun_induction hasComment s with
  | case1 => contradiction
  | case2 => rfl
  | case3 => rfl
  | case4 c s line block ih =>
    rw [clear_code_cons line block, List.mem_cons, not_or] at hidden
    rw [List.takeWhile_cons_of_pos (by simpa using Ne.symm hidden.1)]
    exact hasComment_cons c (ih hidden.2 h)

end HeaderWrap.Header
