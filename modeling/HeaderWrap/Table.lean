/-! Tables that keep their entries in the order of insertion and hold each key once. -/
namespace HeaderWrap

/-- Entries in order of insertion, no key twice. -/
structure Table (κ ν : Type) where
  entries : List (κ × ν)
  nodup : (entries.map Prod.fst).Nodup

namespace Table
variable {κ ν : Type}

def empty : Table κ ν := ⟨[], by simp⟩

instance : Inhabited (Table κ ν) := ⟨empty⟩
instance : EmptyCollection (Table κ ν) := ⟨empty⟩

def keys (t : Table κ ν) : List κ := t.entries.map Prod.fst

def values (t : Table κ ν) : List ν := t.entries.map Prod.snd

def size (t : Table κ ν) : Nat := t.entries.length

def isEmpty (t : Table κ ν) : Bool := t.entries.isEmpty

def mapValues (f : ν → ν) (t : Table κ ν) : Table κ ν where
  entries := t.entries.map fun e => (e.1, f e.2)
  nodup := by simpa [Function.comp_def] using t.nodup

def filterKeys (p : κ → Bool) (t : Table κ ν) : Table κ ν where
  entries := t.entries.filter fun e => p e.1
  nodup := t.nodup.sublist (List.filter_sublist.map _)

variable [DecidableEq κ]

def get? (t : Table κ ν) (k : κ) : Option ν := t.entries.lookup k

def contains (t : Table κ ν) (k : κ) : Bool := (t.get? k).isSome

private def place (k : κ) (f : Option ν → ν) : List (κ × ν) → List (κ × ν)
  | [] => [(k, f none)]
  | e :: es => if e.1 = k then (k, f (some e.2)) :: es else e :: place k f es

private theorem keys_place (k : κ) (f : Option ν → ν) (es : List (κ × ν)) :
    (place k f es).map Prod.fst =
      if k ∈ es.map Prod.fst then es.map Prod.fst else es.map Prod.fst ++ [k] := by
  induction es with
  | nil => simp [place]
  | cons e es ih =>
    by_cases h : e.1 = k
    · simp [place, h]
    · have hne : ¬ k = e.1 := fun he => h he.symm
      simp only [place, h, if_false, List.map_cons, ih, List.mem_cons, hne, false_or]
      split <;> simp

/-- Stores what `f` makes of the value under a key, which keeps its place; a new key goes to the
end. -/
def upsert (t : Table κ ν) (k : κ) (f : Option ν → ν) : Table κ ν where
  entries := place k f t.entries
  nodup := by
    rw [keys_place]
    split
    · exact t.nodup
    · rename_i h
      exact List.nodup_append.2 ⟨t.nodup, by simp, by
        intro a ha b hb hab
        simp only [List.mem_singleton] at hb
        exact h (hb ▸ hab ▸ ha)⟩

def insert (t : Table κ ν) (k : κ) (v : ν) : Table κ ν := t.upsert k fun _ => v

def modify (t : Table κ ν) (k : κ) (f : ν → ν) : Table κ ν :=
  match t.get? k with
  | some v => t.insert k (f v)
  | none => t

def ofList (es : List (κ × ν)) : Table κ ν := es.foldl (fun t e => t.insert e.1 e.2) empty

/-- An existing key keeps its place; a new one comes last. -/
theorem keys_upsert (t : Table κ ν) (k : κ) (f : Option ν → ν) :
    (t.upsert k f).keys = if k ∈ t.keys then t.keys else t.keys ++ [k] :=
  keys_place k f t.entries

private theorem lookup_place (k k' : κ) (f : Option ν → ν) (es : List (κ × ν)) :
    (place k f es).lookup k' = if k' = k then some (f (es.lookup k)) else es.lookup k' := by
  induction es with
  | nil =>
    by_cases h : k' = k
    · simp [place, h]
    · have hb : (k' == k) = false := by simpa using h
      simp [place, List.lookup_cons, h, hb]
  | cons e es ih =>
    obtain ⟨a, v⟩ := e
    by_cases h : a = k
    · subst h
      by_cases h' : k' = a
      · simp [place, h']
      · have hb : (k' == a) = false := by simpa using h'
        simp [place, List.lookup_cons, h', hb]
    · have hk : (k == a) = false := by simpa using fun he : k = a => h he.symm
      by_cases h' : k' = a
      · subst h'
        simp [place, h]
      · have hb : (k' == a) = false := by simpa using h'
        simp [place, h, List.lookup_cons, hb, hk, ih]

/-- Only the given key is affected. -/
theorem get?_upsert (t : Table κ ν) (k k' : κ) (f : Option ν → ν) :
    (t.upsert k f).get? k' = if k' = k then some (f (t.get? k)) else t.get? k' :=
  lookup_place k k' f t.entries

theorem get?_insert (t : Table κ ν) (k k' : κ) (v : ν) :
    (t.insert k v).get? k' = if k' = k then some v else t.get? k' :=
  get?_upsert t k k' fun _ => v

end Table
end HeaderWrap
