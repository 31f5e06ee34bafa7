import HeaderWrap.Disk.Tree

/-! What happens to a file tree when a file is made to hold a text: its path then reads as the text,
and everything else that was there is there still. -/
namespace HeaderWrap
open Disk

theorem bind_eq_ok_iff {ε α β : Type} {x : Except ε α} {f : α → Except ε β} {b : β} :
    (x >>= f) = .ok b ↔ ∃ a, x = .ok a ∧ f a = .ok b := by
  cases x with
  | error e => exact ⟨nofun, nofun⟩
  | ok a => exact ⟨fun h => ⟨a, rfl, h⟩, fun ⟨_, ha, h⟩ => Except.ok.inj ha ▸ h⟩

private theorem toOption_eq_some_iff {ε α : Type} {x : Except ε α} {a : α} :
    x.toOption = some a ↔ x = .ok a := by
  cases x with
  | error e => exact ⟨nofun, nofun⟩
  | ok b => exact ⟨fun h => congrArg _ (Option.some.inj h), fun h => congrArg _ (Except.ok.inj h)⟩

private theorem fromUTF8?_toUTF8 (text : String) : String.fromUTF8? text.toUTF8 = some text := by
  unfold String.fromUTF8?
  exact dif_pos text.isValidUTF8

namespace FileTree

def textAt? (t : FileTree) (place : Place) : Option String :=
  match t.node? place with
  | some (.file bytes) => String.fromUTF8? bytes
  | _ => none

def put (t : FileTree) (place : Place) (node : FileNode) : FileTree :=
  { t with nodes := t.nodes.insert place node }

private theorem node?_put (t : FileTree) (place : Place) (node : FileNode) (place' : Place) :
    (t.put place node).node? place' = if place' = place then some node else t.node? place' :=
  Table.get?_insert ..

def Names (t : FileTree) (path : String) (place : Place) : Prop :=
  Path.endsInSlash path = false ∧ t.locate path = .ok place

theorem Names.unique {t : FileTree} {path : String} {place place' : Place}
    (names : t.Names path place) (names' : t.Names path place') : place = place' :=
  Except.ok.inj (names.2.symm.trans names'.2)

/-- A path reads as the text at the place that it names. -/
theorem read_eq_ok_iff {t : FileTree} {path text : String} :
    t.read path = .ok text ↔ ∃ place, t.Names path place ∧ t.textAt? place = some text := by
  have found : t.read path = .ok text ↔ ∃ place, t.locate path = .ok place ∧
      Path.endsInSlash path = false ∧ t.textAt? place = some text := by
    rw [read, find, bind_assoc, bind_eq_ok_iff]
    refine exists_congr fun place => and_congr_right fun _ => ?_
    unfold textAt?
    cases t.node? place with
    | none => exact ⟨nofun, nofun⟩
    | some node =>
      cases node with
      | directory => exact ⟨nofun, nofun⟩
      | file bytes =>
        cases Path.endsInSlash path with
        | true => exact ⟨nofun, nofun⟩
        | false =>
          cases held : String.fromUTF8? bytes with
          | none => simp [held, bind, Except.bind, pure, Except.pure, throw, throwThe,
              MonadExceptOf.throw]
          | some held' => simp [held, bind, Except.bind, pure, Except.pure]
  rw [found]
  exact exists_congr fun place => and_left_comm.trans and_assoc.symm

/-- From one tree to a later one. What was there is there still, though a file at a written place
may hold something else, and no file is new at other places. -/
structure Extends (t t' : FileTree) (written : Place → Prop) : Prop where
  workingDirectory : t'.workingDirectory = t.workingDirectory
  node? : ∀ place node, t.node? place = some node → (written place → node = .directory) →
    t'.node? place = some node
  file : ∀ place bytes, t'.node? place = some (.file bytes) → ¬ written place →
    t.node? place = some (.file bytes)

namespace Extends
variable {t t' t'' : FileTree} {written written' : Place → Prop}

theorem refl (t : FileTree) (written : Place → Prop) : t.Extends t written :=
  ⟨rfl, fun _ _ there _ => there, fun _ _ there _ => there⟩

theorem trans (first : t.Extends t' written) (second : t'.Extends t'' written) :
    t.Extends t'' written where
  workingDirectory := second.workingDirectory.trans first.workingDirectory
  node? place node there stays :=
    second.node? place node (first.node? place node there stays) stays
  file place bytes there apart :=
    first.file place bytes (second.file place bytes there apart) apart

theorem mono (h : t.Extends t' written) (more : ∀ place, written place → written' place) :
    t.Extends t' written' :=
  ⟨h.workingDirectory, fun place node there stays => h.node? place node there (stays ∘ more place),
    fun place bytes there apart => h.file place bytes there (mt (more place) apart)⟩

theorem textAt? (h : t.Extends t' written) {place : Place} (apart : ¬ written place) {text : String}
    (there : t.textAt? place = some text) : t'.textAt? place = some text := by
  unfold FileTree.textAt? at there ⊢
  split at there
  · rename_i bytes file
    rw [h.node? place _ file fun w => (apart w).elim]
    exact there
  · contradiction

/-- A part of a path leads on through a directory, and that is there still. -/
theorem enter (h : t.Extends t' written) {here place : Place} {part : String}
    (entered : t.enter here part = .ok place) : t'.enter here part = .ok place := by
  unfold FileTree.enter at entered ⊢
  split at entered
  · contradiction
  · contradiction
  · rename_i directory
    rw [h.node? here _ directory fun _ => rfl]
    exact entered

theorem locate (h : t.Extends t' written) {path : String} {place : Place}
    (located : t.locate path = .ok place) : t'.locate path = .ok place := by
  obtain ⟨parts, cut, followed⟩ := bind_eq_ok_iff.mp located
  refine bind_eq_ok_iff.mpr ⟨parts, cut, ?_⟩
  clear cut
  unfold follow at followed ⊢
  rw [h.workingDirectory]
  generalize (if Path.isAbsolute path then [] else t.workingDirectory) = here at followed ⊢
  induction parts generalizing here with
  | nil => exact followed
  | cons part parts ih =>
    rw [List.foldlM_cons] at followed ⊢
    obtain ⟨next, entered, rest⟩ := bind_eq_ok_iff.mp followed
    exact bind_eq_ok_iff.mpr ⟨next, h.enter entered, ih next rest⟩

theorem names (h : t.Extends t' written) {path : String} {place : Place}
    (names : t.Names path place) : t'.Names path place :=
  ⟨names.1, h.locate names.2⟩

/-- A directory that is put where nothing is, or a node where a file may be written. -/
theorem put {place : Place} (node : FileNode) (may : written place ∨ node = .directory)
    (free : ∀ node', t.node? place = some node' → written place ∧ node' ≠ .directory) :
    t.Extends (t.put place node) written where
  workingDirectory := rfl
  node? place' node' there stays := by
    rw [node?_put, if_neg]
    · exact there
    · rintro rfl
      obtain ⟨goes, file⟩ := free node' there
      exact file (stays goes)
  file place' bytes there apart := by
    rw [node?_put] at there
    split at there
    · rename_i same
      obtain rfl := Option.some.inj there
      exact absurd (may.resolve_right nofun) (same ▸ apart)
    · exact there

end Extends

theorem write_eq_ok {t t' : FileTree} {path : String} {bytes : ByteArray}
    (wrote : t.write path bytes = .ok t') :
    ∃ place, t.Names path place ∧ t.node? place ≠ some .directory ∧
      t' = t.put place (.file bytes) := by
  cases slash : Path.endsInSlash path with
  | true =>
    rw [write, slash, if_pos rfl] at wrote
    simp only [bind_eq_ok_iff] at wrote
    obtain ⟨_, _, _, _, _, ⟨⟩, _⟩ := wrote
  | false =>
    rw [write, slash, if_neg (by decide)] at wrote
    obtain ⟨place, located, put⟩ := bind_eq_ok_iff.mp wrote
    refine ⟨place, ⟨slash, located⟩, ?_⟩
    split at put
    · contradiction
    · rename_i free
      exact ⟨free, (Except.ok.inj put).symm⟩

private theorem createDirectory_eq_ok {t t' : FileTree} {path : String}
    (made : t.createDirectory path = .ok t') :
    ∃ place, t.node? place = none ∧ t' = t.put place .directory := by
  obtain ⟨place, -, put⟩ := bind_eq_ok_iff.mp made
  split at put
  · contradiction
  · rename_i free
    exact ⟨place, free, (Except.ok.inj put).symm⟩

def Gains (t t' : FileTree) (path text : String) : Prop :=
  ∃ place, t'.Names path place ∧ t'.textAt? place = some text ∧ t.Extends t' (· = place)

private theorem write_spec {t t' : FileTree} {path text : String}
    (wrote : t.write path text.toUTF8 = .ok t') :
    t.Gains t' path text := by
  obtain ⟨place, names, free, rfl⟩ := write_eq_ok wrote
  have grown : t.Extends (t.put place (.file text.toUTF8)) (· = place) :=
    .put _ (.inl rfl) fun node there => ⟨rfl, fun directory => free (directory ▸ there)⟩
  refine ⟨place, grown.names names, ?_, grown⟩
  rw [textAt?, node?_put, if_pos rfl]
  exact fromUTF8?_toUTF8 text

private theorem isPresent_of_read {t : FileTree} {path text : String} (holds : t.read path = .ok text) :
    t.isPresent path := by
  obtain ⟨node, found, -⟩ := bind_eq_ok_iff.mp holds
  rw [isPresent, found]
  rfl

end FileTree

/-! ### Disk operations on trees -/

namespace Disk
variable {α β : Type}

def OnlyAdds (x : StateM FileTree α) : Prop := ∀ t : FileTree, t.Extends (x.run t).2 fun _ => False

theorem OnlyAdds.pure (a : α) : OnlyAdds (Pure.pure a) := fun t => .refl t _

theorem OnlyAdds.bind {x : StateM FileTree α} {f : α → StateM FileTree β} (first : OnlyAdds x)
    (next : ∀ a, OnlyAdds (f a)) : OnlyAdds (x >>= f) := fun t =>
  (first t).trans (next (x.run t).1 (x.run t).2)

private theorem onlyAdds_createDirectory (path : String) :
    OnlyAdds (Disk.createDirectory (m := StateM FileTree) path) := by
  intro t
  change t.Extends (FileTree.change (·.createDirectory path) t).2 _
  unfold FileTree.change
  split
  · rename_i t' made
    obtain ⟨place, free, rfl⟩ := FileTree.createDirectory_eq_ok made
    exact .put .directory (.inr rfl) fun node there => by rw [free] at there; contradiction
  · exact .refl t _

private theorem onlyAdds_ensureDirectory (path : String) :
    OnlyAdds (ensureDirectory (m := StateM FileTree) path) := by
  refine (onlyAdds_createDirectory path).bind fun result => ?_
  cases result with
  | ok => exact .pure _
  | error f => exact .bind (fun t => .refl t _) fun _ => .pure _

theorem onlyAdds_ensureAll (paths : List String) :
    OnlyAdds (ensureAll (m := StateM FileTree) paths) := by
  induction paths with
  | nil => exact .pure _
  | cons path above ih =>
    refine (onlyAdds_ensureDirectory path).bind fun result => ?_
    split
    · refine ih.bind fun rest => ?_
      cases rest with
      | ok => exact onlyAdds_ensureDirectory path
      | error f => exact .pure _
    · exact .pure _

/-- Directories are made before the file, so writing a file adds it and nothing but directories. -/
theorem writeFile_spec {path text : String} {t t' : FileTree} {u : Unit}
    (ran : (writeFile (m := StateM FileTree) path text).run t = (.ok u, t')) :
    t.Gains t' path text := by
  unfold writeFile at ran
  rw [StateT.run_bind] at ran
  have grown := onlyAdds_ensureAll (((Path.parent? path).map Path.directories).getD []) t
  generalize (ensureAll (m := StateM FileTree) _).run t = made at ran grown
  obtain ⟨result, t₁⟩ := made
  cases result with
  | error f => cases ran
  | ok =>
    change ((FileTree.change (·.write path text.toUTF8) t₁).1.mapError (WriteFault.file path),
      (FileTree.change (·.write path text.toUTF8) t₁).2) = _ at ran
    unfold FileTree.change at ran
    split at ran
    · rename_i t₂ wrote
      obtain rfl := (Prod.mk.inj ran).2
      obtain ⟨place, names, there, extends'⟩ := FileTree.write_spec wrote
      exact ⟨place, names, there, (grown.mono nofun).trans extends'⟩
    · cases ran

/-- An update reads the file before it writes. -/
theorem run_update (path text : String) (t : FileTree) :
    (update (m := StateM FileTree) path text).run t =
      if (t.read path).toOption = some text then (.ok .unchanged, t)
      else (((writeFile (m := StateM FileTree) path text).run t).1.map fun _ => .written,
        ((writeFile (m := StateM FileTree) path text).run t).2) := by
  unfold update
  rw [StateT.run_bind]
  change StateT.run (if t.isPresent path then _ else _) t = _
  by_cases present : t.isPresent path
  · rw [if_pos present, StateT.run_bind]
    change StateT.run (if (t.read path).toOption = some text then _ else _) t = _
    split
    · rfl
    · rfl
  · have lost : (t.read path).toOption ≠ some text := fun holds =>
      present (FileTree.isPresent_of_read (toOption_eq_some_iff.mp holds))
    rw [if_neg present, if_neg lost]
    rfl

/-- A file that holds the text is left alone, and so is the tree. -/
theorem update_unchanged {path text : String} {t : FileTree} (holds : t.read path = .ok text) :
    (update (m := StateM FileTree) path text).run t = (.ok .unchanged, t) := by
  rw [run_update, if_pos (toOption_eq_some_iff.mpr holds)]

/-- After an update the file holds the text, whether it was written or not. -/
theorem update_spec {path text : String} {t t' : FileTree} {u : Update}
    (ran : (update (m := StateM FileTree) path text).run t = (.ok u, t')) :
    t.Gains t' path text := by
  rw [run_update] at ran
  split at ran
  · rename_i holds
    obtain rfl := (Prod.mk.inj ran).2
    obtain ⟨place, names, there⟩ := FileTree.read_eq_ok_iff.mp (toOption_eq_some_iff.mp holds)
    exact ⟨place, names, there, .refl t _⟩
  · obtain ⟨result, rfl⟩ := Prod.mk.inj ran
    cases wrote : ((writeFile (m := StateM FileTree) path text).run t).1 with
    | error f => rw [wrote] at result; contradiction
    | ok done => exact writeFile_spec (Prod.ext wrote rfl)

end Disk
end HeaderWrap
