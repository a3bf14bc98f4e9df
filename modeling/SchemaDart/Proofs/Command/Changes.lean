import Mathlib.Data.List.Basic
import SchemaDart.Command.FileSystem
import SchemaDart.Proofs.Command.Paths

/-!
# What changes in a file system

Three things can become of a place: it stays as it is, a directory is made where nothing was, or a file is written
where no directory was (`Became`).  `Changes D F` says of two file systems that directories are made at places in `D`
only and files written at places in `F` only.  Such changes compose (`Changes.trans`), and through them directories
stay directories and a file that is not written stays readable (`Changes.readText`).

Making directories makes missing ones only (`changes_makeDirectories`) and fails only for a file on the way
(`exists_makeDirectories`).  Writing a file writes that file, which is then read back (`changes_write`,
`readText_write`).
-/

namespace SchemaDart
namespace Command

/-- The place `p` is on the way to `place`.  The empty place is on every way, also to where an absolute path leads: it
always is a directory, so nothing depends on that. -/
def Above (place : List String) (p : List String) : Prop := p <+: place ∧ p ≠ place

/-- The bytes of a file; a directory has none. -/
def Node.bytes? : Node → Option ByteArray
  | .directory => none
  | .file bytes => some bytes

/-- The file at a place. -/
def FileSystem.file? (fs : FileSystem) (place : List String) : Option ByteArray := (fs.node? place).bind Node.bytes?

/-! ## What becomes of a place -/

/-- What may become of a place, where a directory may be made if `made` and a file written if `written`. -/
inductive Became (made written : Prop) : Option Node → Option Node → Prop
  | same (node : Option Node) : Became made written node node
  | directory (h : made) : Became made written none (some .directory)
  | file (h : written) {node : Option Node} (hnode : node ≠ some .directory) (bytes : ByteArray) :
      Became made written node (some (.file bytes))

namespace Became

variable {made written : Prop} {a b c : Option Node}

theorem mono {made' written' : Prop} (h : Became made written a b) (hmade : made → made')
    (hwritten : written → written') : Became made' written' a b := by
  cases h with
  | same => exact .same _
  | directory h => exact .directory (hmade h)
  | file h hnode bytes => exact .file (hwritten h) hnode bytes

theorem trans (hab : Became made written a b) (hbc : Became made written b c) : Became made written a c := by
  cases hab with
  | same => exact hbc
  | directory h =>
    -- where a directory has been made, nothing more is made or written
    cases hbc with
    | same => exact .directory h
    | file _ hnode _ => exact absurd rfl hnode
  | file h hnode bytes =>
    cases hbc with
    | same => exact .file h hnode bytes
    | file _ _ bytes' => exact .file h hnode bytes'

theorem eq_directory (h : Became made written (some .directory) b) : b = some .directory := by
  cases h with
  | same => rfl
  | file _ hnode _ => exact absurd rfl hnode

theorem directory_eq (h : Became made written a (some .directory)) (hmade : ¬ made) : a = some .directory := by
  cases h with
  | same => rfl
  | directory h => exact absurd h hmade

theorem eq_file {bytes : ByteArray} (h : Became made written (some (.file bytes)) b) (hwritten : ¬ written) :
    b = some (.file bytes) := by
  cases h with
  | same => rfl
  | file h _ _ => exact absurd h hwritten

theorem eq (h : Became made written a b) (hmade : ¬ made) (hwritten : ¬ written) : b = a := by
  cases h with
  | same => rfl
  | directory h => exact absurd h hmade
  | file h _ _ => exact absurd h hwritten

theorem bytes?_eq (h : Became made written a b) (hwritten : ¬ written) : b.bind Node.bytes? = a.bind Node.bytes? := by
  cases h with
  | same => rfl
  | directory _ => rfl
  | file h _ _ => exact absurd h hwritten

theorem bytes?_eq_none (h : Became made written a b) (hb : b.bind Node.bytes? = none) : a.bind Node.bytes? = none := by
  cases h with
  | same => exact hb
  | directory _ => rfl
  | file _ _ bytes => cases hb

end Became

namespace FileSystem

/-! ## Changes -/

/-- From `fs` to `fs'` directories are made at places in `D` only and files written at places in `F` only. -/
def Changes (D F : List String → Prop) (fs fs' : FileSystem) : Prop :=
  ∀ place, Became (D place) (F place) (fs.node? place) (fs'.node? place)

/-- There is no place. -/
def Nowhere (_ : List String) : Prop := False

variable {D F : List String → Prop} {fs fs₁ fs' : FileSystem}

theorem walk_eq_ok_iff {place names : List String} :
    fs.walk place names = .ok () ↔
      ∀ passed, passed ≠ [] → passed <+: names → fs.node? (place ++ passed) = some .directory := by
  induction names generalizing place with
  | nil => exact ⟨fun _ passed hne hpassed => absurd (List.prefix_nil.mp hpassed) hne, fun _ => rfl⟩
  | cons name names ih =>
    have hfirst : [name] <+: name :: names := List.cons_prefix_cons.mpr ⟨rfl, List.nil_prefix⟩
    rw [walk]
    constructor
    · intro hwalk passed hne hpassed
      split at hwalk
      · cases hwalk
      · cases hwalk
      · next hnode =>
        cases passed with
        | nil => exact absurd rfl hne
        | cons name' passed =>
          obtain ⟨rfl, htail⟩ := List.cons_prefix_cons.mp hpassed
          by_cases hlast : passed = []
          · rw [hlast, hnode]
          · rw [List.append_cons]
            exact ih.mp hwalk passed hlast htail
    · intro h
      rw [h [name] (List.cons_ne_nil _ _) hfirst]
      refine ih.mpr fun passed _ hpassed => ?_
      rw [← List.append_cons]
      exact h (name :: passed) (List.cons_ne_nil _ _) (List.cons_prefix_cons.mpr ⟨rfl, hpassed⟩)

/-- When a file is read. -/
theorem read_eq_ok_iff {path : String} {bytes : ByteArray} :
    fs.read path = .ok bytes ↔
      path ≠ "" ∧ fs.walk [] (Path.components path).dropLast = .ok () ∧
        fs.node? (Path.components path) = some (.file bytes) ∧ Path.ending path = .name := by
  unfold read
  by_cases hpath : path = ""
  · simp [hpath]
  · have hempty : ¬ path.isEmpty := by simpa using hpath
    rw [if_neg hempty]
    dsimp only
    cases fs.walk [] (Path.components path).dropLast with
    | error fault => simp [bind, Except.bind]
    | ok u =>
      simp only [bind, Except.bind]
      cases fs.node? (Path.components path) with
      | none => simp
      | some node =>
        cases node with
        | directory => simp
        | file bytes' => by_cases hending : Path.ending path = .name <;> simp [hpath, hending]

theorem readText_eq_ok_iff {path text : String} :
    fs.readText path = .ok text ↔ ∃ bytes, fs.read path = .ok bytes ∧ String.fromUTF8? bytes = some text := by
  unfold readText
  cases fs.read path with
  | error fault => simp [bind, Except.bind]
  | ok bytes =>
    simp only [bind, Except.bind]
    cases htext : String.fromUTF8? bytes <;> simp [pure, Except.pure, htext]

namespace Changes

theorem refl (fs : FileSystem) : Changes D F fs fs := fun _ => .same _

theorem trans (h : Changes D F fs fs₁) (h' : Changes D F fs₁ fs') : Changes D F fs fs' :=
  fun place => (h place).trans (h' place)

theorem mono {D' F' : List String → Prop} (h : Changes D F fs fs') (hD : ∀ p, D p → D' p) (hF : ∀ p, F p → F' p) :
    Changes D' F' fs fs' :=
  fun place => (h place).mono (hD place) (hF place)

theorem file?_eq (h : Changes D F fs fs') {place : List String} (hplace : ¬ F place) :
    fs'.file? place = fs.file? place := (h place).bytes?_eq hplace

theorem directory (h : Changes D F fs fs') {place : List String} (hplace : fs.node? place = some .directory) :
    fs'.node? place = some .directory := by
  have hbecame := h place
  rw [hplace] at hbecame
  exact hbecame.eq_directory

theorem walk (h : Changes D F fs fs') {place names : List String} (hwalk : fs.walk place names = .ok ()) :
    fs'.walk place names = .ok () :=
  walk_eq_ok_iff.mpr fun passed hne hpassed => h.directory (walk_eq_ok_iff.mp hwalk passed hne hpassed)

/-- A file that is not written is read as before. -/
theorem readText (h : Changes D F fs fs') {path text : String} (hpath : ¬ F (Path.components path))
    (hread : fs.readText path = .ok text) : fs'.readText path = .ok text := by
  obtain ⟨bytes, hbytes, htext⟩ := readText_eq_ok_iff.mp hread
  obtain ⟨hne, hwalk, hnode, hending⟩ := read_eq_ok_iff.mp hbytes
  have hplace := h (Path.components path)
  rw [hnode] at hplace
  exact readText_eq_ok_iff.mpr ⟨bytes, read_eq_ok_iff.mpr ⟨hne, h.walk hwalk, hplace.eq_file hpath, hending⟩, htext⟩

end Changes

/-! ## Directories -/

/-- What is put where no directory stands is found there. -/
theorem node?_put {place : List String} (hplace : fs.node? place ≠ some .directory) (node : Node) (p : List String) :
    (fs.put place node).node? p = if place = p then some node else fs.node? p := by
  unfold node? at hplace ⊢
  by_cases hp : p = [] ∨ p = [Path.root]
  · -- the working directory and the root are not in the table
    have hne : place ≠ p := by
      rintro rfl
      exact hplace (if_pos hp)
    rw [if_pos hp, if_pos hp, if_neg hne]
  · rw [if_neg hp, if_neg hp]
    exact Table.get?_insert place p node fs.nodes

theorem changes_put_directory {place : List String} (hplace : fs.node? place = none) :
    Changes (· = place) Nowhere fs (fs.put place .directory) := by
  intro p
  rw [node?_put (by simp [hplace])]
  split_ifs with hp
  · subst hp
    rw [hplace]
    exact .directory rfl
  · exact .same _

theorem changes_put_file {place : List String} (hplace : fs.node? place ≠ some .directory) (bytes : ByteArray) :
    Changes Nowhere (· = place) fs (fs.put place (.file bytes)) := by
  intro p
  rw [node?_put hplace]
  split_ifs with hp
  · subst hp
    exact .file rfl hplace bytes
  · exact .same _

theorem changes_makeBelow {place names : List String} (h : fs.makeBelow place names = .ok fs') :
    Changes (fun p => ∃ passed, p = place ++ passed ∧ passed ≠ [] ∧ passed <+: names) Nowhere fs fs' := by
  induction names generalizing fs place with
  | nil =>
    cases h
    exact .refl _
  | cons name names ih =>
    have hrest : ∀ p, (∃ passed, p = place ++ [name] ++ passed ∧ passed ≠ [] ∧ passed <+: names) →
        ∃ passed, p = place ++ passed ∧ passed ≠ [] ∧ passed <+: name :: names := by
      rintro p ⟨passed, rfl, -, hpassed⟩
      exact ⟨name :: passed, by simp, List.cons_ne_nil _ _, List.cons_prefix_cons.mpr ⟨rfl, hpassed⟩⟩
    rw [makeBelow] at h
    split at h
    · next hnode =>
      have hmade := changes_put_directory hnode
      refine (hmade.mono ?_ fun _ hp => hp).trans ((ih h).mono hrest fun _ hp => hp)
      rintro p rfl
      exact ⟨[name], rfl, List.cons_ne_nil _ _, List.cons_prefix_cons.mpr ⟨rfl, List.nil_prefix⟩⟩
    · exact (ih h).mono hrest fun _ hp => hp
    · cases h

theorem walk_makeBelow {place names : List String} (h : fs.makeBelow place names = .ok fs') :
    fs'.walk place names = .ok () := by
  induction names generalizing fs place with
  | nil => rfl
  | cons name names ih =>
    rw [makeBelow] at h
    rw [walk]
    split at h
    · next hnode =>
      have hvacant : fs.node? (place ++ [name]) ≠ some .directory := by simp [hnode]
      have hput := node?_put hvacant .directory (place ++ [name])
      rw [if_pos rfl] at hput
      rw [(changes_makeBelow h).directory hput]
      exact ih h
    · next hnode =>
      rw [(changes_makeBelow h).directory hnode]
      exact ih h
    · cases h

/-- Only a file is in the way of a directory. -/
theorem exists_makeBelow {place names : List String}
    (h : ∀ passed, passed ≠ [] → passed <+: names → fs.file? (place ++ passed) = none) :
    ∃ fs', fs.makeBelow place names = .ok fs' := by
  induction names generalizing fs place with
  | nil => exact ⟨fs, rfl⟩
  | cons name names ih =>
    have hhere := h [name] (List.cons_ne_nil _ _) (List.cons_prefix_cons.mpr ⟨rfl, List.nil_prefix⟩)
    have hbelow : ∀ passed, passed ≠ [] → passed <+: names → fs.file? (place ++ [name] ++ passed) = none := by
      intro passed _ hpassed
      rw [← List.append_cons]
      exact h (name :: passed) (List.cons_ne_nil _ _) (List.cons_prefix_cons.mpr ⟨rfl, hpassed⟩)
    rw [makeBelow]
    split
    · next hnode =>
      have hmade := changes_put_directory hnode
      refine ih fun passed hne hpassed => ?_
      rw [hmade.file?_eq id]
      exact hbelow passed hne hpassed
    · exact ih hbelow
    · next bytes hnode =>
      rw [file?, hnode] at hhere
      cases hhere

theorem above_iff {place p : List String} (hp : p ≠ []) : Above place p ↔ p <+: place.dropLast := by
  constructor
  · rintro ⟨⟨names, rfl⟩, hne⟩
    have hnames : names ≠ [] := by
      rintro rfl
      exact hne (List.append_nil p).symm
    rw [List.dropLast_append_of_ne_nil hnames]
    exact List.prefix_append p names.dropLast
  · intro h
    refine ⟨h.trans (List.dropLast_prefix _), ?_⟩
    rintro rfl
    have hlength := h.length_le
    rw [List.length_dropLast] at hlength
    have hpos := List.length_pos_iff.mpr hp
    omega

/-- Only missing directories on the way to a file are made for it. -/
theorem changes_makeDirectories {path : String} (h : fs.makeDirectories (Path.parent path) = .ok fs') :
    Changes (Above (Path.components path)) Nowhere fs fs' := by
  refine (changes_makeBelow h).mono ?_ fun _ hp => hp
  rintro p ⟨passed, rfl, hne, hpassed⟩
  rw [Path.components_parent] at hpassed
  exact (above_iff hne).mpr hpassed

/-- The way to a file is open when its directories are made. -/
theorem walk_makeDirectories {path : String} (h : fs.makeDirectories (Path.parent path) = .ok fs') :
    fs'.walk [] (Path.components path).dropLast = .ok () := by
  rw [makeDirectories, Path.components_parent] at h
  exact walk_makeBelow h

theorem exists_makeDirectories {path : String} (h : ∀ p, Above (Path.components path) p → fs.file? p = none) :
    ∃ fs', fs.makeDirectories (Path.parent path) = .ok fs' := by
  refine exists_makeBelow fun passed hne hpassed => h passed ?_
  rw [Path.components_parent] at hpassed
  exact (above_iff hne).mpr hpassed

theorem directory_of_walk {place p : List String} (h : fs.walk [] place.dropLast = .ok ()) (hp : Above place p) :
    fs.node? p = some .directory := by
  by_cases hne : p = []
  · subst hne
    rfl
  · exact walk_eq_ok_iff.mp h p hne ((above_iff hne).mp hp)

/-! ## Files -/

/-- When a file is written, and what is then changed. -/
theorem write_eq_ok_iff {path : String} {bytes : ByteArray} :
    fs.write path bytes = .ok fs' ↔
      path ≠ "" ∧ fs.walk [] (Path.components path).dropLast = .ok () ∧
        fs.node? (Path.components path) ≠ some .directory ∧ Path.ending path = .name ∧
        fs.put (Path.components path) (.file bytes) = fs' := by
  unfold write
  by_cases hpath : path = ""
  · simp [hpath]
  · have hempty : ¬ path.isEmpty := by simpa using hpath
    rw [if_neg hempty]
    dsimp only
    cases fs.walk [] (Path.components path).dropLast with
    | error fault => simp [bind, Except.bind]
    | ok u =>
      simp only [bind, Except.bind]
      cases fs.node? (Path.components path) with
      | none => cases Path.ending path <;> simp [hpath]
      | some node => cases node <;> cases Path.ending path <;> simp [hpath]

theorem changes_write {path : String} {bytes : ByteArray} (h : fs.write path bytes = .ok fs') :
    Changes Nowhere (· = Path.components path) fs fs' := by
  obtain ⟨-, -, hnode, -, rfl⟩ := write_eq_ok_iff.mp h
  exact changes_put_file hnode bytes

/-- A file that has been written is read back. -/
theorem readText_write {path text : String} (h : fs.write path text.toUTF8 = .ok fs') :
    fs'.readText path = .ok text := by
  obtain ⟨hne, hwalk, hplace, hending, hput⟩ := write_eq_ok_iff.mp h
  have hnode : fs'.node? (Path.components path) = some (.file text.toUTF8) := by
    rw [← hput, node?_put hplace, if_pos rfl]
  have hutf8 : String.fromUTF8? text.toUTF8 = some text := dif_pos text.isValidUTF8
  exact readText_eq_ok_iff.mpr
    ⟨text.toUTF8, read_eq_ok_iff.mpr ⟨hne, (changes_write h).walk hwalk, hnode, hending⟩, hutf8⟩

end FileSystem
end Command
end SchemaDart
