import SchemaDart.Command.Run
import SchemaDart.Proofs.Command.Changes
import SchemaDart.Proofs.Declared

/-!
# What a run leaves behind

A file can be written if its path ends with a name, no file is on the way to it and no directory stands in its place
(`FileSystem.Writable`).  If it cannot, no file is changed (`perform_writeFile_cases`); if it can, another file can
still be written afterwards unless one of the two is on the way to the other (`writable_after`).

So a run either finds no library and changes nothing (`perform_generateFiles_refused`), or has a library to write
(`perform_generateFiles_of_yields`), all of which is written exactly if the files that are asked for can be
(`perform_writeLibrary_cases`).  The main result is `run_writes_all_or_nothing`, for any parser and with a file system
that is a map from places.
-/

namespace SchemaDart
namespace Command

/-- Neither of two places is on the way to the other. -/
def Apart (place place' : List String) : Prop := ¬ Above place place' ∧ ¬ Above place' place

namespace FileSystem

/-- What it takes to write a file: the path ends with a name, no file is on the way to it, and no directory stands
there. -/
structure Writable (fs : FileSystem) (path : String) : Prop where
  ending : Path.ending path = .name
  way : ∀ p, Above (Path.components path) p → fs.file? p = none
  place : fs.node? (Path.components path) ≠ some .directory

variable {fs fs₁ fs' : FileSystem} {path text : String}

/-! ## Running on a file system -/

/-- What a computation gives that starts with a file system, and the file system that it leaves. -/
def perform {α : Type} (fs : FileSystem) (x : StateM FileSystem α) : α × FileSystem := StateT.run x fs

theorem perform_pure {α : Type} (a : α) : fs.perform (pure a) = (a, fs) := rfl

theorem perform_bind {α β : Type} {a : α} {x : StateM FileSystem α} (h : fs.perform x = (a, fs₁))
    (k : α → StateM FileSystem β) : fs.perform (x >>= k) = fs₁.perform (k a) := by
  have hbind : fs.perform (x >>= k) = (fs.perform x).2.perform (k (fs.perform x).1) := rfl
  rw [hbind, h]

theorem perform_readText {result : Except FileFault String} (h : fs.readText path = result) :
    fs.perform (MonadFiles.readText path) = (result, fs) := by
  rw [← h]
  rfl

theorem perform_attempt_ok (change : FileSystem → Except FileFault FileSystem) (h : change fs = .ok fs') :
    fs.perform (attempt change) = (.ok (), fs') := by
  simp [perform, attempt, StateT.run, h]

theorem perform_attempt_error (change : FileSystem → Except FileFault FileSystem) {fault : FileFault}
    (h : change fs = .error fault) : fs.perform (attempt change) = (.error fault, fs) := by
  simp [perform, attempt, StateT.run, h]

theorem perform_makeDirectories (path : String) :
    fs.perform (MonadFiles.makeDirectories path) = fs.perform (attempt (·.makeDirectories path)) := rfl

theorem perform_writeText (path text : String) :
    fs.perform (MonadFiles.writeText path text) = fs.perform (attempt (·.write path text.toUTF8)) := rfl

/-! ## Writing a file -/

theorem makeDirectories_of_isEmpty {parent : String} (h : parent.isEmpty) : fs.makeDirectories parent = .ok fs := by
  rw [String.isEmpty_iff.mp h]
  rfl

theorem perform_writeFile_noDirectory {fault : FileFault}
    (h : fs.makeDirectories (Path.parent path) = .error fault) :
    fs.perform (writeFile path text) = (.error (.noDirectory (Path.parent path) fault), fs) := by
  have hmade := perform_attempt_error (·.makeDirectories (Path.parent path)) h
  rw [← perform_makeDirectories] at hmade
  unfold writeFile
  dsimp only
  split_ifs with hparent
  · rw [makeDirectories_of_isEmpty hparent] at h
    cases h
  · rw [perform_bind hmade, perform_pure]

theorem perform_writeFile (h : fs.makeDirectories (Path.parent path) = .ok fs₁) {written : Except FileFault Unit}
    (hwrite : fs₁.perform (MonadFiles.writeText path text) = (written, fs')) :
    fs.perform (writeFile path text) = (written.mapError (.unwritable path), fs') := by
  have hmade := perform_attempt_ok (·.makeDirectories (Path.parent path)) h
  rw [← perform_makeDirectories] at hmade
  unfold writeFile
  dsimp only
  -- an empty parent is not made, but making it would change nothing
  split_ifs with hparent
  · rw [makeDirectories_of_isEmpty hparent] at h
    cases h
    rw [pure_bind, perform_bind hwrite]
    cases written <;> rfl
  · rw [perform_bind hmade]
    dsimp only
    rw [perform_bind hwrite]
    cases written <;> rfl

/-- Once its directories are made, a file can be written that could be before. -/
theorem writable_iff (h : fs.makeDirectories (Path.parent path) = .ok fs₁) (bytes : ByteArray) :
    fs.Writable path ↔ ∃ fs', fs₁.write path bytes = .ok fs' := by
  have hmade := changes_makeDirectories h
  have hplace : fs₁.node? (Path.components path) = fs.node? (Path.components path) :=
    (hmade (Path.components path)).eq (fun habove => habove.2 rfl) id
  constructor
  · rintro ⟨hending, -, hnode⟩
    have hpath : path ≠ "" := by
      rintro rfl
      cases hending
    rw [← hplace] at hnode
    exact ⟨_, write_eq_ok_iff.mpr ⟨hpath, walk_makeDirectories h, hnode, hending, rfl⟩⟩
  · rintro ⟨fs', hwrite⟩
    obtain ⟨-, hwalk, hnode, hending, -⟩ := write_eq_ok_iff.mp hwrite
    rw [hplace] at hnode
    refine ⟨hending, fun p hp => ?_, hnode⟩
    have hfile : fs₁.file? p = fs.file? p := hmade.file?_eq id
    rw [← hfile, file?, directory_of_walk hwalk hp]
    rfl

/-- What writing a file does: it fails and no file is changed, or it is written and no other file is changed. -/
theorem perform_writeFile_cases (fs : FileSystem) (path text : String) :
    (∃ failure fs', fs.perform (writeFile path text) = (.error failure, fs') ∧ ¬ fs.Writable path ∧
      Changes (Above (Path.components path)) Nowhere fs fs') ∨
    ∃ fs', fs.perform (writeFile path text) = (.ok (), fs') ∧ fs.Writable path ∧ fs'.readText path = .ok text ∧
      Changes (Above (Path.components path)) (· = Path.components path) fs fs' := by
  cases hmade : fs.makeDirectories (Path.parent path) with
  | error fault =>
    refine .inl ⟨_, fs, perform_writeFile_noDirectory hmade, fun hwritable => ?_, .refl fs⟩
    obtain ⟨fs', hok⟩ := exists_makeDirectories hwritable.way
    rw [hmade] at hok
    cases hok
  | ok fs₁ =>
    have hdirectories := changes_makeDirectories hmade
    cases hwrite : fs₁.write path text.toUTF8 with
    | error fault =>
      have hrun := perform_attempt_error (·.write path text.toUTF8) hwrite
      rw [← perform_writeText] at hrun
      refine .inl ⟨_, fs₁, perform_writeFile hmade hrun, fun hwritable => ?_, hdirectories⟩
      obtain ⟨fs', hok⟩ := (writable_iff hmade text.toUTF8).mp hwritable
      rw [hwrite] at hok
      cases hok
    | ok fs' =>
      have hrun := perform_attempt_ok (·.write path text.toUTF8) hwrite
      rw [← perform_writeText] at hrun
      have hwritable : fs.Writable path := (writable_iff hmade text.toUTF8).mpr ⟨fs', hwrite⟩
      refine .inr ⟨fs', perform_writeFile hmade hrun, hwritable, readText_write hwrite, ?_⟩
      exact (hdirectories.mono (fun _ hp => hp) fun _ hp => hp.elim).trans
        ((changes_write hwrite).mono (fun _ hp => hp.elim) fun _ hp => hp)

theorem writable_of_perform (h : fs.perform (writeFile path text) = (.ok (), fs')) : fs.Writable path := by
  rcases perform_writeFile_cases fs path text with ⟨_, _, herror, -⟩ | ⟨_, -, hwritable, -⟩
  · rw [h] at herror
    cases herror
  · exact hwritable

theorem changes_of_perform {failure : Failure} (h : fs.perform (writeFile path text) = (.error failure, fs')) :
    Changes (Above (Path.components path)) Nowhere fs fs' := by
  rcases perform_writeFile_cases fs path text with ⟨_, _, herror, -, hchanges⟩ | ⟨_, hok, -⟩
  · rw [h] at herror
    cases herror
    exact hchanges
  · rw [h] at hok
    cases hok

/-- After a file is written another can be written that could be before, if neither is on the way to the other. -/
theorem writable_after (other : String) (hread : fs'.readText path = .ok text)
    (h : Changes (Above (Path.components path)) (· = Path.components path) fs fs') :
    fs'.Writable other ↔ fs.Writable other ∧ Apart (Path.components path) (Path.components other) := by
  obtain ⟨bytes, hbytes, -⟩ := readText_eq_ok_iff.mp hread
  obtain ⟨-, hwalk, hnode, -⟩ := read_eq_ok_iff.mp hbytes
  constructor
  · rintro ⟨hending, hway, hplace⟩
    refine ⟨⟨hending, fun p hp => ?_, fun hdirectory => hplace (h.directory hdirectory)⟩, ?_, ?_⟩
    · exact (h p).bytes?_eq_none (hway p hp)
    · exact fun habove => hplace (directory_of_walk hwalk habove)
    · intro habove
      have hfile := hway _ habove
      rw [file?, hnode] at hfile
      cases hfile
  · rintro ⟨⟨hending, hway, hplace⟩, hnot, hnot'⟩
    refine ⟨hending, fun p hp => ?_, fun hdirectory => ?_⟩
    · rw [h.file?_eq, hway p hp]
      rintro rfl
      exact hnot' hp
    · have hbecame := h (Path.components other)
      rw [hdirectory] at hbecame
      exact hplace (hbecame.directory_eq hnot)

theorem Changes.among {place : List String} {places : List (List String)}
    (h : Changes (Above place) (· = place) fs fs') (hplace : place ∈ places) :
    Changes (fun p => ∃ place ∈ places, Above place p) (· ∈ places) fs fs' := by
  refine h.mono (fun p hp => ⟨place, hplace, hp⟩) ?_
  rintro p rfl
  exact hplace

end FileSystem

/-! ## Writing a library -/

namespace Options

/-- The places of the files that the options ask for. -/
def places (o : Options) : List (List String) :=
  Path.components o.output :: o.snapshot.toList.map Path.components

/-- What it takes to write the files that the options ask for. -/
structure Writable (o : Options) (fs : FileSystem) : Prop where
  output : fs.Writable o.output
  snapshot : ∀ path ∈ o.snapshot, fs.Writable path ∧ Apart (Path.components path) (Path.components o.output)

/-- From `fs` to `fs'` a library is written as the options ask for it, and nothing else is changed: directories are
made that were missing on the way to its files.  A snapshot in the place of the Dart text is written over. -/
structure Written (o : Options) (library : Library) (fs fs' : FileSystem) : Prop where
  output : fs'.readText o.output = .ok library.text
  snapshot : ∀ path ∈ o.snapshot, Path.components path ≠ Path.components o.output →
    fs'.readText path = .ok library.snapshot
  changes : FileSystem.Changes (fun p => ∃ place ∈ o.places, Above place p) (· ∈ o.places) fs fs'

end Options

namespace FileSystem

variable {fs fs₁ fs' : FileSystem} {options : Options} {library : Library}

theorem perform_writeLibrary_none (h : options.snapshot = none) :
    fs.perform (writeLibrary options library) = fs.perform (writeFile options.output library.text) := by
  unfold writeLibrary
  rw [h]
  dsimp only
  rw [pure_bind]

theorem perform_writeLibrary_error {path : String} {failure : Failure} (h : options.snapshot = some path)
    (hwrite : fs.perform (writeFile path library.snapshot) = (.error failure, fs')) :
    fs.perform (writeLibrary options library) = (.error failure, fs') := by
  unfold writeLibrary
  rw [h]
  dsimp only
  rw [perform_bind hwrite, perform_pure]

theorem perform_writeLibrary_some {path : String} (h : options.snapshot = some path)
    (hwrite : fs.perform (writeFile path library.snapshot) = (.ok (), fs₁)) :
    fs.perform (writeLibrary options library) = fs₁.perform (writeFile options.output library.text) := by
  unfold writeLibrary
  rw [h]
  dsimp only
  rw [perform_bind hwrite]

/-- What writing a library does: it fails, or all of it is written. -/
theorem perform_writeLibrary_cases (fs : FileSystem) (options : Options) (library : Library) :
    (∃ failure fs', fs.perform (writeLibrary options library) = (.error failure, fs') ∧ ¬ options.Writable fs) ∨
    ∃ fs', fs.perform (writeLibrary options library) = (.ok (), fs') ∧ options.Writable fs ∧
      options.Written library fs fs' := by
  have houtput : Path.components options.output ∈ options.places := List.mem_cons_self
  cases hsnapshot : options.snapshot with
  | none =>
    rw [perform_writeLibrary_none hsnapshot]
    rcases perform_writeFile_cases fs options.output library.text with
      ⟨failure, fs', hrun, hnot, -⟩ | ⟨fs', hrun, hwritable, hread, hchanges⟩
    · exact .inl ⟨failure, fs', hrun, fun h => hnot h.output⟩
    · refine .inr ⟨fs', hrun, ⟨hwritable, ?_⟩, hread, ?_, hchanges.among houtput⟩
      · simp [hsnapshot]
      · simp [hsnapshot]
  | some path =>
    have hmem : path ∈ options.snapshot := hsnapshot
    have hpath : Path.components path ∈ options.places := by simp [Options.places, hsnapshot]
    rcases perform_writeFile_cases fs path library.snapshot with
      ⟨failure, fs', hrun, hnot, -⟩ | ⟨fs₁, hrun, hwritable, hread, hchanges⟩
    · exact .inl ⟨failure, fs', perform_writeLibrary_error hsnapshot hrun, fun h => hnot (h.snapshot path hmem).1⟩
    · rw [perform_writeLibrary_some hsnapshot hrun]
      have hafter := writable_after options.output hread hchanges
      rcases perform_writeFile_cases fs₁ options.output library.text with
        ⟨failure, fs', hrun', hnot, -⟩ | ⟨fs', hrun', hwritable', hread', hchanges'⟩
      · exact .inl ⟨failure, fs', hrun', fun h => hnot (hafter.mpr ⟨h.output, (h.snapshot path hmem).2⟩)⟩
      · obtain ⟨hbefore, hapart⟩ := hafter.mp hwritable'
        refine .inr ⟨fs', hrun', ⟨hbefore, ?_⟩, hread', ?_, (hchanges.among hpath).trans (hchanges'.among houtput)⟩
        · intro path' hpath'
          cases Option.mem_unique hmem hpath'
          exact ⟨hwritable, hapart⟩
        · intro path' hpath' hne
          cases Option.mem_unique hmem hpath'
          exact hchanges'.readText hne hread

end FileSystem

/-! ## Runs -/

/-- The configuration that the arguments ask for. -/
def Draft.config (d : Draft) : Config :=
  ⟨(d.value? .marker).getD "dynamic", .noHeaders ∉ d.switches, .strict ∈ d.switches⟩

theorem config_of_finish {d : Draft} {options : Options} (h : d.finish = .generate options) :
    options.config = d.config := by
  unfold Draft.finish at h
  split_ifs at h
  cases h
  rfl

section Schema

variable (parse? : String → Option Document) (config : Config) (schema : String) (fs : FileSystem)

/-- Why no library is to be had from a schema. -/
inductive Refused : Failure → Prop
  | unreadable {fault : FileFault} (h : fs.readText schema = .error fault) : Refused (.unreadable schema fault)
  | unparsable {text : String} (h : fs.readText schema = .ok text) (hparse : parse? text = none) :
      Refused (.unparsable schema)
  | notGenerated {text : String} {doc : Document} {fault : Fault} (h : fs.readText schema = .ok text)
      (hparse : parse? text = some doc) (hfault : (generate config doc).result = .error fault) :
      Refused (.notGenerated schema fault)

/-- The library that is to be had from a schema. -/
def Yields (library : Library) : Prop :=
  ∃ text doc, fs.readText schema = .ok text ∧ parse? text = some doc ∧ (generate config doc).result = .ok library

theorem refused_or_yields :
    (∃ failure, Refused parse? config schema fs failure) ∨ ∃ library, Yields parse? config schema fs library := by
  cases hread : fs.readText schema with
  | error fault => exact .inl ⟨_, .unreadable hread⟩
  | ok text =>
    cases hparse : parse? text with
    | none => exact .inl ⟨_, .unparsable hread hparse⟩
    | some doc =>
      cases hresult : (generate config doc).result with
      | error fault => exact .inl ⟨_, .notGenerated hread hparse hresult⟩
      | ok library => exact .inr ⟨library, text, doc, hread, hparse, hresult⟩

end Schema

/-- How a run ends that has a library to write. -/
def Outcome.ofWriting : Except Failure Unit → Outcome
  | .error reason => .failure reason
  | .ok () => .success

namespace FileSystem

variable {parse? : String → Option Document} {fs fs₁ fs' : FileSystem} {options : Options}

theorem perform_generateFiles_refused {failure : Failure}
    (h : Refused parse? options.config options.schema fs failure) :
    ∃ log, fs.perform (generateFiles parse? options) = (⟨.failure failure, log⟩, fs) := by
  unfold generateFiles
  cases h with
  | unreadable h =>
    rw [perform_bind (perform_readText h)]
    exact ⟨_, rfl⟩
  | unparsable h hparse =>
    rw [perform_bind (perform_readText h)]
    dsimp only
    rw [hparse]
    exact ⟨_, rfl⟩
  | notGenerated h hparse hfault =>
    rw [perform_bind (perform_readText h)]
    dsimp only
    rw [hparse]
    dsimp only
    rw [hfault]
    exact ⟨_, rfl⟩

theorem perform_generateFiles_of_yields {library : Library}
    (h : Yields parse? options.config options.schema fs library)
    {written : Except Failure Unit} (hwrite : fs.perform (writeLibrary options library) = (written, fs')) :
    ∃ log, fs.perform (generateFiles parse? options) = (⟨.ofWriting written, log⟩, fs') := by
  obtain ⟨text, doc, hread, hparse, hresult⟩ := h
  unfold generateFiles
  rw [perform_bind (perform_readText hread)]
  dsimp only
  rw [hparse]
  dsimp only
  rw [hresult]
  dsimp only
  rw [perform_bind hwrite]
  cases written with
  | error failure => exact ⟨_, rfl⟩
  | ok u => exact ⟨_, rfl⟩

/-- Arguments that ask for files decide how these are made; what else they ask for concerns the log. -/
theorem perform_runWith {environment : Option String} {args : List String} {report : Report}
    (h : Request.ofArguments args = .generate options)
    (hrun : fs.perform (runWith parse? environment args) = (report, fs'))
    {outcome : Outcome} (hgenerate : ∃ log, fs.perform (generateFiles parse? options) = (⟨outcome, log⟩, fs₁)) :
    report.outcome = outcome ∧ fs' = fs₁ := by
  obtain ⟨log, hgenerate⟩ := hgenerate
  unfold runWith at hrun
  rw [h] at hrun
  dsimp only at hrun
  rw [perform_bind hgenerate] at hrun
  cases hrun
  exact ⟨rfl, rfl⟩

end FileSystem

open FileSystem

/-- **A run writes all that is asked for, or fails.**  If no library is to be had from the schema it says why and
changes nothing.  It succeeds exactly if there is a library and its files can be written, and then they are, and nothing
else is changed but for missing directories.  If the snapshot cannot be written, the Dart text is left as it is.

This holds with any parser; `run` has `Document.parse?`.  The file system is an ideal one: a map from places, where two
paths lead to one place only if they have the same components.  Neither `..` nor links have a meaning of their own in
it, the working directory has no absolute path, and nothing fails for want of space or permission. -/
theorem run_writes_all_or_nothing (parse? : String → Option Document) (environment : Option String)
    (args : List String) (d : Draft) (options : Options)
    (hargs : Request.ofArguments args = d.finish) (hoptions : d.finish = .generate options)
    (fs fs' : FileSystem) (report : Report)
    (hrun : fs.perform (runWith parse? environment args) = (report, fs')) :
    (∀ failure, Refused parse? d.config options.schema fs failure → report.outcome = .failure failure ∧ fs' = fs) ∧
    (report.outcome = .success ↔ (∃ library, Yields parse? d.config options.schema fs library) ∧ options.Writable fs) ∧
    (report.outcome = .success →
      ∃ library, Yields parse? d.config options.schema fs library ∧ options.Written library fs fs') ∧
    ∀ library path failure fs₁, Yields parse? d.config options.schema fs library → options.snapshot = some path →
      fs.perform (writeFile path library.snapshot) = (.error failure, fs₁) →
      report.outcome = .failure failure ∧ fs' = fs₁ ∧
        fs'.file? (Path.components options.output) = fs.file? (Path.components options.output) := by
  have hrequest := hargs.trans hoptions
  rw [← config_of_finish hoptions]
  have hrefused : ∀ failure, Refused parse? options.config options.schema fs failure →
      report.outcome = .failure failure ∧ fs' = fs := fun failure h =>
    perform_runWith hrequest hrun (perform_generateFiles_refused h)
  -- a run that has a library to write ends as the writing does
  have hyields : ∀ library, Yields parse? options.config options.schema fs library →
      ¬ options.Writable fs ∧ report.outcome ≠ .success ∨
        options.Writable fs ∧ report.outcome = .success ∧ options.Written library fs fs' := by
    intro library h
    rcases perform_writeLibrary_cases fs options library with
      ⟨failure, fs₁, hwrite, hnot⟩ | ⟨fs₁, hwrite, hwritable, hwritten⟩
    · obtain ⟨houtcome, -⟩ := perform_runWith hrequest hrun (perform_generateFiles_of_yields h hwrite)
      refine .inl ⟨hnot, fun hsuccess => ?_⟩
      rw [houtcome] at hsuccess
      cases hsuccess
    · obtain ⟨houtcome, rfl⟩ := perform_runWith hrequest hrun (perform_generateFiles_of_yields h hwrite)
      exact .inr ⟨hwritable, houtcome, hwritten⟩
  have hsuccess : report.outcome = .success →
      ∃ library, Yields parse? options.config options.schema fs library ∧ options.Writable fs ∧
        options.Written library fs fs' := by
    intro houtcome
    rcases refused_or_yields parse? options.config options.schema fs with ⟨failure, h⟩ | ⟨library, h⟩
    · rw [(hrefused failure h).1] at houtcome
      cases houtcome
    · rcases hyields library h with ⟨-, hnot⟩ | ⟨hwritable, -, hwritten⟩
      · exact absurd houtcome hnot
      · exact ⟨library, h, hwritable, hwritten⟩
  refine ⟨hrefused, ⟨fun houtcome => ?_, ?_⟩, fun houtcome => ?_, ?_⟩
  · obtain ⟨library, h, hwritable, -⟩ := hsuccess houtcome
    exact ⟨⟨library, h⟩, hwritable⟩
  · rintro ⟨⟨library, h⟩, hwritable⟩
    rcases hyields library h with ⟨hnot, -⟩ | ⟨-, houtcome, -⟩
    · exact absurd hwritable hnot
    · exact houtcome
  · obtain ⟨library, h, -, hwritten⟩ := hsuccess houtcome
    exact ⟨library, h, hwritten⟩
  · intro library path failure fs₁ h hsnapshot hwrite
    have hlibrary := perform_writeLibrary_error hsnapshot hwrite
    obtain ⟨houtcome, rfl⟩ := perform_runWith hrequest hrun (perform_generateFiles_of_yields h hlibrary)
    exact ⟨houtcome, rfl, (changes_of_perform hwrite).file?_eq id⟩

/-! ### Missing directories, and one that cannot be made -/

def nestedArguments : List String :=
  ["--dump-json=out/meta/a.json", "--no-headers", "-o", "out/dart/a.dart", "a.graphql"]

def nestedDraft : Draft :=
  ⟨some "a.graphql", [.noHeaders], [.output, .snapshot], [(.output, "out/dart/a.dart"), (.snapshot, "out/meta/a.json")]⟩

def nestedOptions : Options :=
  ⟨"a.graphql", "out/dart/a.dart", some "out/meta/a.json", "dynamic", false, false, false⟩

def nestedFiles : FileSystem := ⟨[(["a.graphql"], .file "type A { b: Int }".toUTF8), (["out"], .directory)]⟩

/-- A file stands where the snapshot needs a directory. -/
def blockedFiles : FileSystem := nestedFiles.put ["out", "meta"] (.file "".toUTF8)

theorem nestedPaths_all_or_nothing :
    (nestedFiles.perform (run none nestedArguments)).1.outcome = .success ∧
    (∃ library, Yields Document.parse? nestedDraft.config "a.graphql" nestedFiles library ∧
      nestedOptions.Written library nestedFiles (nestedFiles.perform (run none nestedArguments)).2) ∧
    (∃ failure, (blockedFiles.perform (run none nestedArguments)).1.outcome = .failure failure) ∧
    (blockedFiles.perform (run none nestedArguments)).2.file? ["out", "dart", "a.dart"] = none := by
  have hparse : (Document.parse? "type A { b: Int }").isSome := by decide +kernel
  obtain ⟨doc, hdoc⟩ := Option.isSome_iff_exists.mp hparse
  have hread : nestedFiles.readText "a.graphql" = .ok "type A { b: Int }" := rfl
  have hread' : blockedFiles.readText "a.graphql" = .ok "type A { b: Int }" := rfl
  obtain ⟨library, hresult⟩ : ∃ library, (generate nestedDraft.config doc).result = .ok library := by
    rw [generate_lenient (by decide)]
    exact ⟨_, rfl⟩
  have hyields : Yields Document.parse? nestedDraft.config "a.graphql" nestedFiles library :=
    ⟨_, doc, hread, hdoc, hresult⟩
  have hyields' : Yields Document.parse? nestedDraft.config "a.graphql" blockedFiles library :=
    ⟨_, doc, hread', hdoc, hresult⟩
  have hwritable : nestedOptions.Writable nestedFiles := by
    obtain ⟨fs₁, hsnapshot⟩ : ∃ fs₁, nestedFiles.perform (writeFile "out/meta/a.json" "") = (.ok (), fs₁) := ⟨_, rfl⟩
    obtain ⟨fs₂, houtput⟩ : ∃ fs₂, nestedFiles.perform (writeFile "out/dart/a.dart" "") = (.ok (), fs₂) := ⟨_, rfl⟩
    refine ⟨writable_of_perform houtput, ?_⟩
    rintro path ⟨⟩
    refine ⟨writable_of_perform hsnapshot, ?_⟩
    unfold Apart Above
    decide
  obtain ⟨failure, fs₁, hblocked⟩ : ∃ failure fs₁,
      blockedFiles.perform (writeFile "out/meta/a.json" library.snapshot) = (.error failure, fs₁) := ⟨_, _, rfl⟩
  obtain ⟨-, hiff, hsuccess, -⟩ := run_writes_all_or_nothing Document.parse? none nestedArguments nestedDraft
    nestedOptions (by decide) (by decide) nestedFiles _ _ (Prod.eta _).symm
  obtain ⟨-, -, -, hfailure⟩ := run_writes_all_or_nothing Document.parse? none nestedArguments nestedDraft
    nestedOptions (by decide) (by decide) blockedFiles _ _ (Prod.eta _).symm
  have houtcome := hiff.mpr ⟨⟨library, hyields⟩, hwritable⟩
  obtain ⟨houtcome', -, hfile⟩ := hfailure library "out/meta/a.json" failure fs₁ hyields' rfl hblocked
  exact ⟨houtcome, hsuccess houtcome, ⟨failure, houtcome'⟩, hfile⟩

end Command
end SchemaDart
