import Mathlib.Data.List.TakeWhile
import SchemaDart.Proofs.Declared

/-!
# Strict runs are lenient runs, cut short

`Logged.cut` ends a computation at its first degradation, which becomes its fault.  It commutes with the sequencing
of computations (`Logged.cut_bind`), and a strict run meets a degradation where a lenient one logs it.  So the
strict run over a document is the lenient run cut at its first degradation (`generate_strict`): it has the same log
up to there, and without a degradation the same result.
-/

namespace SchemaDart

/-- The degradation that an event tells of. -/
def Event.degradation? : Event → Option Degradation
  | .degraded g => some g
  | _ => none

theorem Event.level_ne_warn_iff {e : Event} : e.entry.level ≠ .warn ↔ e.degradation? = none := by
  cases e with
  | degraded g => exact ⟨fun h => absurd rfl h, fun h => nomatch h⟩
  | _ => exact ⟨fun _ => rfl, fun _ h => nomatch h⟩

namespace Logged

variable {α β : Type}

/-- The log that a computation leaves. -/
def log (x : Logged α) : List LogEntry := x.events.map Event.entry

/-- The first degradation that a computation has logged. -/
def degradation? (x : Logged α) : Option Degradation := x.events.findSome? Event.degradation?

/-- The computation up to its first degradation, which is then its fault. -/
def cut (x : Logged α) : Logged α where
  events := x.events.takeWhile (·.degradation?.isNone)
  result :=
    match x.degradation? with
    | some g => .error (.degraded g)
    | none => x.result

theorem degradation?_eq_none_iff {x : Logged α} :
    x.degradation? = none ↔ ∀ e ∈ x.events, e.degradation? = none :=
  List.findSome?_eq_none_iff

theorem cut_of_none {x : Logged α} (h : x.degradation? = none) : x.cut = x := by
  have hall : ∀ e ∈ x.events, e.degradation?.isNone := fun e he => by
    rw [degradation?_eq_none_iff.mp h e he]; rfl
  unfold cut
  rw [h, List.takeWhile_eq_self_iff.mpr hall]

theorem takeWhile_append_of_some {x : Logged α} {g : Degradation} (h : x.degradation? = some g)
    (es : List Event) :
    (x.events ++ es).takeWhile (·.degradation?.isNone) = x.events.takeWhile (·.degradation?.isNone) := by
  rw [List.takeWhile_append, if_neg]
  intro hlen
  -- otherwise no event of `x` would be a degradation
  have hself := (List.takeWhile_prefix (l := x.events) (·.degradation?.isNone)).eq_of_length hlen
  have hnone : x.degradation? = none := degradation?_eq_none_iff.mpr fun e he =>
    Option.isNone_iff_eq_none.mp (List.takeWhile_eq_self_iff.mp hself e he)
  rw [h] at hnone
  cases hnone

theorem degradation?_append (es : List Event) (r : Except Fault α) (y : Logged β) :
    (⟨es ++ y.events, y.result⟩ : Logged β).degradation? =
      (⟨es, r⟩ : Logged α).degradation?.or y.degradation? :=
  List.findSome?_append

/-- Cutting a sequence of computations is cutting each of them. -/
theorem cut_bind (x : Logged α) (f : α → Logged β) : (x >>= f).cut = x.cut >>= fun a => (f a).cut := by
  obtain ⟨es, r⟩ := x
  cases h : (⟨es, r⟩ : Logged α).degradation? with
  | none =>
    rw [cut_of_none h]
    cases r with
    | error e => exact cut_of_none h
    | ok a =>
      have hall : ∀ e ∈ es, e.degradation?.isNone := fun e he => by
        rw [degradation?_eq_none_iff.mp h e he]; rfl
      rw [ok_bind, ok_bind]
      unfold cut
      rw [degradation?_append es (.ok a), h, Option.none_or, List.takeWhile_append_of_pos hall]
  | some g =>
    have hcut : ∀ {γ : Type} (r' : Except Fault γ), (⟨es, r'⟩ : Logged γ).cut =
        ⟨es.takeWhile (·.degradation?.isNone), .error (.degraded g)⟩ := by
      intro γ r'
      have hg : (⟨es, r'⟩ : Logged γ).degradation? = some g := h
      unfold cut
      rw [hg]
    rw [hcut r, error_bind]
    cases r with
    | error e => exact hcut (.error e)
    | ok a =>
      rw [ok_bind]
      unfold cut
      rw [degradation?_append es (.ok a), h, takeWhile_append_of_some h]
      rfl

end Logged

/-! ## Runs -/

namespace Context

/-- The same context in strict mode. -/
def strict (c : Context) : Context := { c with config := { c.config with strict := true } }

/-- The same context in lenient mode. -/
def lenient (c : Context) : Context := { c with config := { c.config with strict := false } }

variable (c : Context)

theorem meet_strict (gs : List Degradation) : c.strict.meet gs = (c.lenient.meet gs).cut := by
  cases gs with
  | nil => rfl
  | cons g gs =>
    -- the first degradation ends the strict run, and the lenient run is cut there
    rw [meet, meet, Logged.cut_bind]
    rfl

theorem emit_strict (repeated : Bool) (d : Definition) :
    c.strict.emit repeated d = (c.lenient.emit repeated d).cut := by
  have hquiet : ∀ r : Option Declaration,
      (⟨d.announcement, .ok r⟩ : Logged _).cut = ⟨d.announcement, .ok r⟩ := by
    intro r
    refine Logged.cut_of_none (Logged.degradation?_eq_none_iff.mpr fun e he => ?_)
    rw [Definition.eq_emitting_of_mem_announcement he]
    rfl
  rw [emit_eq, emit_eq, Logged.cut_bind, hquiet, ← meet_strict]
  rfl

theorem emitAll_strict (repeated : Bool) (ds : List Definition) :
    c.strict.emitAll repeated ds = (c.lenient.emitAll repeated ds).cut := by
  induction ds generalizing repeated with
  | nil => rfl
  | cons d ds ih =>
    rw [emitAll, emitAll, emit_strict, ih, Logged.cut_bind]
    simp only [Logged.cut_bind]
    rfl

end Context

/-- **The strict run is the lenient run, cut at its first degradation.** -/
theorem generate_strict (marker : String) (headers : Bool) (doc : Document) :
    generate ⟨marker, headers, true⟩ doc = (generate ⟨marker, headers, false⟩ doc).cut := by
  let c := Context.ofDocument ⟨marker, headers, false⟩ doc
  rw [generate_eq, generate_eq, Logged.cut_bind]
  simp only [Logged.cut_bind]
  show Logged.emit _ >>= (fun _ => c.strict.emitAll false doc >>= _) = _
  rw [c.emitAll_strict]
  rfl

/-! ## Logs -/

namespace Logged

variable {α : Type}

theorem log_cut (x : Logged α) : x.cut.log = x.log.takeWhile (·.level ≠ .warn) := by
  have hpred : (fun e : Event => e.degradation?.isNone) =
      (fun w : LogEntry => decide (w.level ≠ .warn)) ∘ Event.entry := by
    funext e
    cases e <;> rfl
  unfold log
  rw [List.takeWhile_map, ← hpred]
  rfl

theorem no_warning_iff (x : Logged α) : (∀ e ∈ x.log, e.level ≠ .warn) ↔ x.degradation? = none := by
  unfold log
  rw [List.forall_mem_map, degradation?_eq_none_iff]
  constructor
  · exact fun h e he => Event.level_ne_warn_iff.mp (h e he)
  · exact fun h e he => Event.level_ne_warn_iff.mpr (h e he)

/-- The first warning in the log is that of the first degradation. -/
theorem first_warning {x : Logged α} {g : Degradation} (h : x.degradation? = some g) :
    x.log.find? (·.level = .warn) = some ⟨.warn, g.warning⟩ := by
  obtain ⟨before, e, after, hev, he, hbefore⟩ := List.findSome?_eq_some_iff.mp h
  have heq : e = .degraded g := by
    cases e with
    | degraded g' => rw [Option.some.inj he]
    | _ => cases he
  unfold log
  rw [hev, List.map_append, List.map_cons, heq, List.find?_append, List.find?_eq_none.mpr]
  · rfl
  · intro w hw
    obtain ⟨e', he', rfl⟩ := List.mem_map.mp hw
    have := Event.level_ne_warn_iff.mpr (hbefore e' he')
    simpa using this

end Logged

/-- The message of a warning says what the fault says. -/
def Fault.DescribedBy (message : String) : Fault → Prop
  | .degraded (.unsupported kind name) =>
    message = "skipping definition: " ++ (Fault.degraded (.unsupported kind name)).message
  | .degraded .repeatedSchema => message = (Fault.degraded .repeatedSchema).message
  | .degraded (.unknownInterface object interface) =>
    message = "type `" ++ object ++ "` implements unknown interface `" ++ interface
      ++ "`; no fields are inherited from it"
  | .invalidInt _ => False
  | .invalidFloat _ => False

theorem Degradation.described_by_warning (g : Degradation) : (Fault.degraded g).DescribedBy g.warning := by
  cases g <;> rfl

/-- **Strict mode is lenient mode cut at the first degradation.**  The strict run succeeds exactly if the lenient
run logs no warning, and then with the same library; its log is the longest prefix of the lenient log without a
warning; and if it fails, the first warning of the lenient log describes its fault. -/
theorem strict_run_of_lenient_run (marker : String) (headers : Bool) (doc : Document) :
    let L := generate ⟨marker, headers, false⟩ doc
    let S := generate ⟨marker, headers, true⟩ doc
    ((∃ lib, S.result = .ok lib) ↔ ∀ e ∈ L.log, e.level ≠ .warn) ∧
    (∀ lib, S.result = .ok lib → L.result = .ok lib) ∧
    S.log = L.log.takeWhile (·.level ≠ .warn) ∧
    (∀ fault, S.result = .error fault →
      ∃ w, L.log.find? (·.level = .warn) = some w ∧ fault.DescribedBy w.message) := by
  intro L S
  have hS : S = L.cut := generate_strict marker headers doc
  obtain ⟨lib, hL⟩ : ∃ lib, L.result = .ok lib := by
    have hrun : L = _ := generate_lenient rfl doc
    exact ⟨_, by rw [hrun]⟩
  rw [Logged.no_warning_iff, hS, Logged.log_cut]
  cases h : L.degradation? with
  | none =>
    rw [Logged.cut_of_none h]
    refine ⟨⟨fun _ => rfl, fun _ => ⟨lib, hL⟩⟩, fun _ h => h, rfl, fun fault hf => ?_⟩
    rw [hL] at hf
    cases hf
  | some g =>
    have hcut : L.cut.result = .error (.degraded g) := by unfold Logged.cut; rw [h]
    rw [hcut]
    refine ⟨⟨fun ⟨_, h⟩ => (nomatch h), fun h => (nomatch h)⟩, fun _ h => (nomatch h), rfl, fun fault hf => ?_⟩
    cases hf
    exact ⟨_, Logged.first_warning h, g.described_by_warning⟩

end SchemaDart
