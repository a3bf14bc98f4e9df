import SchemaDart.Proofs.Inheritance

/-!
# Runs side by side

Two runs that leave the same events differ at most in their libraries: if one of them fails, so does the other, and
with the same fault.  As an equation this is `generate config' doc' = g <$> generate config doc`, where `g` turns the
one library into the other.  It is enough to know it of lenient runs, because cutting a run commutes with `g`
(`Logged.cut_map`); there it is a matter of what is discovered, of the traces and of the declarations
(`generate_eq_map`).

Traces are compared one definition at a time (`Context.trace_map`).
-/

namespace SchemaDart

namespace Logged

variable {α β : Type}

@[simp] theorem map_ok (f : α → β) (es : List Event) (a : α) :
    f <$> (⟨es, .ok a⟩ : Logged α) = ⟨es, .ok (f a)⟩ := by
  show (⟨es ++ [], .ok (f a)⟩ : Logged β) = _
  rw [List.append_nil]

@[simp] theorem map_error (f : α → β) (es : List Event) (fault : Fault) :
    f <$> (⟨es, .error fault⟩ : Logged α) = ⟨es, .error fault⟩ := rfl

theorem cut_map (f : α → β) (x : Logged α) : (f <$> x).cut = f <$> x.cut := by
  rw [← bind_pure_comp, ← bind_pure_comp, cut_bind]
  rfl

/-- A run and its image have the same events, and both fail with the same fault or both succeed. -/
theorem outcomes_of_eq_map {f : α → β} {x : Logged α} {y : Logged β} (h : y = f <$> x) :
    x.events = y.events ∧
    ((∃ fault, x.result = .error fault ∧ y.result = .error fault) ∨
      ∃ a, x.result = .ok a ∧ y.result = .ok (f a)) := by
  obtain ⟨es, r⟩ := x
  cases r with
  | error fault =>
    rw [h, map_error]
    exact ⟨rfl, .inl ⟨fault, rfl, rfl⟩⟩
  | ok a =>
    rw [h, map_ok]
    exact ⟨rfl, .inr ⟨a, rfl, rfl⟩⟩

end Logged

namespace Context

variable (c c' : Context)

/-- A change to definitions that a run does not report on leaves its trace as it is. -/
theorem trace_map (f : Definition → Definition)
    (hdegradations : ∀ repeated d, c'.degradations repeated (f d) = c.degradations repeated d)
    (hannouncement : ∀ d, (f d).announcement = d.announcement) (hschema : ∀ d, (f d).isSchema = d.isSchema)
    (repeated : Bool) (ds : List Definition) : c'.trace repeated (ds.map f) = c.trace repeated ds := by
  induction ds generalizing repeated with
  | nil => rfl
  | cons d ds ih => rw [List.map_cons, trace, trace, hdegradations, hannouncement, hschema, ih]

/-- Of its context, a trace depends on the catalog only. -/
theorem trace_config (config config' : Config) (catalog : Catalog) (repeated : Bool) (ds : List Definition) :
    trace ⟨config', catalog⟩ repeated ds = trace ⟨config, catalog⟩ repeated ds := by
  have htrace := trace_map ⟨config, catalog⟩ ⟨config', catalog⟩ id (fun _ _ => rfl) (fun _ => rfl) (fun _ => rfl)
    repeated ds
  rwa [List.map_id] at htrace

end Context

/-- Runs in the same mode that discover and meet the same have the same outcome, up to their libraries. -/
theorem generate_eq_map {config config' : Config} {doc doc' : Document} {g : Library → Library}
    (hstrict : config'.strict = config.strict)
    (hdiscovered : (Catalog.ofDocument doc').discovered = (Catalog.ofDocument doc).discovered)
    (htrace : (Context.ofDocument config' doc').trace false doc' = (Context.ofDocument config doc).trace false doc)
    (hlibrary : (⟨doc'.filterMap (Context.ofDocument config' doc').declaration?⟩ : Library) =
      g ⟨doc.filterMap (Context.ofDocument config doc).declaration?⟩)
    (hdeclares : doc'.countP Definition.declares = doc.countP Definition.declares) :
    generate config' doc' = g <$> generate config doc := by
  obtain ⟨marker, headers, strict⟩ := config
  obtain ⟨marker', headers', strict'⟩ := config'
  obtain rfl : strict = strict' := hstrict.symm
  have hlenient : generate ⟨marker', headers', false⟩ doc' = g <$> generate ⟨marker, headers, false⟩ doc := by
    have hsize : ∀ (c : Context) (ds : List Definition),
        (ds.filterMap c.declaration?).length = ds.countP Definition.declares := fun c ds => by
      rw [List.length_filterMap_eq_countP]
      simp only [Context.isSome_declaration?]
    have htrace' := calc (Context.ofDocument ⟨marker', headers', false⟩ doc').trace false doc'
        _ = (Context.ofDocument ⟨marker', headers', strict⟩ doc').trace false doc' := Context.trace_config _ _ _ _ _
        _ = (Context.ofDocument ⟨marker, headers, strict⟩ doc).trace false doc := htrace
        _ = (Context.ofDocument ⟨marker, headers, false⟩ doc).trace false doc := Context.trace_config _ _ _ _ _
    rw [generate_lenient rfl, generate_lenient rfl, Logged.map_ok]
    simp only [hsize, hdeclares, htrace']
    exact congrArg₂ Logged.mk (congrArg (· :: _) hdiscovered) (congrArg Except.ok hlibrary)
  cases strict with
  | false => exact hlenient
  | true => rw [generate_strict, generate_strict, hlenient, Logged.cut_map]

end SchemaDart
