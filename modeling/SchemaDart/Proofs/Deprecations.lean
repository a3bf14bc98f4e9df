import SchemaDart.Proofs.Declared
import SchemaDart.Proofs.Literal.Canonical

/-!
# Deprecation marks and decoding

A mark is made from the arguments of one directive, and only those that are strings are decoded for it.  It might as
well be made from all: a literal decodes to a string only if it is one (`Literal.text?_of_decode`), so decoding every
argument and keeping the strings gives the same reasons (`Literal.texts_of_decodeEntries`).

The two part where an argument does not decode.  Decoding all fails there, while the mark is made as if the argument
were null (`ofDirective_nulled`): what does not decode is no string.
-/

namespace SchemaDart

/-- What is kept of two lists is the same if it is the same of their items. -/
theorem filterMap_eq_of_forall₂ {α β γ : Type} {R : α → β → Prop} {f : α → Option γ} {g : β → Option γ} {as : List α}
    {bs : List β} (h : List.Forall₂ R as bs) (hfg : ∀ a b, R a b → f a = g b) : as.filterMap f = bs.filterMap g := by
  induction h with
  | nil => rfl
  | cons hab _ ih => rw [List.filterMap_cons, List.filterMap_cons, hfg _ _ hab, ih]

namespace Literal

/-- A literal decodes to a string exactly if it is one. -/
theorem text?_of_decode {v : Literal} {value : Value} (h : v.decode = .ok value) : value.text? = v.string? := by
  cases decodes_of_decode h <;> rfl

theorem string?_of_decode_error {v : Literal} {fault : Fault} (h : v.decode = .error fault) : v.string? = none := by
  cases v with
  | string s =>
    rw [decode] at h
    cases h
  | _ => rfl

theorem decodeEntries_of_all {entries : List (String × Literal)} (h : ∀ e ∈ entries, ∃ value, e.2.decode = .ok value) :
    ∃ decoded, decodeEntries entries = .ok decoded := by
  induction entries with
  | nil => exact ⟨[], rfl⟩
  | cons e entries ih =>
    obtain ⟨key, v⟩ := e
    rw [List.forall_mem_cons] at h
    obtain ⟨value, hvalue⟩ := h.1
    obtain ⟨decoded, hdecoded⟩ := ih h.2
    refine ⟨(key, value) :: decoded, ?_⟩
    simp only at hvalue
    rw [decodeEntries, hvalue, hdecoded]
    rfl

/-- The strings among all decoded entries are the entries that are strings. -/
theorem texts_of_decodeEntries {entries : List (String × Literal)} {decoded : List (String × Value)}
    (h : decodeEntries entries = .ok decoded) :
    decoded.filterMap (·.2.text?) = entries.filterMap (·.2.string?) := by
  refine (filterMap_eq_of_forall₂ (decodeEntries_ok h) ?_).symm
  intro e e' he
  exact (text?_of_decode he.2).symm

end Literal

namespace Deprecation

/-- `a'` is the argument `a`, or null in its place if `a` does not decode or is a list or an object. -/
inductive Nulled : String × Literal → String × Literal → Prop
  | same (a : String × Literal) : Nulled a a
  | undecodable {key : String} {v : Literal} {fault : Fault} (h : v.decode = .error fault) : Nulled (key, v) (key, .null)
  | list (key : String) (items : List Literal) : Nulled (key, .list items) (key, .null)
  | object (key : String) (entries : List (String × Literal)) : Nulled (key, .object entries) (key, .null)

theorem string?_nulled {a a' : String × Literal} (h : Nulled a a') : a'.2.string? = a.2.string? := by
  cases h with
  | undecodable h => exact (Literal.string?_of_decode_error h).symm
  | _ => rfl

/-- Only the first directive of the name counts. -/
theorem mark?_append {before after : List Directive} {d : Directive} (hname : d.name = "deprecated")
    (hbefore : ∀ e ∈ before, e.name ≠ "deprecated") : mark? (before ++ d :: after) = some (ofDirective d) := by
  have hfind : (before ++ d :: after).find? (·.name = "deprecated") = some d := by
    rw [List.find?_eq_some_iff_append]
    refine ⟨by simpa using hname, before, after, rfl, ?_⟩
    intro e he
    simpa using hbefore e he
  rw [mark?, hfind, Option.map_some]

theorem mark?_eq_none_iff {directives : List Directive} :
    mark? directives = none ↔ ∀ d ∈ directives, d.name ≠ "deprecated" := by
  simp [mark?]

theorem ofDirective_of_ne_nil {d : Directive} (h : d.arguments ≠ []) :
    ofDirective d = .reasons (d.arguments.filterMap (·.2.string?)) := by
  simp [ofDirective, h]

theorem ofDirective_eq_bare_iff {d : Directive} : ofDirective d = .bare ↔ d.arguments = [] := by
  by_cases h : d.arguments = [] <;> simp [ofDirective, h]

theorem ofDirective_nulled {d : Directive} {arguments : List (String × Literal)}
    (h : List.Forall₂ Nulled d.arguments arguments) : ofDirective { d with arguments } = ofDirective d := by
  have hstrings : d.arguments.filterMap (·.2.string?) = arguments.filterMap (·.2.string?) :=
    filterMap_eq_of_forall₂ h fun a a' ha => (string?_nulled ha).symm
  have hempty : d.arguments.isEmpty = arguments.isEmpty := by
    rw [Bool.eq_iff_iff, List.isEmpty_iff_length_eq_zero, List.isEmpty_iff_length_eq_zero, h.length_eq]
  rw [ofDirective, ofDirective, hstrings, hempty]

/-- **The mark is that of decoding every argument.**  There always is an answer, and it is a mark if a directive is named
`deprecated`; then the first of these alone decides.  Without arguments the mark is bare, else its reasons are the
arguments that are strings.  These are also the texts that are found when all arguments decode and are decoded, and
any arguments that do not decode, or that have their strings further inside, may as well be null. -/
theorem mark_agrees_with_decoding (directives : List Directive) :
    ∃ mark, ofDirectives directives = .ok mark ∧
      (mark = none ↔ ∀ d ∈ directives, d.name ≠ "deprecated") ∧
      ∀ before d after, directives = before ++ d :: after → d.name = "deprecated" →
        (∀ e ∈ before, e.name ≠ "deprecated") →
        ofDirectives [d] = .ok mark ∧
        (mark = some .bare ↔ d.arguments = []) ∧
        (d.arguments ≠ [] → mark = some (.reasons (d.arguments.filterMap (·.2.string?)))) ∧
        (d.arguments ≠ [] → (∀ a ∈ d.arguments, ∃ value, a.2.decode = .ok value) →
          ∃ decoded, Literal.decodeEntries d.arguments = .ok decoded ∧
            mark = some (.reasons (decoded.filterMap (·.2.text?)))) ∧
        ∀ arguments, List.Forall₂ Nulled d.arguments arguments →
          ofDirectives (before ++ { d with arguments } :: after) = .ok mark := by
  refine ⟨mark? directives, ofDirectives_eq directives, mark?_eq_none_iff, ?_⟩
  rintro before d after rfl hname hbefore
  rw [mark?_append hname hbefore]
  refine ⟨?_, ?_, ?_, ?_, ?_⟩
  · rw [ofDirectives_eq, ← List.nil_append [d], mark?_append hname (by simp)]
  · rw [Option.some.injEq, ofDirective_eq_bare_iff]
  · intro hne
    rw [ofDirective_of_ne_nil hne]
  · intro hne hall
    obtain ⟨decoded, hdecoded⟩ := Literal.decodeEntries_of_all hall
    refine ⟨decoded, hdecoded, ?_⟩
    rw [ofDirective_of_ne_nil hne, Literal.texts_of_decodeEntries hdecoded]
  · intro arguments harguments
    have hmark : mark? (before ++ { d with arguments } :: after) = some (ofDirective { d with arguments }) :=
      mark?_append hname hbefore
    rw [ofDirectives_eq, hmark, ofDirective_nulled harguments]

/-- Reasons under one name, between a number out of range and a list that holds a string. -/
def crowdedArguments : List (String × Literal) :=
  [("since", .int "9223372036854775808"), ("reason", .string "first"), ("reason", .list [.string "inner"]),
    ("reason", .string "second")]

def settledArguments : List (String × Literal) :=
  [("since", .null), ("reason", .string "first"), ("reason", .list [.string "inner"]), ("reason", .string "second")]

theorem crowdedArguments_agree :
    List.Forall₂ Nulled crowdedArguments settledArguments ∧
      (∀ a ∈ settledArguments, ∃ value, a.2.decode = .ok value) ∧
      ∃ decoded, Literal.decodeEntries settledArguments = .ok decoded ∧
        ofDirectives [⟨"tag", []⟩, ⟨"deprecated", crowdedArguments⟩, ⟨"deprecated", []⟩] =
          .ok (some (.reasons (decoded.filterMap (·.2.text?)))) := by
  have hnulled : List.Forall₂ Nulled crowdedArguments settledArguments :=
    .cons (.undecodable rfl) (.cons (.same _) (.cons (.same _) (.cons (.same _) .nil)))
  have hall : ∀ a ∈ settledArguments, ∃ value, a.2.decode = .ok value := by
    simp only [settledArguments, List.forall_mem_cons]
    exact ⟨⟨_, rfl⟩, ⟨_, rfl⟩, ⟨_, rfl⟩, ⟨_, rfl⟩, fun _ h => nomatch h⟩
  have hbefore : ∀ e ∈ [(⟨"tag", []⟩ : Directive)], e.name ≠ "deprecated" := by
    intro e he
    rw [List.mem_singleton.mp he]
    decide
  obtain ⟨mark, hmark, -, hfirst⟩ :=
    mark_agrees_with_decoding [⟨"tag", []⟩, ⟨"deprecated", crowdedArguments⟩, ⟨"deprecated", []⟩]
  obtain ⟨-, -, -, -, hsame⟩ := hfirst [_] _ [_] rfl rfl hbefore
  obtain ⟨mark', hmark', -, hfirst'⟩ :=
    mark_agrees_with_decoding [⟨"tag", []⟩, ⟨"deprecated", settledArguments⟩, ⟨"deprecated", []⟩]
  obtain ⟨-, -, -, hdecoding, -⟩ := hfirst' [_] _ [_] rfl rfl hbefore
  obtain ⟨decoded, hdecoded, hreasons⟩ := hdecoding (List.cons_ne_nil _ _) hall
  refine ⟨hnulled, hall, decoded, hdecoded, ?_⟩
  rw [hmark, ← hsame _ hnulled, ← hreasons]
  exact hmark'

end Deprecation
end SchemaDart
