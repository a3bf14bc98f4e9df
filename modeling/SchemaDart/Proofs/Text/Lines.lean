import Mathlib.Algebra.BigOperators.Group.List.Basic
import Mathlib.Algebra.GroupWithZero.Nat
import SchemaDart.Proofs.Headers
import SchemaDart.Proofs.References

/-!
# The lines of the Dart text

`Breaks n s` says that the text `s` has `n` line feeds and no carriage return.  It has a rule for each way in which
texts are put together, and so goes along with the printers: a literal breaks no line, whatever text it holds, hence
neither does a deprecation mark; a declaration has the lines of its header, one for each item of its body and for
each mark of a member, and two for itself.

To keep to one line is one of the properties that concatenation keeps.  Such a property goes along with the printers
of types and parameters and with the translation of names (`Concatenative`): a declaration has it if its definition
and the marker for scalars have it.

In a library that is generated the names come from the document and from the marker for scalars
(`Concatenative.declaration`), so its lines can be counted if these keep to one line
(`reasons_stay_on_their_line`).
-/

namespace SchemaDart

/-- The text has `n` line feeds and no carriage return. -/
def Breaks (n : Nat) (s : String) : Prop := s.toList.count '\n' = n ∧ '\r' ∉ s.toList

/-- The text has neither line feed nor carriage return. -/
def OneLine (s : String) : Prop := Breaks 0 s

instance (n : Nat) (s : String) : Decidable (Breaks n s) := inferInstanceAs (Decidable (_ ∧ _))

instance (s : String) : Decidable (OneLine s) := inferInstanceAs (Decidable (Breaks 0 s))

namespace Breaks

variable {α : Type} {k m n : Nat} {s t : String}

theorem append (hs : Breaks m s) (ht : Breaks n t) : Breaks (m + n) (s ++ t) := by
  refine ⟨?_, ?_⟩
  · rw [String.toList_append, List.count_append, hs.1, ht.1]
  · rw [String.toList_append, List.mem_append, not_or]
    exact ⟨hs.2, ht.2⟩

theorem appendOneLine (hs : Breaks n s) (ht : OneLine t) : Breaks n (s ++ t) := hs.append ht

variable {f : α → String} {lines : α → Nat} {as : List α}

theorem join (h : ∀ a ∈ as, Breaks (lines a) (f a)) : Breaks (as.map lines).sum (String.join (as.map f)) := by
  unfold Breaks
  rw [toList_join_map]
  induction as with
  | nil => exact ⟨rfl, List.not_mem_nil⟩
  | cons a as ih =>
    obtain ⟨hcount, hreturn⟩ := ih fun b hb => h b (List.mem_cons_of_mem a hb)
    obtain ⟨hcount', hreturn'⟩ := h a List.mem_cons_self
    rw [List.flatMap_cons, List.count_append, List.mem_append, hcount, hcount', List.map_cons, List.sum_cons]
    exact ⟨rfl, not_or.mpr ⟨hreturn', hreturn⟩⟩

/-- Between two items there is a separator. -/
theorem intercalate (ht : Breaks k t) (h : ∀ a ∈ as, Breaks (lines a) (f a)) :
    Breaks ((as.map lines).sum + (as.length - 1) * k) (t.intercalate (as.map f)) := by
  cases as with
  | nil => exact ⟨by simp, by simp⟩
  | cons a as =>
    have hrest : Breaks (as.map fun b => k + lines b).sum (String.join (as.map fun b => t ++ f b)) :=
      join fun b hb => ht.append (h b (List.mem_cons_of_mem a hb))
    have hall := (h a List.mem_cons_self).append hrest
    have hsum : (as.map fun b => k + lines b).sum = (as.map lines).sum + as.length * k := by
      rw [List.sum_map_add, List.map_const', List.sum_replicate_nat, Nat.add_comm]
    unfold Breaks at hall ⊢
    rw [toList_intercalate_map, separated_cons, List.map_cons, List.sum_cons, List.length_cons, Nat.add_sub_cancel]
    simpa only [String.toList_append, toList_join_map, hsum, Nat.add_assoc] using hall

end Breaks

namespace OneLine

variable {s t : String}

theorem append (hs : OneLine s) (ht : OneLine t) : OneLine (s ++ t) := Breaks.append hs ht

theorem appendBreaks {n : Nat} (hs : OneLine s) (ht : Breaks n t) : Breaks n (s ++ t) :=
  Nat.zero_add n ▸ Breaks.append hs ht

end OneLine

/-- A property of texts that all texts on one line have and that concatenation keeps. -/
structure Concatenative (P : String → Prop) : Prop where
  oneLine : ∀ {s : String}, OneLine s → P s
  append : ∀ {s t : String}, P s → P t → P (s ++ t)

theorem OneLine.concatenative : Concatenative OneLine := ⟨id, OneLine.append⟩

namespace Concatenative

variable {P : String → Prop} (hP : Concatenative P) {α : Type} {f : α → String} {as : List α}
include hP

theorem enclosed {s opening closing : String} (hs : P s) (hopening : OneLine opening) (hclosing : OneLine closing) :
    P (opening ++ s ++ closing) :=
  hP.append (hP.append (hP.oneLine hopening) hs) (hP.oneLine hclosing)

theorem join (h : ∀ a ∈ as, P (f a)) : P (String.join (as.map f)) := by
  induction as with
  | nil =>
    rw [List.map_nil, String.join_nil]
    exact hP.oneLine (by decide)
  | cons a as ih =>
    rw [List.map_cons, String.join_cons]
    exact hP.append (h a List.mem_cons_self) (ih fun b hb => h b (List.mem_cons_of_mem a hb))

theorem intercalate {t : String} (ht : OneLine t) (h : ∀ a ∈ as, P (f a)) : P (t.intercalate (as.map f)) := by
  induction as with
  | nil =>
    rw [List.map_nil, String.intercalate_nil]
    exact hP.oneLine (by decide)
  | cons a as ih =>
    have ha := h a List.mem_cons_self
    have hrest := ih fun b hb => h b (List.mem_cons_of_mem a hb)
    cases as with
    | nil =>
      rw [List.map_cons, List.map_nil, String.intercalate_singleton]
      exact ha
    | cons b as =>
      rw [List.map_cons, List.map_cons, String.intercalate_cons_cons, ← List.map_cons]
      exact hP.append (hP.append ha (hP.oneLine ht)) hrest

end Concatenative

/-! ## Marks and members -/

namespace Deprecation

theorem oneLine_escapeChar (c : Char) : OneLine (escapeChar c) := by
  unfold escapeChar
  split
  iterate 6 · decide
  next _ _ _ hfeed hreturn _ =>
    refine ⟨?_, ?_⟩
    · rw [String.toList_singleton]
      exact List.count_eq_zero.mpr fun h => hfeed (List.mem_singleton.mp h).symm
    · rw [String.toList_singleton]
      exact fun h => hreturn (List.mem_singleton.mp h).symm

/-- A literal stands on one line, whatever its text is. -/
theorem oneLine_quote (s : String) : OneLine (quote s) := by
  have hescaped : OneLine (String.join (s.toList.map escapeChar)) :=
    OneLine.concatenative.join fun c _ => oneLine_escapeChar c
  unfold quote
  exact OneLine.concatenative.enclosed hescaped (by decide) (by decide)

theorem oneLine_text (d : Deprecation) : OneLine d.text := by
  cases d with
  | bare => decide
  | reasons texts =>
    have hlist : OneLine (", ".intercalate (texts.map quote)) :=
      OneLine.concatenative.intercalate (by decide) fun s _ => oneLine_quote s
    unfold text
    exact OneLine.concatenative.enclosed hlist (by decide) (by decide)

end Deprecation

/-- The names in a parameter. -/
def Parameter.names (p : Parameter) : List String := [p.name, p.type.elementName]

/-- The names in a member and its parameters. -/
def Member.names (m : Member) : List String :=
  m.name :: m.type.elementName :: m.parameters.flatMap Parameter.names

namespace Concatenative

variable {P : String → Prop} (hP : Concatenative P)
include hP

theorem typeText {t : DartType} (ht : P t.elementName) : P t.text := by
  induction t with
  | named name => exact ht
  | list element ih =>
    unfold DartType.text
    exact hP.enclosed (ih ht) (by decide) (by decide)

theorem parameterText {p : Parameter} (hp : ∀ name ∈ p.names, P name) : P p.text := by
  have hblank : P " " := hP.oneLine (by decide)
  have hname : P p.name := hp _ List.mem_cons_self
  have htype : P p.type.text := hP.typeText (hp _ (List.mem_cons_of_mem _ List.mem_cons_self))
  have hend : ∀ {mark : String}, P mark → P (mark ++ p.type.text ++ " " ++ p.name) := fun hmark =>
    hP.append (hP.append (hP.append hmark htype) hblank) hname
  unfold Parameter.text
  cases p.deprecation with
  | none =>
    have hempty : P "" := hP.oneLine (by decide)
    exact hend hempty
  | some d => exact hend (hP.append (hP.oneLine d.oneLine_text) hblank)

theorem parameterList {m : Member} (hm : ∀ name ∈ m.names, P name) : P m.parameterList := by
  unfold Member.parameterList
  split
  · exact hP.oneLine (by decide)
  · have hlist : P (", ".intercalate (m.parameters.map Parameter.text)) := by
      refine hP.intercalate (by decide) fun p hp => hP.parameterText fun name hname => hm name ?_
      exact List.mem_cons_of_mem _ (List.mem_cons_of_mem _ (List.mem_flatMap_of_mem hp hname))
    exact hP.enclosed hlist (by decide) (by decide)

theorem implementsClause {c : ClassDecl} (hc : ∀ name ∈ c.interfaces, P name) : P c.implementsClause := by
  unfold ClassDecl.implementsClause
  split
  · exact hP.oneLine (by decide)
  · have hlist : P (", ".intercalate (c.interfaces.map id)) := hP.intercalate (by decide) hc
    rw [List.map_id] at hlist
    exact hP.append (hP.oneLine (by decide)) hlist

end Concatenative

namespace Member

/-- The lines of a member: its own, and that of its mark. -/
def lines (m : Member) : Nat := 1 + if m.deprecation.isSome then 1 else 0

/-- Behind a line break a member has its lines, and no others for the reasons of its marks. -/
theorem breaks_text {m : Member} (hm : ∀ name ∈ m.names, OneLine name) : Breaks m.lines ("\n" ++ m.text) := by
  have hfeed : Breaks 1 "\n" := by decide
  have hindent : OneLine "  " := by decide
  have hblank : OneLine " " := by decide
  have hsemicolon : OneLine ";" := by decide
  have hname : OneLine m.name := hm _ List.mem_cons_self
  have htype : OneLine m.type.text :=
    OneLine.concatenative.typeText (hm _ (List.mem_cons_of_mem _ List.mem_cons_self))
  have hend : ∀ {n : Nat} {mark : String}, Breaks n mark →
      Breaks (1 + n) ("\n" ++ (mark ++ "  " ++ m.type.text ++ " " ++ m.name ++ m.parameterList ++ ";")) := fun hmark =>
    hfeed.append ((((((hmark.appendOneLine hindent).appendOneLine htype).appendOneLine hblank).appendOneLine
      hname).appendOneLine (OneLine.concatenative.parameterList hm)).appendOneLine hsemicolon)
  unfold lines text
  cases m.deprecation with
  | none =>
    have hempty : Breaks 0 "" := by decide
    exact hend hempty
  | some d => exact hend ((hindent.append d.oneLine_text).appendBreaks hfeed)

end Member

/-! ## Declarations -/

/-- The number of lines of a header that may be absent. -/
def headerLines : Option Header → Nat
  | none => 0
  | some ⟨_, none⟩ => 1
  | some ⟨_, some _⟩ => 2

theorem oneLine_repr (n : Nat) : OneLine n.repr := by
  refine ⟨List.count_eq_zero.mpr fun h => ?_, fun h => ?_⟩
  · exact absurd (isDigit_of_mem_repr h) (by decide)
  · exact absurd (isDigit_of_mem_repr h) (by decide)

theorem breaks_headerText {o : Option Header} (ho : ∀ h ∈ o, OneLine h.kind) :
    Breaks (headerLines o) (headerText o) := by
  cases o with
  | none => decide
  | some h =>
    obtain ⟨kind, lines⟩ := h
    have hopening : OneLine "// Kind: " := by decide
    have hfeed : Breaks 1 "\n" := by decide
    have hkind := (hopening.append (ho _ rfl)).appendBreaks hfeed
    cases lines with
    | none =>
      have hempty : OneLine "" := by decide
      exact hkind.appendOneLine hempty
    | some r =>
      have hlabel : OneLine "// Schema Lines: " := by decide
      have hdash : OneLine " - " := by decide
      exact hkind.append ((((hlabel.append (oneLine_repr _)).append hdash).append (oneLine_repr _)).appendBreaks hfeed)

/-- The names in a declaration, apart from its header. -/
def Declaration.names : Declaration → List String
  | .ofClass c => c.name :: (c.interfaces ++ c.members.flatMap Member.names)
  | .ofEnum e => e.name :: e.values
  | .ofSchema s => s.rootOperations.flatMap fun r => [r.operation, r.type]

/-- The number of lines between the braces of a declaration: one for each enum value, root operation or member, and
one for each member that is marked as deprecated. -/
def Declaration.bodyLines : Declaration → Nat
  | .ofClass c => c.members.length + c.members.countP (·.deprecation.isSome)
  | .ofEnum e => e.values.length
  | .ofSchema s => s.rootOperations.length

/-- A declaration is some opening, its items, and a brace on a line of its own. -/
theorem breaks_block {α : Type} {k : Nat} {s : String} {f : α → String} {lines : α → Nat} {as : List α}
    (hs : Breaks k s) (h : ∀ a ∈ as, Breaks (lines a) (f a)) :
    Breaks (k + 2 + (as.map lines).sum) (s ++ String.join (as.map f) ++ "\n\x7d\n") := by
  have hclosing : Breaks 2 "\n\x7d\n" := by decide
  have hall := (hs.append (Breaks.join h)).append hclosing
  rwa [Nat.add_right_comm] at hall

theorem Member.sum_lines (members : List Member) :
    (members.map Member.lines).sum = members.length + members.countP (·.deprecation.isSome) := by
  induction members with
  | nil => rfl
  | cons m members ih =>
    rw [List.map_cons, List.sum_cons, ih, List.length_cons, List.countP_cons, Member.lines]
    omega

namespace Declaration

/-- A declaration has the lines of its header, those of its body, and two for itself. -/
theorem breaks_text {d : Declaration} (hheader : ∀ h ∈ d.header, OneLine h.kind)
    (hnames : ∀ name ∈ d.names, OneLine name) : Breaks (headerLines d.header + 2 + d.bodyLines) d.text := by
  have hbrace : OneLine " \x7b" := by decide
  have hcomma : OneLine "," := by decide
  have hblank : OneLine " " := by decide
  have hsemicolon : OneLine ";" := by decide
  have hindented : Breaks 1 "\n  " := by decide
  have hone : ∀ {α : Type} (as : List α), (as.map fun _ => 1).sum = as.length := by simp
  have hopening := breaks_headerText hheader
  cases d with
  | ofClass c =>
    simp only [names, List.forall_mem_cons, List.forall_mem_append, List.forall_mem_flatMap] at hnames
    obtain ⟨hname, hinterfaces, hmembers⟩ := hnames
    have hkeyword : OneLine "abstract class " := by decide
    have hblock := breaks_block ((((hopening.appendOneLine hkeyword).appendOneLine hname).appendOneLine
      (OneLine.concatenative.implementsClause hinterfaces)).appendOneLine hbrace)
      fun m hm => Member.breaks_text (hmembers m hm)
    rwa [Member.sum_lines] at hblock
  | ofEnum e =>
    obtain ⟨hname, hvalues⟩ := List.forall_mem_cons.mp hnames
    have hkeyword : OneLine "enum " := by decide
    have hblock := breaks_block (((hopening.appendOneLine hkeyword).appendOneLine hname).appendOneLine hbrace)
      fun v hv => (hindented.appendOneLine (hvalues v hv)).appendOneLine hcomma
    rwa [hone] at hblock
  | ofSchema s =>
    have hkeyword : OneLine "class Schema \x7b" := by decide
    have hitem : ∀ r ∈ s.rootOperations, Breaks 1 ("\n  " ++ r.type ++ " " ++ r.operation ++ ";") := by
      intro r hr
      have hnames' : ∀ name ∈ [r.operation, r.type], OneLine name := fun name hname =>
        hnames name (List.mem_flatMap_of_mem hr hname)
      have hoperation := hnames' r.operation List.mem_cons_self
      have htype := hnames' r.type (List.mem_cons_of_mem _ List.mem_cons_self)
      exact (((hindented.appendOneLine htype).appendOneLine hblank).appendOneLine hoperation).appendOneLine hsemicolon
    have hblock := breaks_block (hopening.appendOneLine hkeyword) hitem
    rwa [hone] at hblock

end Declaration

/-- A library has the lines of its declarations and an empty one between two. -/
theorem Library.breaks_text {l : Library} (hheader : ∀ d ∈ l.declarations, ∀ h ∈ d.header, OneLine h.kind)
    (hnames : ∀ d ∈ l.declarations, ∀ name ∈ d.names, OneLine name) :
    Breaks ((l.declarations.map fun d => headerLines d.header + 2 + d.bodyLines).sum + (l.declarations.length - 1))
      l.text := by
  have hfeed : Breaks 1 "\n" := by decide
  have htext := hfeed.intercalate fun d hd => Declaration.breaks_text (hheader d hd) (hnames d hd)
  rwa [Nat.mul_one] at htext

/-! ## Generated libraries -/

/-- The names in an argument or input field. -/
def InputValue.names (v : InputValue) : List String := [v.name, v.type.elementName]

/-- The names in a field and its arguments. -/
def Field.names (f : Field) : List String :=
  f.name :: f.type.elementName :: f.arguments.flatMap InputValue.names

/-- The names in a definition that its declaration may show.  Others, such as those of directives, it never does. -/
def Definition.names (d : Definition) : List String :=
  match d.body with
  | .define (.object t) => t.name :: (t.interfaces ++ t.fields.flatMap Field.names)
  | .define (.interface t) => t.name :: t.fields.flatMap Field.names
  | .define (.input name fields) => name :: fields.flatMap InputValue.names
  | .define (.enum name values) => name :: values
  | .define (.union name members) => name :: members
  | .define (.schema operations) => operations.map Prod.snd
  | _ => []

theorem Body.oneLine_kind (b : Body) : OneLine b.kind := by
  have hnoun : ∀ system : TypeSystem, OneLine system.noun := fun system => by
    cases system <;> simp only [TypeSystem.noun] <;> decide
  have hdefinition : OneLine "Definition" := by decide
  have hextension : OneLine "Extension" := by decide
  cases b with
  | define system => exact (hnoun system).append hdefinition
  | extend system => exact (hnoun system).append hextension
  | _ =>
    simp only [Body.kind]
    decide

theorem OperationKind.oneLine_keyword (kind : OperationKind) : OneLine kind.keyword := by
  cases kind <;> decide

theorem Context.oneLine_header {c : Context} {d : Definition} {decl : Declaration}
    (hdecl : c.declaration? d = some decl) : ∀ h ∈ decl.header, OneLine h.kind := by
  intro h hh
  rw [header_of_declaration? hdecl] at hh
  unfold header at hh
  split at hh
  · cases hh
    exact d.body.oneLine_kind
  · cases hh

namespace Concatenative

variable {P : String → Prop} (hP : Concatenative P) {c : Context} (hmarker : P c.naming.marker)
include hP hmarker

theorem translatedName {name : String} (hname : P name) : P (c.naming.name name) := by
  unfold Naming.name
  split
  · exact hmarker
  · split
    · next builtin _ => exact hP.oneLine (by cases builtin <;> decide)
    · exact hname

theorem translatedType {t : TypeRef} (ht : P t.elementName) : P (c.naming.type t).elementName := by
  induction t with
  | named name _ => exact hP.translatedName hmarker ht
  | list element _ ih => exact ih ht

theorem parameterFor {v : InputValue} (hv : ∀ name ∈ v.names, P name) :
    ∀ name ∈ (c.parameterFor v).names, P name := by
  simp only [InputValue.names, Parameter.names, Context.parameterFor, List.forall_mem_cons] at hv ⊢
  exact ⟨hv.1, hP.translatedType hmarker hv.2.1, hv.2.2⟩

theorem memberFor {f : Field} (hf : ∀ name ∈ f.names, P name) : ∀ name ∈ (c.memberFor f).names, P name := by
  simp only [Field.names, Member.names, Context.memberFor, List.forall_mem_cons, List.forall_mem_flatMap,
    List.forall_mem_map] at hf ⊢
  exact ⟨hf.1, hP.translatedType hmarker hf.2.1, fun v hv => hP.parameterFor hmarker (hf.2.2 v hv)⟩

theorem inputMemberFor {v : InputValue} (hv : ∀ name ∈ v.names, P name) :
    ∀ name ∈ (c.inputMemberFor v).names, P name := by
  simp only [InputValue.names, Member.names, Context.inputMemberFor, List.forall_mem_cons] at hv ⊢
  exact ⟨hv.1, hP.translatedType hmarker hv.2.1, fun _ h => nomatch h⟩

/-- The names in a declaration come from its definition, or are the marker or built in. -/
theorem declaration {d : Definition} {decl : Declaration} (hd : ∀ name ∈ d.names, P name)
    (h : c.declaration? d = some decl) : ∀ name ∈ decl.names, P name := by
  unfold Definition.names at hd
  unfold Context.declaration? at h
  cases hb : d.body with
  | define system =>
    rw [hb] at hd h
    cases system with
    | object t =>
      cases h
      simp only [List.forall_mem_cons, List.forall_mem_append, List.forall_mem_flatMap] at hd
      simp only [Declaration.names, List.forall_mem_cons, List.forall_mem_append, List.forall_mem_flatMap,
        List.forall_mem_map]
      exact ⟨hd.1, hd.2.1, fun f hf => hP.memberFor hmarker (hd.2.2 f (List.mem_of_mem_filter hf))⟩
    | interface t =>
      cases h
      simp only [List.forall_mem_cons, List.forall_mem_flatMap] at hd
      simp only [Declaration.names, List.forall_mem_cons, List.nil_append, List.forall_mem_flatMap,
        List.forall_mem_map]
      exact ⟨hd.1, fun f hf => hP.memberFor hmarker (hd.2 f hf)⟩
    | input name fields =>
      cases h
      simp only [List.forall_mem_cons, List.forall_mem_flatMap] at hd
      simp only [Declaration.names, List.forall_mem_cons, List.nil_append, List.forall_mem_flatMap,
        List.forall_mem_map]
      exact ⟨hd.1, fun v hv => hP.inputMemberFor hmarker (hd.2 v hv)⟩
    | enum name values =>
      cases h
      exact hd
    | union name members =>
      cases h
      exact hd
    | schema operations =>
      cases h
      rw [List.forall_mem_map] at hd
      simp only [Declaration.names, List.forall_mem_flatMap, List.forall_mem_map, List.forall_mem_cons]
      exact fun o ho =>
        ⟨hP.oneLine o.1.oneLine_keyword, hP.translatedName hmarker (hd o ho), fun _ h => nomatch h⟩
    | scalar name => cases h
  | _ =>
    rw [hb] at h
    cases h

end Concatenative

/-- **A deprecation reason stays on its line.**  If the names in the document and the marker for scalars keep to one
line, then the text of a generated library has no carriage return, and as many line feeds as its declarations have
lines, with those between declarations: whatever the reasons are, none of them adds a line. -/
theorem reasons_stay_on_their_line {config : Config} {doc : Document} {lib : Library}
    (hmarker : OneLine config.marker) (hnames : ∀ d ∈ doc, ∀ name ∈ d.names, OneLine name)
    (h : (generate config doc).result = .ok lib) :
    '\r' ∉ lib.text.toList ∧
    lib.text.toList.count '\n' =
      (lib.declarations.map fun d => headerLines d.header + 2 + d.bodyLines).sum + (lib.declarations.length - 1) := by
  have hnaming : OneLine (Context.ofDocument config doc).naming.marker := hmarker
  have hdeclared : ∀ decl ∈ lib.declarations,
      (∀ h ∈ decl.header, OneLine h.kind) ∧ ∀ name ∈ decl.names, OneLine name := by
    intro decl hdecl
    rw [generate_ok h] at hdecl
    obtain ⟨d, hd, hdecl⟩ := List.mem_filterMap.mp hdecl
    exact ⟨Context.oneLine_header hdecl, OneLine.concatenative.declaration hnaming (hnames d hd) hdecl⟩
  obtain ⟨hcount, hreturn⟩ := Library.breaks_text (fun d hd => (hdeclared d hd).1) fun d hd => (hdeclared d hd).2
  exact ⟨hreturn, hcount⟩

/-- A field and its argument with reasons that hold line breaks and look like the end of the mark. -/
def brokenReasons : Document :=
  let deprecated (reasons : List String) : List Directive := [⟨"deprecated", reasons.map fun r => ("reason", .string r)⟩]
  [⟨.define (.object ⟨"Query", ["Node"],
      [⟨"users", .list (.named "User" true) false,
        [⟨"first", .named "Int" false, none, deprecated ["\")\r\n"]⟩], deprecated ["one\ntwo", "\r", "\\\n"]⟩]⟩),
    [], some ⟨4, 12⟩⟩,
    ⟨.define (.enum "Role" []), [], none⟩]

theorem brokenReasons_stay_on_their_line :
    ∃ lib, (generate .standard brokenReasons).result = .ok lib ∧ '\r' ∉ lib.text.toList ∧
      lib.text.toList.count '\n' = (2 + 2 + 2) + (1 + 2 + 0) + 1 := by
  have hrun : (generate .standard brokenReasons).result = .ok _ := rfl
  obtain ⟨hreturn, hcount⟩ := reasons_stay_on_their_line (by decide) (by decide) hrun
  exact ⟨_, hrun, hreturn, hcount⟩

end SchemaDart
