import SchemaDart.Dart.Declaration
import SchemaDart.Proofs.Text.Member

/-!
# The Dart text determines the declarations

Two libraries with the same Dart text are the same, if all their names are made of ASCII letters, digits and
underscores (`text_determines_library`).  Nothing is asked of the reasons of deprecation marks.

Headers are comments, and what stands behind a header is none: so a declaration shows its header and then, by the
first character of its body, what it declares.  It ends with a brace on a line of its own, where a member would be
indented, and is delimited in front of any text.
-/

namespace SchemaDart

/-! ## Names in declarations -/

def Header.WellNamed (h : Header) : Prop := IsName h.kind

@[mk_iff]
structure ClassDecl.WellNamed (c : ClassDecl) : Prop where
  header : ∀ h ∈ c.header, h.WellNamed
  name : IsName c.name
  interfaces : ∀ n ∈ c.interfaces, IsName n
  members : ∀ m ∈ c.members, m.WellNamed

@[mk_iff]
structure EnumDecl.WellNamed (e : EnumDecl) : Prop where
  header : ∀ h ∈ e.header, h.WellNamed
  name : IsName e.name
  values : ∀ v ∈ e.values, IsName v

@[mk_iff]
structure RootOperation.WellNamed (r : RootOperation) : Prop where
  operation : IsName r.operation
  type : IsName r.type

@[mk_iff]
structure SchemaDecl.WellNamed (s : SchemaDecl) : Prop where
  header : ∀ h ∈ s.header, h.WellNamed
  rootOperations : ∀ r ∈ s.rootOperations, r.WellNamed

def Declaration.WellNamed : Declaration → Prop
  | .ofClass c => c.WellNamed
  | .ofEnum e => e.WellNamed
  | .ofSchema s => s.WellNamed

/-- Every name in the library is a name of ASCII letters, digits and underscores. -/
def Library.WellNamed (l : Library) : Prop := ∀ d ∈ l.declarations, d.WellNamed

instance (h : Header) : Decidable h.WellNamed := inferInstanceAs (Decidable (IsName _))

instance (c : ClassDecl) : Decidable c.WellNamed := decidable_of_iff _ (ClassDecl.wellNamed_iff c).symm

instance (e : EnumDecl) : Decidable e.WellNamed := decidable_of_iff _ (EnumDecl.wellNamed_iff e).symm

instance (r : RootOperation) : Decidable r.WellNamed := decidable_of_iff _ (RootOperation.wellNamed_iff r).symm

instance (s : SchemaDecl) : Decidable s.WellNamed := decidable_of_iff _ (SchemaDecl.wellNamed_iff s).symm

instance : (d : Declaration) → Decidable d.WellNamed
  | .ofClass c => inferInstanceAs (Decidable c.WellNamed)
  | .ofEnum e => inferInstanceAs (Decidable e.WellNamed)
  | .ofSchema s => inferInstanceAs (Decidable s.WellNamed)

instance (l : Library) : Decidable l.WellNamed := inferInstanceAs (Decidable (∀ d ∈ l.declarations, d.WellNamed))

/-! ## Headers -/

namespace LineRange

/-- The comment that tells the lines. -/
def text (r : LineRange) : String := "// Schema Lines: " ++ r.first.repr ++ " - " ++ r.last.repr ++ "\n"

theorem toList_text (l : LineRange) (r : List Char) :
    l.text.toList ++ r = "// Schema Lines: ".toList ++
      (l.first.repr.toList ++ ' ' :: '-' :: ' ' :: (l.last.repr.toList ++ '\n' :: r)) := by
  unfold text
  rw [String.toList_append, String.toList_append, String.toList_append, String.toList_append,
    List.append_assoc, List.append_assoc, List.append_assoc, List.append_assoc]
  -- only the literals between the numbers are to be opened
  generalize l.first.repr.toList = first
  generalize l.last.repr.toList = last
  rfl

theorem lines_delimited : Delimited (fun l : LineRange => l.text.toList) (fun _ => True) (fun _ => True) := by
  rintro ⟨a, b⟩ ⟨a', b'⟩ r s - - - - h
  rw [toList_text, toList_text] at h
  obtain ⟨rfl, h1⟩ := number_delimited trivial trivial ⟨' ', _, rfl, by decide⟩ ⟨' ', _, rfl, by decide⟩
    (List.append_cancel_left h)
  obtain ⟨rfl, h2⟩ := number_delimited trivial trivial ⟨'\n', _, rfl, by decide⟩ ⟨'\n', _, rfl, by decide⟩
    (List.cons.inj (List.cons.inj (List.cons.inj h1).2).2).2
  exact ⟨rfl, (List.cons.inj h2).2⟩

end LineRange

namespace Header

theorem toList_text (h : Header) (r : List Char) :
    h.text.toList ++ r = "// Kind: ".toList ++ (h.kind.toList ++
      '\n' :: ((h.lines.map fun l => l.text.toList).getD [] ++ r)) := by
  have hnewline : "\n".toList = ['\n'] := rfl
  have hlines : h.text = "// Kind: " ++ h.kind ++ "\n" ++ (h.lines.map LineRange.text).getD "" := by
    unfold text
    cases h.lines <;> rfl
  rw [hlines]
  cases h.lines <;>
    simp only [String.toList_append, List.append_assoc, hnewline, List.cons_append, List.nil_append,
      Option.map_some, Option.map_none, Option.getD_some, Option.getD_none, String.toList_empty]

theorem header_delimited : Delimited (fun h : Header => h.text.toList) WellNamed (Begins (· ≠ '/')) := by
  have hlines : Delimited (fun o : Option LineRange => (o.map fun l => l.text.toList).getD []) (fun _ => True)
      (Begins (· ≠ '/')) := by
    refine (LineRange.lines_delimited.mono (fun _ h => h) fun _ _ => trivial).option ?_ |>.mono
      (fun _ _ _ _ => trivial) fun _ h => h
    rintro l r - ⟨c, t, hc, hne⟩
    rw [LineRange.toList_text] at hc
    exact hne (List.cons.inj hc).1.symm
  rintro ⟨k, l⟩ ⟨k', l'⟩ r s hh hh' hr hs h
  rw [toList_text, toList_text] at h
  obtain ⟨rfl, h1⟩ := name_delimited hh hh' ⟨'\n', _, rfl, by decide⟩ ⟨'\n', _, rfl, by decide⟩
    (List.append_cancel_left h)
  obtain ⟨rfl, hrs⟩ := hlines trivial trivial hr hs (List.cons.inj h1).2
  exact ⟨rfl, hrs⟩

end Header

theorem headerText_delimited :
    Delimited (fun o => (headerText o).toList) (fun o => ∀ h ∈ o, h.WellNamed) (Begins (· ≠ '/')) := by
  have heq : (fun o => (headerText o).toList) =
      fun o : Option Header => (o.map fun h => h.text.toList).getD [] := by
    funext o
    cases o <;> rfl
  rw [heq]
  refine Header.header_delimited.option ?_
  rintro h r - ⟨c, t, hc, hne⟩
  rw [Header.toList_text] at hc
  exact hne (List.cons.inj hc).1.symm

/-! ## Declarations

Behind its header a declaration has a body, whose first character tells what it declares. -/

/-- Items, each behind a line break, and a closing brace. -/
def block {α : Type} (p : α → List Char) (as : List α) : List Char := as.flatMap p ++ "\n\x7d\n".toList

theorem block_delimited {α : Type} {p : α → List Char} {P : α → Prop} (hp : Delimited p P fun _ => True)
    (hitem : ∀ a, ∃ t, p a = '\n' :: ' ' :: t) : Delimited (block p) (fun as => ∀ a ∈ as, P a) (fun _ => True) := by
  have hlist : Delimited (List.flatMap p) (fun as => ∀ a ∈ as, P a) (fun r => ∃ t, r = "\n\x7d\n".toList ++ t) := by
    refine hp.flatMap (fun _ _ _ => trivial) (fun _ _ => trivial) ?_
    rintro a r - ⟨t, ht⟩
    obtain ⟨u, hu⟩ := hitem a
    rw [hu] at ht
    exact absurd (List.cons.inj (List.cons.inj ht).2).1 (by decide)
  exact hlist.before _ fun r _ => ⟨r, rfl⟩

theorem begins_opening (r : List Char) : Begins (fun c => ¬ IsNameChar c) (" \x7b".toList ++ r) :=
  ⟨' ', _, rfl, by decide⟩

namespace ClassDecl

/-- The clause that names these interfaces. -/
def implementsText (names : List String) : List Char :=
  if names.isEmpty then [] else " implements ".toList ++ separated ", ".toList String.toList names

theorem implementsText_delimited :
    Delimited implementsText (fun names => ∀ n ∈ names, IsName n) (fun r => ∃ t, r = " \x7b".toList ++ t) := by
  refine Delimited.unlessEmpty _ (name_delimited.separated (fun r => ⟨',', _, rfl, by decide⟩) ?_ ?_ ?_) ?_
  · rintro _ ⟨t, rfl⟩
    exact begins_opening t
  · rintro name r hname ⟨t, ht⟩
    obtain ⟨c, u, hc, hchar⟩ := hname.begins_toList r
    obtain ⟨rfl, -⟩ := List.cons.inj (hc.symm.trans ht)
    exact absurd hchar (by decide)
  · rintro r ⟨t, ht⟩
    exact absurd (List.cons.inj ht).1 (by decide)
  · rintro r ⟨t, ht⟩
    exact absurd (List.cons.inj (List.cons.inj ht).2).1 (by decide)

/-- What stands behind the header of a class. -/
def body (c : ClassDecl) : List Char :=
  "abstract class ".toList ++ (c.name.toList ++ (implementsText c.interfaces ++
    (" \x7b".toList ++ block (fun m => '\n' :: m.text.toList) c.members)))

theorem toList_text (c : ClassDecl) : c.text.toList = (headerText c.header).toList ++ c.body := by
  have hclause : c.implementsClause.toList = implementsText c.interfaces := by
    unfold implementsClause implementsText
    split
    · rfl
    · rw [String.toList_append, ← List.map_id c.interfaces, toList_intercalate_map, List.map_id]
      rfl
  have hmembers : (String.join (c.members.map fun m => "\n" ++ m.text)).toList =
      c.members.flatMap fun m => '\n' :: m.text.toList := by
    rw [toList_join_map]
    simp only [String.toList_append]
    rfl
  unfold text body block
  simp only [String.toList_append, List.append_assoc, hclause, hmembers]

theorem body_append (c : ClassDecl) (r : List Char) :
    c.body ++ r = "abstract class ".toList ++ (c.name.toList ++ (implementsText c.interfaces ++
      (" \x7b".toList ++ (block (fun m => '\n' :: m.text.toList) c.members ++ r)))) := by
  unfold body
  rw [List.append_assoc, List.append_assoc, List.append_assoc, List.append_assoc]

/-- Of classes under one header, the body shows which it is. -/
theorem body_delimited (h : Option Header) :
    Delimited body (fun c => c.WellNamed ∧ c.header = h) (fun _ => True) := by
  have hmembers : Delimited (block fun m : Member => '\n' :: m.text.toList) (fun ms => ∀ m ∈ ms, m.WellNamed)
      (fun _ => True) := by
    refine block_delimited (Member.member_delimited.behind ['\n']) fun m => ?_
    obtain ⟨t, ht⟩ := m.toList_text_cons
    exact ⟨t, by rw [ht]⟩
  have hfollow : ∀ (names : List String) (r : List Char),
      Begins (fun c => ¬ IsNameChar c) (implementsText names ++ (" \x7b".toList ++ r)) := by
    intro names r
    unfold implementsText
    split
    · exact begins_opening r
    · exact ⟨' ', _, rfl, by decide⟩
  rintro ⟨h₁, n, is, ms⟩ ⟨h₂, n', is', ms'⟩ r s ⟨hc, hh⟩ ⟨hc', hh'⟩ - - heq
  obtain rfl : h₁ = h₂ := hh.trans hh'.symm
  rw [body_append, body_append] at heq
  obtain ⟨rfl, h1⟩ := name_delimited hc.name hc'.name (hfollow is _) (hfollow is' _) (List.append_cancel_left heq)
  obtain ⟨rfl, h2⟩ := implementsText_delimited hc.interfaces hc'.interfaces ⟨_, rfl⟩ ⟨_, rfl⟩ h1
  obtain ⟨rfl, hrs⟩ := hmembers hc.members hc'.members trivial trivial (List.append_cancel_left h2)
  exact ⟨rfl, hrs⟩

end ClassDecl

namespace EnumDecl

/-- A value as an item of the block. -/
def itemText (value : String) : List Char := "\n  ".toList ++ (value.toList ++ [','])

/-- What stands behind the header of an enum. -/
def body (e : EnumDecl) : List Char :=
  "enum ".toList ++ (e.name.toList ++ (" \x7b".toList ++ block itemText e.values))

theorem toList_text (e : EnumDecl) : e.text.toList = (headerText e.header).toList ++ e.body := by
  have hvalues : (String.join (e.values.map fun v => "\n  " ++ v ++ ",")).toList =
      e.values.flatMap itemText := by
    rw [toList_join_map]
    simp only [String.toList_append, List.append_assoc]
    rfl
  unfold text body block
  simp only [String.toList_append, List.append_assoc, hvalues]

theorem body_append (e : EnumDecl) (r : List Char) :
    e.body ++ r = "enum ".toList ++ (e.name.toList ++ (" \x7b".toList ++ (block itemText e.values ++ r))) := by
  unfold body
  rw [List.append_assoc, List.append_assoc, List.append_assoc]

/-- Of enums under one header, the body shows which it is. -/
theorem body_delimited (h : Option Header) :
    Delimited body (fun e => e.WellNamed ∧ e.header = h) (fun _ => True) := by
  have hitem : Delimited itemText IsName (fun _ => True) :=
    (name_delimited.before [','] fun r _ => ⟨',', r, rfl, by decide⟩).behind _
  rintro ⟨h₁, n, vs⟩ ⟨h₂, n', vs'⟩ r s ⟨he, hh⟩ ⟨he', hh'⟩ - - heq
  obtain rfl : h₁ = h₂ := hh.trans hh'.symm
  rw [body_append, body_append] at heq
  obtain ⟨rfl, h1⟩ := name_delimited he.name he'.name (begins_opening _) (begins_opening _)
    (List.append_cancel_left heq)
  obtain ⟨rfl, hrs⟩ := block_delimited hitem (fun _ => ⟨_, rfl⟩) he.values he'.values trivial trivial
    (List.append_cancel_left h1)
  exact ⟨rfl, hrs⟩

end EnumDecl

namespace SchemaDecl

/-- A root operation as an item of the block. -/
def itemText (o : RootOperation) : List Char :=
  "\n  ".toList ++ (o.type.toList ++ ' ' :: (o.operation.toList ++ [';']))

theorem item_delimited : Delimited itemText RootOperation.WellNamed (fun _ => True) := by
  rintro ⟨n, t⟩ ⟨n', t'⟩ r s ho ho' - - h
  simp only [itemText, List.append_assoc, List.cons_append, List.nil_append] at h
  obtain ⟨rfl, h1⟩ := name_delimited ho.type ho'.type ⟨' ', _, rfl, by decide⟩ ⟨' ', _, rfl, by decide⟩
    (List.append_cancel_left h)
  obtain ⟨rfl, h2⟩ := name_delimited ho.operation ho'.operation ⟨';', _, rfl, by decide⟩ ⟨';', _, rfl, by decide⟩
    (List.cons.inj h1).2
  exact ⟨rfl, (List.cons.inj h2).2⟩

/-- What stands behind the header of the class of root operations. -/
def body (s : SchemaDecl) : List Char := "class Schema \x7b".toList ++ block itemText s.rootOperations

theorem toList_text (s : SchemaDecl) : s.text.toList = (headerText s.header).toList ++ s.body := by
  have hitems : (String.join (s.rootOperations.map fun r => "\n  " ++ r.type ++ " " ++ r.operation ++ ";")).toList =
      s.rootOperations.flatMap itemText := by
    rw [toList_join_map]
    simp only [String.toList_append, List.append_assoc]
    rfl
  unfold text body block
  simp only [String.toList_append, List.append_assoc, hitems]

/-- Under one header, the body shows the root operations. -/
theorem body_delimited (h : Option Header) :
    Delimited body (fun s => s.WellNamed ∧ s.header = h) (fun _ => True) := by
  rintro ⟨h₁, os⟩ ⟨h₂, os'⟩ r s ⟨hs, hh⟩ ⟨hs', hh'⟩ - - heq
  obtain rfl : h₁ = h₂ := hh.trans hh'.symm
  unfold body at heq
  rw [List.append_assoc, List.append_assoc] at heq
  obtain ⟨rfl, hrs⟩ := block_delimited item_delimited (fun _ => ⟨_, rfl⟩) hs.rootOperations hs'.rootOperations
    trivial trivial (List.append_cancel_left heq)
  exact ⟨rfl, hrs⟩

end SchemaDecl

namespace Declaration

def header : Declaration → Option Header
  | .ofClass c => c.header
  | .ofEnum e => e.header
  | .ofSchema s => s.header

/-- What stands behind the header. -/
def body : Declaration → List Char
  | .ofClass c => c.body
  | .ofEnum e => e.body
  | .ofSchema s => s.body

theorem toList_text (d : Declaration) : d.text.toList = (headerText d.header).toList ++ d.body := by
  cases d with
  | ofClass c => exact c.toList_text
  | ofEnum e => exact e.toList_text
  | ofSchema s => exact s.toList_text

theorem WellNamed.header {d : Declaration} (hd : d.WellNamed) : ∀ h ∈ d.header, h.WellNamed := by
  cases d with
  | ofClass c => exact ClassDecl.WellNamed.header hd
  | ofEnum e => exact EnumDecl.WellNamed.header hd
  | ofSchema s => exact SchemaDecl.WellNamed.header hd

/-- A body is no comment. -/
theorem begins_body (d : Declaration) (r : List Char) : Begins (· ≠ '/') (d.body ++ r) := by
  cases d with
  | ofClass c => exact ⟨'a', _, rfl, by decide⟩
  | ofEnum e => exact ⟨'e', _, rfl, by decide⟩
  | ofSchema s => exact ⟨'c', _, rfl, by decide⟩

/-- A declaration shows where it ends, whatever comes behind it. -/
theorem declaration_delimited : Delimited (fun d : Declaration => d.text.toList) WellNamed (fun _ => True) := by
  rintro d d' r s hd hd' - - h
  dsimp only at h
  rw [toList_text, toList_text, List.append_assoc, List.append_assoc] at h
  obtain ⟨hheader, hbody⟩ := headerText_delimited hd.header hd'.header (d.begins_body r) (d'.begins_body s) h
  -- the first characters of the bodies are equal
  cases d with
  | ofClass c =>
    cases d' with
    | ofClass c' =>
      obtain ⟨rfl, hrs⟩ := ClassDecl.body_delimited _ ⟨hd, hheader⟩ ⟨hd', rfl⟩ trivial trivial hbody
      exact ⟨rfl, hrs⟩
    | ofEnum e' => exact absurd (List.cons.inj hbody).1 (by decide)
    | ofSchema s' => exact absurd (List.cons.inj hbody).1 (by decide)
  | ofEnum e =>
    cases d' with
    | ofClass c' => exact absurd (List.cons.inj hbody).1 (by decide)
    | ofEnum e' =>
      obtain ⟨rfl, hrs⟩ := EnumDecl.body_delimited _ ⟨hd, hheader⟩ ⟨hd', rfl⟩ trivial trivial hbody
      exact ⟨rfl, hrs⟩
    | ofSchema s' => exact absurd (List.cons.inj hbody).1 (by decide)
  | ofSchema s =>
    cases d' with
    | ofClass c' => exact absurd (List.cons.inj hbody).1 (by decide)
    | ofEnum e' => exact absurd (List.cons.inj hbody).1 (by decide)
    | ofSchema s' =>
      obtain ⟨rfl, hrs⟩ := SchemaDecl.body_delimited _ ⟨hd, hheader⟩ ⟨hd', rfl⟩ trivial trivial hbody
      exact ⟨rfl, hrs⟩

end Declaration

/-! ## Libraries -/

/-- **The text determines the library.**  Two libraries with the same text have the same declarations, with their
headers, types and marks, if every name in them is a name; the reasons of the marks are any texts. -/
theorem text_determines_library {l m : Library} (hl : l.WellNamed) (hm : m.WellNamed) (h : l.text = m.text) :
    l = m := by
  have hlist : Delimited (separated "\n".toList fun d : Declaration => d.text.toList)
      (fun ds => ∀ d ∈ ds, d.WellNamed) (· = []) := by
    refine Declaration.declaration_delimited.separated (fun _ => trivial) (fun _ _ => trivial) ?_ ?_
    · intro d r _ hnil
      dsimp only at hnil
      obtain ⟨c, t, hc, -⟩ := d.begins_body r
      rw [Declaration.toList_text, List.append_assoc, hc] at hnil
      exact absurd (List.append_eq_nil_iff.mp hnil).2 (List.cons_ne_nil c t)
    · exact fun r hnil => absurd hnil (List.cons_ne_nil '\n' r)
  have hchars := congrArg String.toList h
  unfold Library.text at hchars
  rw [toList_intercalate_map, toList_intercalate_map] at hchars
  obtain ⟨ds⟩ := l
  obtain ⟨ds'⟩ := m
  obtain ⟨rfl, -⟩ := hlist hl hm rfl rfl (congrArg (· ++ []) hchars)
  rfl

/-- A class with a field whose reasons look like the end of the mark and of the class. -/
def disguised : ClassDecl :=
  ⟨some ⟨"ObjectTypeDefinition", some ⟨4, 12⟩⟩, "Query", ["Node", "Entity"],
    [⟨"users", .list (.list (.named "User")), [⟨"first", .named "int", some .bare⟩],
      some (.reasons ["\")\n  int users;\n\x7d", "\\", ""])⟩]⟩

/-- That class and an enum, declared one after the other. -/
def disguisedLibrary : Library :=
  (Library.empty.push (.ofClass disguised)).push (.ofEnum ((EnumDecl.ofName "Role").addValue "ADMIN"))

theorem disguisedLibrary_determined :
    disguisedLibrary.WellNamed ∧
      disguisedLibrary.text = Library.text ⟨[.ofClass disguised, .ofEnum ⟨none, "Role", ["ADMIN"]⟩]⟩ ∧
      disguisedLibrary = ⟨[.ofClass disguised, .ofEnum ⟨none, "Role", ["ADMIN"]⟩]⟩ :=
  ⟨by decide, rfl, text_determines_library (by decide) (by decide) rfl⟩

end SchemaDart
