import Mathlib.Data.List.Chain
import SchemaDart.Proofs.Text.Lines

/-!
# Headers as comments

The lines of a header begin with `//`, and no other line of a library does.  So deleting these lines from the text of a
library takes off its headers and changes nothing else (`Library.withoutComments_text`), and whether a run is to write
headers is a matter of comments (`headers_are_comments`).

Behind the header of a declaration every line break is followed by an indentation or a closing brace.  `Indented` says
that none is followed by a slash, and that none is the last character.  With the second part it is a property that
concatenation keeps, and so goes along with the printers; what reasons there are in deprecation marks does not matter,
since their literals keep to one line.
-/

namespace SchemaDart

/-! ## Lines and comments -/

/-- The lines of a text, each with the line feed that ends it; the last may have none. -/
def splitLines : List Char → List (List Char)
  | [] => []
  | c :: cs =>
    let lines := splitLines cs
    if c = '\n' then [c] :: lines else (c :: lines.headD []) :: lines.tail

/-- Whether the line begins with `//`. -/
def isComment (line : List Char) : Bool := "//".toList.isPrefixOf line

/-- What is left of a text if the lines that begin with `//` are deleted. -/
def uncommented (cs : List Char) : List Char := ((splitLines cs).filter fun line => !isComment line).flatten

/-- The text with all lines deleted that begin with `//`. -/
def withoutComments (s : String) : String := String.ofList (uncommented s.toList)

theorem splitLines_feed (cs : List Char) : splitLines ('\n' :: cs) = ['\n'] :: splitLines cs := rfl

theorem splitLines_cons_of_ne {c : Char} (hc : c ≠ '\n') (cs : List Char) :
    splitLines (c :: cs) = (c :: (splitLines cs).headD []) :: (splitLines cs).tail := by
  rw [splitLines, if_neg hc]

/-- The first line begins where the text begins. -/
theorem splitLines_cons (c : Char) (cs : List Char) : ∃ line lines, splitLines (c :: cs) = (c :: line) :: lines := by
  by_cases hc : c = '\n'
  · exact ⟨[], splitLines cs, by rw [hc, splitLines_feed]⟩
  · exact ⟨_, _, splitLines_cons_of_ne hc cs⟩

theorem flatten_splitLines (cs : List Char) : (splitLines cs).flatten = cs := by
  induction cs with
  | nil => rfl
  | cons c cs ih =>
    by_cases hc : c = '\n'
    · rw [hc, splitLines_feed, List.flatten_cons, ih]
      rfl
    · rw [splitLines_cons_of_ne hc, List.flatten_cons]
      nth_rewrite 3 [← ih]
      cases splitLines cs <;> rfl

/-- The text is made of whole lines. -/
def Whole (cs : List Char) : Prop := ∀ c ∈ cs.getLast?, c = '\n'

theorem Whole.of_cons {c : Char} {cs : List Char} (h : Whole (c :: cs)) : Whole cs := by
  cases cs with
  | nil => exact fun _ h => nomatch h
  | cons d cs => rwa [Whole, List.getLast?_cons_cons] at h

theorem Whole.append {s t : List Char} (hs : Whole s) (ht : Whole t) : Whole (s ++ t) := by
  intro c hc
  rw [List.getLast?_append] at hc
  rcases Option.or_eq_some_iff.mp hc with hc | ⟨-, hc⟩
  · exact ht c hc
  · exact hs c hc

theorem Whole.concat_feed (cs : List Char) : Whole (cs ++ ['\n']) := by
  intro c hc
  rw [List.getLast?_concat] at hc
  exact (Option.some.inj hc).symm

theorem splitLines_append {s : List Char} (hs : Whole s) (t : List Char) :
    splitLines (s ++ t) = splitLines s ++ splitLines t := by
  induction s with
  | nil => rfl
  | cons c s ih =>
    have hrest := ih hs.of_cons
    rw [List.cons_append]
    by_cases hc : c = '\n'
    · rw [hc, splitLines_feed, splitLines_feed, hrest]
      rfl
    · rw [splitLines_cons_of_ne hc, splitLines_cons_of_ne hc, hrest]
      cases s with
      | nil => exact absurd (hs c rfl) hc
      | cons d s =>
        obtain ⟨line, lines, hlines⟩ := splitLines_cons d s
        rw [hlines]
        rfl

theorem splitLines_line {cs : List Char} (hcs : '\n' ∉ cs) : splitLines (cs ++ ['\n']) = [cs ++ ['\n']] := by
  induction cs with
  | nil => rfl
  | cons c cs ih =>
    rw [List.mem_cons, not_or] at hcs
    rw [List.cons_append, splitLines_cons_of_ne (Ne.symm hcs.1), ih hcs.2]
    rfl

theorem uncommented_append {s : List Char} (hs : Whole s) (t : List Char) :
    uncommented (s ++ t) = uncommented s ++ uncommented t := by
  unfold uncommented
  rw [splitLines_append hs, List.filter_append, List.flatten_append]

theorem uncommented_flatMap {α : Type} {f : α → List Char} {as : List α} (h : ∀ a ∈ as, Whole (f a)) :
    uncommented (as.flatMap f) = as.flatMap fun a => uncommented (f a) := by
  induction as with
  | nil => rfl
  | cons a as ih =>
    rw [List.flatMap_cons, List.flatMap_cons, uncommented_append (h a List.mem_cons_self),
      ih fun b hb => h b (List.mem_cons_of_mem a hb)]

/-- A text of comments only. -/
structure Comments (cs : List Char) : Prop where
  whole : Whole cs
  deleted : uncommented cs = []

namespace Comments

theorem nil : Comments [] := ⟨fun _ h => (nomatch h), rfl⟩

theorem append {s t : List Char} (hs : Comments s) (ht : Comments t) : Comments (s ++ t) :=
  ⟨hs.whole.append ht.whole, by rw [uncommented_append hs.whole, hs.deleted, ht.deleted, List.append_nil]⟩

/-- Two slashes and any text on one line. -/
theorem line {s : String} (hs : OneLine s) : Comments ("//" ++ s ++ "\n").toList := by
  have hchars : ("//" ++ s ++ "\n").toList = '/' :: '/' :: s.toList ++ ['\n'] := by
    rw [String.toList_append, String.toList_append]
    rfl
  have hfeed : '\n' ∉ '/' :: '/' :: s.toList := by
    have hmem := List.count_eq_zero.mp hs.1
    simp [hmem]
  rw [hchars]
  refine ⟨Whole.concat_feed _, ?_⟩
  unfold uncommented
  rw [splitLines_line hfeed]
  rfl

end Comments

/-! ## Indented texts -/

/-- No line break in the text is followed by a slash, and none is its last character. -/
def Indented (s : String) : Prop :=
  s.toList.IsChain (fun a b => a = '\n' → b ≠ '/') ∧ '\n' ∉ s.toList.getLast?

instance (s : String) : Decidable (Indented s) := inferInstanceAs (Decidable (_ ∧ _))

namespace Indented

theorem of_not_mem {s : String} (hs : '\n' ∉ s.toList) : Indented s := by
  refine ⟨List.Pairwise.isChain (List.pairwise_of_forall_mem_list fun a ha _ _ hfeed => ?_), fun h => ?_⟩
  · exact absurd (hfeed ▸ ha) hs
  · exact hs (List.mem_of_getLast? h)

theorem append {s t : String} (hs : Indented s) (ht : Indented t) : Indented (s ++ t) := by
  unfold Indented
  rw [String.toList_append]
  refine ⟨hs.1.append ht.1 fun a ha _ _ hfeed => ?_, fun h => ?_⟩
  · exact absurd (hfeed ▸ ha) hs.2
  · rw [List.getLast?_append] at h
    rcases Option.or_eq_some_iff.mp h with h | ⟨-, h⟩
    · exact ht.2 h
    · exact hs.2 h

theorem concatenative : Concatenative Indented :=
  ⟨fun hs => of_not_mem (List.count_eq_zero.mp hs.1), append⟩

end Indented

/-- Behind a line break, a text in which no line break is followed by a slash has no line that begins with one. -/
theorem head?_ne_slash {cs : List Char} (h : cs.IsChain fun a b => a = '\n' → b ≠ '/') :
    ∀ line ∈ (splitLines cs).tail, line.head? ≠ some '/' := by
  induction cs with
  | nil => exact fun _ h => nomatch h
  | cons c cs ih =>
    by_cases hc : c = '\n'
    · subst hc
      rw [splitLines_feed, List.tail_cons]
      cases cs with
      | nil => exact fun _ h => nomatch h
      | cons d cs =>
        obtain ⟨hd, hrest⟩ := List.isChain_cons_cons.mp h
        obtain ⟨line, lines, hlines⟩ := splitLines_cons d cs
        have htail := ih hrest
        rw [hlines] at htail ⊢
        rw [List.forall_mem_cons]
        exact ⟨fun hslash => hd rfl (Option.some.inj hslash), htail⟩
    · rw [splitLines_cons_of_ne hc]
      exact ih h.tail

/-- A text of whole lines none of which begins with a slash stays as it is. -/
theorem uncommented_indented {s : String} (hs : Indented s) (hbegin : Begins (· ≠ '/') (s ++ "\n").toList) :
    Whole (s ++ "\n").toList ∧ uncommented (s ++ "\n").toList = (s ++ "\n").toList := by
  have hchars : (s ++ "\n").toList = s.toList ++ ['\n'] := String.toList_append
  have hchain : ('\n' :: (s ++ "\n").toList).IsChain fun a b => a = '\n' → b ≠ '/' := by
    obtain ⟨c, t, hc, hslash⟩ := hbegin
    rw [hc, List.isChain_cons_cons, ← hc, hchars]
    exact ⟨fun _ => hslash, hs.1.append (.singleton _) fun _ _ b hb _ => by
      rw [← Option.some.inj hb]; decide⟩
  have hkept : ∀ line ∈ splitLines (s ++ "\n").toList, (!isComment line) = true := by
    intro line hline
    have hhead := head?_ne_slash hchain line hline
    cases line with
    | nil => rfl
    | cons c line =>
      have hc : '/' ≠ c := fun h => hhead (congrArg some h.symm)
      simp [isComment, List.isPrefixOf, hc]
  refine ⟨hchars ▸ Whole.concat_feed _, ?_⟩
  unfold uncommented
  rw [List.filter_eq_self.mpr hkept, flatten_splitLines]

/-! ## Declarations -/

theorem feed_append_indent (s : String) : "\n" ++ ("  " ++ s) = "\n  " ++ s := by
  rw [← String.append_assoc]
  rfl

theorem Member.indented_text {m : Member} (hm : ∀ name ∈ m.names, Indented name) : Indented ("\n" ++ m.text) := by
  have hP := Indented.concatenative
  have hbreak : Indented "\n  " := by decide
  have hblank : Indented " " := by decide
  have hsemicolon : Indented ";" := by decide
  have hname : Indented m.name := hm _ List.mem_cons_self
  have htype : Indented m.type.text := hP.typeText (hm _ (List.mem_cons_of_mem _ List.mem_cons_self))
  have hend : Indented ("\n  " ++ (m.type.text ++ (" " ++ (m.name ++ (m.parameterList ++ ";"))))) :=
    hbreak.append (htype.append (hblank.append (hname.append ((hP.parameterList hm).append hsemicolon))))
  unfold text
  cases m.deprecation with
  | none => simpa only [String.append_assoc, String.empty_append, feed_append_indent] using hend
  | some d =>
    have hmark : Indented d.text := hP.oneLine d.oneLine_text
    simpa only [String.append_assoc, feed_append_indent] using hbreak.append (hmark.append hend)

namespace Declaration

/-- Without its header a declaration has a line feed behind an indented text. -/
theorem indented_withoutHeader {d : Declaration} (hnames : ∀ name ∈ d.names, Indented name) :
    ∃ s, Indented s ∧ d.withoutHeader.text = s ++ "\n" := by
  have hP := Indented.concatenative
  have hbrace : Indented " \x7b" := by decide
  have hclosing : Indented "\n\x7d" := by decide
  have hbreak : Indented "\n  " := by decide
  have hblank : Indented " " := by decide
  have hcomma : Indented "," := by decide
  have hsemicolon : Indented ";" := by decide
  -- the last line is the closing brace
  have hblock : ∀ {t : String}, Indented t → ∃ s, Indented s ∧ t ++ "\n\x7d\n" = s ++ "\n" := fun {t} ht =>
    ⟨t ++ "\n\x7d", ht.append hclosing, by rw [String.append_assoc]; rfl⟩
  cases d with
  | ofClass c =>
    simp only [names, List.forall_mem_cons, List.forall_mem_append, List.forall_mem_flatMap] at hnames
    obtain ⟨hname, hinterfaces, hmembers⟩ := hnames
    have hkeyword : Indented ("" ++ "abstract class ") := by decide
    exact hblock ((((hkeyword.append hname).append (hP.implementsClause hinterfaces)).append hbrace).append
      (hP.join fun m hm => Member.indented_text (hmembers m hm)))
  | ofEnum e =>
    obtain ⟨hname, hvalues⟩ := List.forall_mem_cons.mp hnames
    have hkeyword : Indented ("" ++ "enum ") := by decide
    exact hblock (((hkeyword.append hname).append hbrace).append
      (hP.join fun v hv => (hbreak.append (hvalues v hv)).append hcomma))
  | ofSchema s =>
    have hkeyword : Indented ("" ++ "class Schema \x7b") := by decide
    refine hblock (hkeyword.append (hP.join fun r hr => ?_))
    have hnames' : ∀ name ∈ [r.operation, r.type], Indented name := fun name hname =>
      hnames name (List.mem_flatMap_of_mem hr hname)
    have hoperation := hnames' r.operation List.mem_cons_self
    have htype := hnames' r.type (List.mem_cons_of_mem _ List.mem_cons_self)
    exact (((hbreak.append htype).append hblank).append hoperation).append hsemicolon

theorem toList_withoutHeader (d : Declaration) : d.withoutHeader.text.toList = d.body := by
  rw [toList_text]
  cases d <;> rfl

end Declaration

/-! ## Headers and libraries -/

theorem comments_headerText {o : Option Header} (ho : ∀ h ∈ o, OneLine h.kind) : Comments (headerText o).toList := by
  cases o with
  | none => exact Comments.nil
  | some h =>
    obtain ⟨kind, lines⟩ := h
    have hlabel : OneLine " Kind: " := by decide
    have hkind : Comments ("// Kind: " ++ kind ++ "\n").toList := by
      have hline := Comments.line (hlabel.append (ho _ rfl))
      rwa [← String.append_assoc] at hline
    cases lines with
    | none =>
      have htext : headerText (some ⟨kind, none⟩) = "// Kind: " ++ kind ++ "\n" := String.append_empty
      rw [htext]
      exact hkind
    | some r =>
      have hlabel' : OneLine " Schema Lines: " := by decide
      have hdash : OneLine " - " := by decide
      have hlines : Comments ("// Schema Lines: " ++ r.first.repr ++ " - " ++ r.last.repr ++ "\n").toList := by
        have hline := Comments.line
          (((hlabel'.append (oneLine_repr r.first)).append hdash).append (oneLine_repr r.last))
        rwa [← String.append_assoc, ← String.append_assoc, ← String.append_assoc] at hline
      have htext : (headerText (some ⟨kind, some r⟩)).toList = ("// Kind: " ++ kind ++ "\n").toList ++
          ("// Schema Lines: " ++ r.first.repr ++ " - " ++ r.last.repr ++ "\n").toList := String.toList_append
      rw [htext]
      exact hkind.append hlines

/-- Of a declaration, deleting comments leaves what stands behind the header. -/
theorem Declaration.uncommented_text {d : Declaration} (hheader : ∀ h ∈ d.header, OneLine h.kind)
    (hnames : ∀ name ∈ d.names, Indented name) :
    Whole d.text.toList ∧ uncommented d.text.toList = d.withoutHeader.text.toList := by
  obtain ⟨s, hs, htext⟩ := indented_withoutHeader hnames
  have hbegin : Begins (· ≠ '/') (s ++ "\n").toList := by
    rw [← htext, toList_withoutHeader, ← List.append_nil d.body]
    exact d.begins_body []
  obtain ⟨hwhole, hkept⟩ := uncommented_indented hs hbegin
  have hcomments := comments_headerText hheader
  rw [toList_text, ← toList_withoutHeader, htext]
  refine ⟨hcomments.whole.append hwhole, ?_⟩
  rw [uncommented_append hcomments.whole, hcomments.deleted, hkept]
  rfl

/-- Deleting the comments of a library takes off its headers. -/
theorem Library.withoutComments_text {l : Library} (hheader : ∀ d ∈ l.declarations, ∀ h ∈ d.header, OneLine h.kind)
    (hnames : ∀ d ∈ l.declarations, ∀ name ∈ d.names, Indented name) :
    withoutComments l.text = l.withoutHeaders.text := by
  have hdeclaration := fun d hd => Declaration.uncommented_text (hheader d hd) (hnames d hd)
  obtain ⟨ds⟩ := l
  have htext : (Library.text ⟨ds⟩).toList = separated "\n".toList (fun d => d.text.toList) ds :=
    toList_intercalate_map _ _ _
  have htext' : (Library.withoutHeaders ⟨ds⟩).text.toList =
      separated "\n".toList (fun d => d.withoutHeader.text.toList) ds := by
    unfold Library.withoutHeaders Library.text
    rw [List.map_map]
    exact toList_intercalate_map _ _ _
  refine String.toList_injective ?_
  rw [withoutComments, String.toList_ofList, htext, htext']
  cases ds with
  | nil => rfl
  | cons d ds =>
    have hfeed : Whole "\n".toList := Whole.concat_feed []
    have hrest : ∀ e ∈ ds, Whole e.text.toList ∧ uncommented e.text.toList = e.withoutHeader.text.toList :=
      fun e he => hdeclaration e (List.mem_cons_of_mem d he)
    obtain ⟨hwhole, hkept⟩ := hdeclaration d List.mem_cons_self
    rw [separated_cons, separated_cons, uncommented_append hwhole, hkept,
      uncommented_flatMap fun e he => hfeed.append (hrest e he).1]
    refine congrArg (_ ++ ·) (List.flatMap_congr fun e he => ?_)
    rw [uncommented_append hfeed, (hrest e he).2]
    rfl

/-- **Headers are comments.**  Runs with and without headers have the same log, and the same fault or libraries that
differ in their headers only.  Each header tells the kind and the lines of the definition it stands for.  If neither
the names in the document nor the marker for scalars have line feeds, then the text without headers is the text with
headers less the lines that begin with `//`, whatever the reasons of deprecation marks are. -/
theorem headers_are_comments (marker : String) (strict : Bool) (doc : Document) :
    let run := generate ⟨marker, true, strict⟩ doc
    let run' := generate ⟨marker, false, strict⟩ doc
    run.events = run'.events ∧
    ((∃ fault, run.result = .error fault ∧ run'.result = .error fault) ∨
      ∃ lib, run.result = .ok lib ∧ run'.result = .ok lib.withoutHeaders ∧
        lib.declarations.map Declaration.header = (doc.filterMap Definition.heading?).map some ∧
        ('\n' ∉ marker.toList → (∀ d ∈ doc, ∀ name ∈ d.names, '\n' ∉ name.toList) →
          withoutComments lib.text = lib.withoutHeaders.text)) := by
  intro run run'
  obtain ⟨hevents, houtcomes⟩ := Logged.outcomes_of_eq_map (generate_without_headers marker strict doc)
  refine ⟨hevents, houtcomes.imp_right ?_⟩
  rintro ⟨lib, hlib, hlib'⟩
  have hdeclarations := generate_ok hlib
  refine ⟨lib, hlib, hlib', ?_, fun hmarker hnames => ?_⟩
  · rw [hdeclarations]
    exact Context.headers_declarations rfl doc
  · have hdeclared : ∀ decl ∈ lib.declarations,
        (∀ h ∈ decl.header, OneLine h.kind) ∧ ∀ name ∈ decl.names, Indented name := by
      intro decl hdecl
      rw [hdeclarations] at hdecl
      obtain ⟨d, hd, hdecl⟩ := List.mem_filterMap.mp hdecl
      refine ⟨Context.oneLine_header hdecl, ?_⟩
      exact Indented.concatenative.declaration (c := Context.ofDocument ⟨marker, true, strict⟩ doc)
        (Indented.of_not_mem hmarker) (fun name hname => Indented.of_not_mem (hnames d hd name hname)) hdecl
    exact Library.withoutComments_text (fun d hd => (hdeclared d hd).1) fun d hd => (hdeclared d hd).2

/-- Names, a scalar and reasons that look like comments, and reasons that look like the end of a line before one. -/
def slashedNames : Document :=
  let deprecated (reasons : List String) : List Directive :=
    [⟨"deprecated", reasons.map fun r => ("reason", .string r)⟩]
  [⟨.define (.object ⟨"// Query", ["//Node"],
      [⟨"//users", .list (.named "//User" true) false, [⟨"first", .named "// Date" false, none, deprecated ["\n//"]⟩],
        deprecated ["\n// Kind: ObjectTypeDefinition\n", "//"]⟩]⟩), [], some ⟨4, 12⟩⟩,
    ⟨.define (.enum "Role" ["//", ""]), [], none⟩,
    ⟨.define (.scalar "// Date"), [], none⟩]

theorem slashedNames_headers_are_comments :
    ∃ lib, (generate ⟨"//", true, false⟩ slashedNames).result = .ok lib ∧
      (generate ⟨"//", false, false⟩ slashedNames).result = .ok lib.withoutHeaders ∧
      lib.declarations.map Declaration.header =
        [some ⟨"ObjectTypeDefinition", some ⟨4, 12⟩⟩, some ⟨"EnumTypeDefinition", none⟩] ∧
      withoutComments lib.text = lib.withoutHeaders.text := by
  have hrun : (generate ⟨"//", true, false⟩ slashedNames).result = .ok _ := rfl
  obtain ⟨-, ⟨fault, hfault, -⟩ | ⟨lib, hlib, hlib', hheaders, htext⟩⟩ := headers_are_comments "//" false slashedNames
  · rw [hrun] at hfault
    cases hfault
  · exact ⟨lib, hlib, hlib', hheaders, htext (by decide) (by decide)⟩

end SchemaDart
