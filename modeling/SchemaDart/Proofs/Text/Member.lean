import Mathlib.Tactic.MkIffOfInductiveProp
import SchemaDart.Dart.Member
import SchemaDart.Proofs.Text.Mark

/-!
# Names, types and members as text

A name is delimited in front of a character that no name has, a number in front of anything but a digit, a type in
front of a blank or a closing bracket.  A member, with its mark and its parameters, ends with a semicolon and is
delimited in front of any text (`Member.member_delimited`).
-/

namespace SchemaDart

/-! ## Names -/

/-- A character that a name may have: an ASCII letter, a digit or an underscore. -/
def IsNameChar (c : Char) : Bool := c.isAlphanum || c = '_'

/-- A text that is not empty and has only characters of names. -/
def IsName (s : String) : Prop := s ≠ "" ∧ s.toList.all IsNameChar

theorem IsName.chars {s : String} (hs : IsName s) : ∀ c ∈ s.toList, IsNameChar c := List.all_eq_true.mp hs.2

def DartType.WellNamed (t : DartType) : Prop := IsName t.elementName

@[mk_iff]
structure Parameter.WellNamed (p : Parameter) : Prop where
  name : IsName p.name
  type : p.type.WellNamed

@[mk_iff]
structure Member.WellNamed (m : Member) : Prop where
  name : IsName m.name
  type : m.type.WellNamed
  parameters : ∀ p ∈ m.parameters, p.WellNamed

instance (s : String) : Decidable (IsName s) := inferInstanceAs (Decidable (_ ∧ _))

instance (t : DartType) : Decidable t.WellNamed := inferInstanceAs (Decidable (IsName _))

instance (p : Parameter) : Decidable p.WellNamed := decidable_of_iff _ (Parameter.wellNamed_iff p).symm

instance (m : Member) : Decidable m.WellNamed := decidable_of_iff _ (Member.wellNamed_iff m).symm

theorem name_delimited : Delimited String.toList IsName (Begins fun c => ¬ IsNameChar c) := by
  rintro a b _ _ ha hb ⟨x, r, rfl, hx⟩ ⟨y, s, rfl, hy⟩ h
  obtain ⟨hab, rfl, rfl⟩ := append_cons_inj ha.chars hb.chars hx hy h
  exact ⟨String.toList_injective hab, rfl⟩

theorem IsName.begins_toList {s : String} (hs : IsName s) (r : List Char) :
    Begins (fun c => IsNameChar c) (s.toList ++ r) := by
  cases h : s.toList with
  | nil => exact absurd (String.toList_eq_nil_iff.mp h) hs.1
  | cons c cs =>
    have hc : c ∈ s.toList := by rw [h]; exact List.mem_cons_self
    exact ⟨c, cs ++ r, rfl, hs.chars c hc⟩

theorem isDigit_of_mem_repr {n : Nat} {c : Char} (hc : c ∈ n.repr.toList) : c.isDigit := by
  rw [Nat.toList_repr] at hc
  exact Nat.isDigit_of_mem_toDigits (by decide) (by decide) hc

theorem number_delimited :
    Delimited (fun n : Nat => n.repr.toList) (fun _ => True) (Begins fun c => ¬ c.isDigit) := by
  rintro m n _ _ - - ⟨x, r, rfl, hx⟩ ⟨y, s, rfl, hy⟩ h
  obtain ⟨hmn, rfl, rfl⟩ := append_cons_inj (fun _ => isDigit_of_mem_repr) (fun _ => isDigit_of_mem_repr) hx hy h
  rw [Nat.toList_repr, Nat.toList_repr] at hmn
  refine ⟨?_, rfl⟩
  rw [← Nat.ofDigitChars_ten_toDigits (n := m), hmn, Nat.ofDigitChars_ten_toDigits]

/-! ## Types -/

namespace DartType

theorem toList_text_list (t : DartType) (r : List Char) :
    (DartType.list t).text.toList ++ r = "List".toList ++ '<' :: (t.text.toList ++ '>' :: r) := by
  simp [text]

theorem type_delimited :
    Delimited (fun t : DartType => t.text.toList) DartType.WellNamed (Begins fun c => c = ' ' ∨ c = '>') := by
  have hblank : ∀ {c : Char}, c = ' ' ∨ c = '>' → ¬ IsNameChar c := by
    rintro c (rfl | rfl) <;> decide
  have hlist : IsName "List" := by decide
  intro t
  induction t with
  | named a =>
    rintro (b | u) _ _ ha hu ⟨x, r, rfl, hx⟩ ⟨y, s, rfl, hy⟩ h
    · obtain ⟨rfl, hrs⟩ := name_delimited ha hu ⟨x, r, rfl, hblank hx⟩ ⟨y, s, rfl, hblank hy⟩ h
      exact ⟨rfl, hrs⟩
    · -- a name is not followed by an opening bracket
      rw [toList_text_list] at h
      obtain ⟨-, rfl, -⟩ := append_cons_inj (IsName.chars ha) hlist.chars (hblank hx) (by decide) h
      exact absurd hx (by decide)
  | list t ih =>
    rintro (b | u) _ _ ht hu ⟨x, r, rfl, hx⟩ ⟨y, s, rfl, hy⟩ h
    · rw [toList_text_list] at h
      obtain ⟨-, rfl, -⟩ := append_cons_inj hlist.chars (IsName.chars hu) (by decide) (hblank hy) h
      exact absurd hy (by decide)
    · rw [toList_text_list, toList_text_list] at h
      have h' := (List.cons.inj (List.append_cancel_left h)).2
      obtain ⟨rfl, hrs⟩ := ih (b := u) ht hu ⟨'>', _, rfl, .inr rfl⟩ ⟨'>', _, rfl, .inr rfl⟩ h'
      exact ⟨rfl, (List.cons.inj hrs).2⟩

theorem begins_text {t : DartType} (ht : t.WellNamed) (r : List Char) :
    Begins (fun c => IsNameChar c) (t.text.toList ++ r) := by
  cases t with
  | named name => exact IsName.begins_toList ht r
  | list u =>
    rw [toList_text_list]
    exact ⟨'L', _, rfl, by decide⟩

end DartType

/-! ## Members -/

/-- A mark that may be absent, set apart from what follows it. -/
def markText (opening closing : List Char) (o : Option Deprecation) : List Char :=
  (o.map fun d => opening ++ (d.text.toList ++ closing)).getD []

/-- An optional mark is delimited in front of a text that has a name at the mark's place. -/
theorem markText_delimited (opening closing : List Char) :
    Delimited (markText opening closing) (fun _ => True)
      (fun r => ∃ t, r = opening ++ t ∧ Begins (fun c => IsNameChar c) t) := by
  refine ((Deprecation.mark_delimited.before closing fun _ _ => trivial).behind opening).option ?_ |>.mono
    (fun _ _ _ _ => trivial) fun _ h => h
  rintro d r - ⟨_, h, c, t, rfl, hc⟩
  obtain ⟨u, hu⟩ := d.toList_text_cons
  dsimp only at h
  rw [hu, List.append_assoc] at h
  obtain ⟨rfl, -⟩ := List.cons.inj (List.append_cancel_left h)
  exact absurd hc (by decide)

namespace Parameter

theorem toList_text (p : Parameter) (r : List Char) :
    p.text.toList ++ r = markText [] [' '] p.deprecation ++
      (p.type.text.toList ++ ' ' :: (p.name.toList ++ r)) := by
  unfold text markText
  cases p.deprecation <;> simp

theorem parameter_delimited :
    Delimited (fun p : Parameter => p.text.toList) WellNamed (Begins fun c => c = ',' ∨ c = ')') := by
  have hend : ∀ {r : List Char}, Begins (fun c => c = ',' ∨ c = ')') r → Begins (fun c => ¬ IsNameChar c) r := by
    rintro _ ⟨c, t, rfl, rfl | rfl⟩ <;> exact ⟨_, t, rfl, by decide⟩
  rintro ⟨n, t, d⟩ ⟨n', t', d'⟩ r s hp hp' hr hs h
  rw [toList_text, toList_text] at h
  obtain ⟨rfl, h1⟩ := markText_delimited [] [' '] trivial trivial ⟨_, rfl, DartType.begins_text hp.type _⟩
    ⟨_, rfl, DartType.begins_text hp'.type _⟩ h
  obtain ⟨rfl, h2⟩ := DartType.type_delimited hp.type hp'.type ⟨' ', _, rfl, .inl rfl⟩ ⟨' ', _, rfl, .inl rfl⟩ h1
  obtain ⟨rfl, hrs⟩ := name_delimited hp.name hp'.name (hend hr) (hend hs) (List.cons.inj h2).2
  exact ⟨rfl, hrs⟩

/-- A parameter does not begin with a closing bracket. -/
theorem begins_text {p : Parameter} (hp : p.WellNamed) (r : List Char) : Begins (· ≠ ')') (p.text.toList ++ r) := by
  rw [toList_text]
  cases p.deprecation with
  | none =>
    obtain ⟨c, t, hc, hname⟩ := DartType.begins_text hp.type (' ' :: (p.name.toList ++ r))
    exact ⟨c, t, hc, by rintro rfl; exact absurd hname (by decide)⟩
  | some d =>
    obtain ⟨u, hu⟩ := d.toList_text_cons
    unfold markText
    rw [Option.map_some, Option.getD_some, hu]
    exact ⟨'@', _, rfl, by decide⟩

end Parameter

namespace Member

theorem toList_parameterList (m : Member) :
    m.parameterList.toList = if m.parameters.isEmpty then [] else
      "(".toList ++ (separated ", ".toList (fun p => p.text.toList) m.parameters ++ ")".toList) := by
  unfold parameterList
  split
  · rfl
  · rw [String.toList_append, String.toList_append, toList_intercalate_map, List.append_assoc]

theorem parameterList_delimited :
    Delimited (fun ps : List Parameter => if ps.isEmpty then [] else
        "(".toList ++ (separated ", ".toList (fun p => p.text.toList) ps ++ ")".toList))
      (fun ps => ∀ p ∈ ps, p.WellNamed) (Begins (· = ';')) := by
  have hlist : Delimited (separated ", ".toList fun p : Parameter => p.text.toList)
      (fun ps => ∀ p ∈ ps, p.WellNamed) (Begins (· = ')')) := by
    refine Parameter.parameter_delimited.separated (fun r => ⟨',', _, rfl, .inl rfl⟩) ?_ ?_ ?_
    · rintro _ ⟨c, t, rfl, hc⟩
      exact ⟨c, t, rfl, .inr hc⟩
    · rintro p r hp ⟨c, t, hc, rfl⟩
      obtain ⟨c', t', hc', hne⟩ := Parameter.begins_text hp r
      exact hne (List.cons.inj (hc'.symm.trans hc)).1
    · rintro r ⟨c, t, hc, rfl⟩
      exact absurd (List.cons.inj hc).1 (by decide)
  refine (hlist.before _ fun r _ => ⟨')', r, rfl, rfl⟩).unlessEmpty _ ?_
  rintro r ⟨c, t, hc, rfl⟩
  exact absurd (List.cons.inj hc).1 (by decide)

theorem toList_text (m : Member) (r : List Char) :
    m.text.toList ++ r = markText "  ".toList "\n".toList m.deprecation ++
      ("  ".toList ++ (m.type.text.toList ++ ' ' :: (m.name.toList ++ (m.parameterList.toList ++ ';' :: r)))) := by
  unfold text markText
  cases m.deprecation <;> simp

theorem member_delimited : Delimited (fun m : Member => m.text.toList) WellNamed (fun _ => True) := by
  have hfollow : ∀ (m : Member) (r : List Char),
      Begins (fun c => ¬ IsNameChar c) (m.parameterList.toList ++ ';' :: r) := by
    intro m r
    rw [toList_parameterList]
    split
    · exact ⟨';', r, rfl, by decide⟩
    · exact ⟨'(', _, rfl, by decide⟩
  rintro ⟨n, t, ps, d⟩ ⟨n', t', ps', d'⟩ r s hm hm' - - h
  rw [toList_text, toList_text] at h
  obtain ⟨rfl, h1⟩ := markText_delimited _ _ trivial trivial ⟨_, rfl, DartType.begins_text hm.type _⟩
    ⟨_, rfl, DartType.begins_text hm'.type _⟩ h
  obtain ⟨rfl, h2⟩ := DartType.type_delimited hm.type hm'.type ⟨' ', _, rfl, .inl rfl⟩ ⟨' ', _, rfl, .inl rfl⟩
    (List.append_cancel_left h1)
  obtain ⟨rfl, h3⟩ := name_delimited hm.name hm'.name (hfollow _ r) (hfollow _ s) (List.cons.inj h2).2
  rw [toList_parameterList, toList_parameterList] at h3
  obtain ⟨rfl, h4⟩ := parameterList_delimited hm.parameters hm'.parameters ⟨';', r, rfl, rfl⟩ ⟨';', s, rfl, rfl⟩ h3
  exact ⟨rfl, (List.cons.inj h4).2⟩

theorem toList_text_cons (m : Member) : ∃ r, m.text.toList = ' ' :: r := by
  rw [← List.append_nil m.text.toList, toList_text]
  cases m.deprecation with
  | none => exact ⟨_, rfl⟩
  | some d => exact ⟨_, rfl⟩

end Member

end SchemaDart
