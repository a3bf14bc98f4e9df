import SchemaDart.Dart.Deprecation
import SchemaDart.Proofs.Text.Delimited

/-!
# Deprecation marks as text

A reason is any text at all.  That its double-quoted literal still shows where it ends is said by a reader: Dart's
own rules for such literals (`readLiteral`) give back the reason and leave what follows (`readLiteral_escaped`).
Around them the reader knows the two forms of a mark, and it reads every mark back from its text, whatever text comes
behind (`readMark_text`).  Hence marks are delimited in front of any text (`mark_delimited`).
-/

namespace SchemaDart
namespace Deprecation

/-! ## Literals -/

/-- What a backslash with this character behind it stands for in a Dart literal. -/
def unescape? : Char → Option Char
  | 'n' => some '\n'
  | 'r' => some '\r'
  | 't' => some '\t'
  | '"' => some '"'
  | '\\' => some '\\'
  | '$' => some '$'
  | _ => none

/-- Reads a double-quoted Dart literal behind its opening quote: its text, and what follows it.  `escaped` says that
a backslash has come before.  An interpolation or a line break is refused. -/
def readLiteral (escaped : Bool) : List Char → Option (List Char × List Char)
  | [] => none
  | c :: cs =>
    if escaped then
      (unescape? c).bind fun c => (readLiteral false cs).map fun (text, rest) => (c :: text, rest)
    else if c = '"' then some ([], cs)
    else if c = '\\' then readLiteral true cs
    else if c = '$' ∨ c = '\n' ∨ c = '\r' then none
    else (readLiteral false cs).map fun (text, rest) => (c :: text, rest)

/-- A character is read from what it is escaped to. -/
theorem readLiteral_escapeChar (c : Char) {cs text rest : List Char}
    (hcs : readLiteral false cs = some (text, rest)) :
    readLiteral false ((escapeChar c).toList ++ cs) = some (c :: text, rest) := by
  unfold escapeChar
  split
  iterate 6 · simp [readLiteral, unescape?, hcs]
  next h1 h2 h3 h4 h5 _ =>
    have hplain : ¬ (c = '$' ∨ c = '\n' ∨ c = '\r') := by
      rintro (h | h | h)
      · exact h3 h
      · exact h4 h
      · exact h5 h
    rw [String.toList_singleton, List.singleton_append, readLiteral, if_neg (by decide), if_neg h2, if_neg h1,
      if_neg hplain, hcs]
    rfl

theorem readLiteral_escaped (text rest : List Char) :
    readLiteral false (text.flatMap (fun c => (escapeChar c).toList) ++ '"' :: rest) = some (text, rest) := by
  induction text with
  | nil => rfl
  | cons c text ih =>
    rw [List.flatMap_cons, List.append_assoc]
    exact readLiteral_escapeChar c ih

theorem toList_quote (s : String) (r : List Char) :
    (quote s).toList ++ r = '"' :: (s.toList.flatMap (fun c => (escapeChar c).toList) ++ '"' :: r) := by
  simp only [quote, String.toList_append, toList_join_map, List.append_assoc]
  rfl

/-- Behind a literal there is less text than before. -/
theorem readLiteral_shorter {escaped : Bool} {cs text rest : List Char}
    (h : readLiteral escaped cs = some (text, rest)) : rest.length < cs.length := by
  induction cs generalizing escaped text with
  | nil => cases h
  | cons c cs ih =>
    -- a character of the text, as it stands or by its escape
    have hchar : ∀ {c' : Char},
        ((readLiteral false cs).map fun (text, rest) => (c' :: text, rest)) = some (text, rest) →
          rest.length < (c :: cs).length := by
      intro c' hmap
      obtain ⟨⟨text', rest'⟩, hread, heq⟩ := Option.map_eq_some_iff.mp hmap
      cases heq
      exact Nat.lt_succ_of_lt (ih hread)
    rw [readLiteral] at h
    split_ifs at h
    · obtain ⟨c', -, hmap⟩ := Option.bind_eq_some_iff.mp h
      exact hchar hmap
    · cases h
      exact Nat.lt_succ_self _
    · exact Nat.lt_succ_of_lt (ih h)
    · exact hchar h

/-! ## Marks -/

/-- Reads double-quoted literals with `, ` between two, and the parenthesis behind the last. -/
def readReasons : List Char → Option (List String × List Char)
  | '"' :: cs =>
    match _hread : readLiteral false cs with
    | some (text, ')' :: rest) => some ([String.ofList text], rest)
    | some (text, ',' :: ' ' :: rest) =>
      (readReasons rest).map fun (texts, rest) => (String.ofList text :: texts, rest)
    | _ => none
  | _ => none
termination_by cs => cs.length
decreasing_by
  have hshorter := readLiteral_shorter ‹readLiteral false cs = _›
  simp only [List.length_cons] at hshorter ⊢
  omega

/-- Reads what stands behind an opening parenthesis: literals, if any, and the closing parenthesis. -/
def readArguments : List Char → Option (List String × List Char)
  | ')' :: rest => some ([], rest)
  | cs => readReasons cs

/-- Reads a mark: the mark, and what follows it. -/
def readMark (cs : List Char) : Option (Deprecation × List Char) :=
  match "@deprecated".toList.isPrefixOf? cs with
  | some rest => some (.bare, rest)
  | none =>
    (("@Deprecated(".toList.isPrefixOf? cs).bind readArguments).map fun (texts, rest) => (.reasons texts, rest)

/-- Reads the mark with which a text begins: the mark, and the text behind it. -/
def read? (s : String) : Option (Deprecation × String) :=
  (readMark s.toList).map fun (d, rest) => (d, String.ofList rest)

theorem readReasons_last {cs text rest : List Char} (h : readLiteral false cs = some (text, ')' :: rest)) :
    readReasons ('"' :: cs) = some ([String.ofList text], rest) := by
  rw [readReasons]
  split <;> simp_all

theorem readReasons_next {cs text rest : List Char} (h : readLiteral false cs = some (text, ',' :: ' ' :: rest)) :
    readReasons ('"' :: cs) =
      (readReasons rest).map fun (texts, rest) => (String.ofList text :: texts, rest) := by
  rw [readReasons]
  split <;> simp_all

theorem readReasons_separated (text : String) (texts : List String) (rest : List Char) :
    readReasons (separated ", ".toList (fun s => (quote s).toList) (text :: texts) ++ ')' :: rest) =
      some (text :: texts, rest) := by
  induction texts generalizing text with
  | nil =>
    rw [separated_cons, List.flatMap_nil, List.append_nil, toList_quote, readReasons_last (readLiteral_escaped _ _),
      String.ofList_toList]
  | cons next texts ih =>
    have hnext : separated ", ".toList (fun s => (quote s).toList) (text :: next :: texts) ++ ')' :: rest =
        (quote text).toList ++ ',' :: ' ' ::
          (separated ", ".toList (fun s => (quote s).toList) (next :: texts) ++ ')' :: rest) := by
      simp [separated_cons]
    rw [hnext, toList_quote, readReasons_next (readLiteral_escaped _ _), ih, Option.map_some, String.ofList_toList]

theorem readArguments_separated (texts : List String) (rest : List Char) :
    readArguments (separated ", ".toList (fun s => (quote s).toList) texts ++ ')' :: rest) = some (texts, rest) := by
  cases texts with
  | nil => rfl
  | cons text texts =>
    have hread := readReasons_separated text texts rest
    -- a literal begins with a quote, so the parenthesis is not taken for the end
    rw [separated_cons, List.append_assoc, toList_quote] at hread ⊢
    exact hread

theorem toList_text_reasons (texts : List String) :
    (text (.reasons texts)).toList =
      "@Deprecated(".toList ++ (separated ", ".toList (fun s => (quote s).toList) texts ++ ")".toList) := by
  rw [text, String.toList_append, String.toList_append, toList_intercalate_map, List.append_assoc]

theorem toList_text_cons (d : Deprecation) : ∃ r, d.text.toList = '@' :: r := by
  cases d with
  | bare => exact ⟨_, rfl⟩
  | reasons texts => exact ⟨_, by rw [toList_text_reasons]; rfl⟩

/-- A mark is read back from its text, whatever follows it. -/
theorem readMark_text (d : Deprecation) (rest : List Char) : readMark (d.text.toList ++ rest) = some (d, rest) := by
  cases d with
  | bare => rfl
  | reasons texts =>
    rw [toList_text_reasons, List.append_assoc, List.append_assoc]
    show (readArguments (separated _ _ texts ++ ')' :: rest)).map _ = _
    rw [readArguments_separated, Option.map_some]

/-- **Every mark is read back as Dart.**  The reader gives the mark whose text stands in front of `t`, reasons of any
characters included, and leaves `t`. -/
theorem mark_read_back (d : Deprecation) (t : String) : read? (d.text ++ t) = some (d, t) := by
  have ht : String.ofList t.toList = t := String.ofList_toList
  rw [read?, String.toList_append, readMark_text, Option.map_some]
  exact congrArg (fun rest => some (d, rest)) ht

/-- A mark shows its reasons, whatever comes behind it. -/
theorem mark_delimited : Delimited (fun d : Deprecation => d.text.toList) (fun _ => True) (fun _ => True) := by
  intro d e r s _ _ _ _ h
  have hread := congrArg readMark h
  rw [readMark_text, readMark_text] at hread
  exact Prod.mk.inj (Option.some.inj hread)

end Deprecation
end SchemaDart
