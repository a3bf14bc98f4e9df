import SchemaDart.Proofs.Snapshot.Lexeme

/-!
# Reading JSON texts

The lexemes of a text are taken one by one by a machine that keeps the arrays and objects around the present place,
and asks for commas and colons where the grammar has them.  Taken in front of a value, the lexemes of `j` lead behind
`j` (`parse_lexemes`); so every value is read back from its pretty form (`read?_pretty`).
-/

namespace SchemaDart
namespace Json

/-- An array or object that is open, with what it has so far, the latest first.  In an object, `key` is that of the
member at hand. -/
inductive Frame where
  | array (items : List Json)
  | object (members : List (String × Json)) (key : String)

/-- Where the machine is, with the frames around that place from the inside out. -/
inductive Stage where
  /-- In front of a value. -/
  | value (frames : List Frame)
  /-- Behind a value. -/
  | after (j : Json) (frames : List Frame)
  /-- Behind the bracket that opens an array. -/
  | arrayOpened (frames : List Frame)
  /-- Behind the brace that opens an object. -/
  | objectOpened (frames : List Frame)
  /-- In front of a key, in an object with these members. -/
  | key (members : List (String × Json)) (frames : List Frame)
  /-- Behind a key. -/
  | colon (members : List (String × Json)) (key : String) (frames : List Frame)

/-- Takes a lexeme in front of a value. -/
def takeValue (frames : List Frame) : Lexeme → Option Stage
  | .null => some (.after .null frames)
  | .number n => some (.after (.number n) frames)
  | .string s => some (.after (.string s) frames)
  | .arrayStart => some (.arrayOpened frames)
  | .objectStart => some (.objectOpened frames)
  | _ => none

/-- Takes one lexeme. -/
def take : Stage → Lexeme → Option Stage
  | .value frames, l => takeValue frames l
  | .arrayOpened frames, .arrayEnd => some (.after (.array []) frames)
  | .arrayOpened frames, l => takeValue (.array [] :: frames) l
  | .objectOpened frames, .objectEnd => some (.after (.object []) frames)
  | .objectOpened frames, .string key => some (.colon [] key frames)
  | .key members frames, .string key => some (.colon members key frames)
  | .colon members key frames, .colon => some (.value (.object members key :: frames))
  | .after j (.array items :: frames), .comma => some (.value (.array (j :: items) :: frames))
  | .after j (.array items :: frames), .arrayEnd => some (.after (.array (j :: items).reverse) frames)
  | .after j (.object members key :: frames), .comma => some (.key ((key, j) :: members) frames)
  | .after j (.object members key :: frames), .objectEnd =>
    some (.after (.object ((key, j) :: members).reverse) frames)
  | _, _ => none

/-- The value that lexemes make up with those taken before. -/
def parse (stage : Stage) : List Lexeme → Option Json
  | [] =>
    match stage with
    | .after j [] => some j
    | _ => none
  | l :: ls => (take stage l).bind fun stage => parse stage ls

/-- The value that a text stands for; `none` if it is no JSON text. -/
def read? (text : String) : Option Json := (scan .between text.toList).bind (parse (.value []))

theorem parse_cons {stage stage' : Stage} {l : Lexeme} (h : take stage l = some stage') (ls : List Lexeme) :
    parse stage (l :: ls) = parse stage' ls := by
  rw [parse, h]
  rfl

theorem intercalate_cons_eq (sep ls : List Lexeme) (lss : List (List Lexeme)) :
    ∃ tail, sep.intercalate (ls :: lss) = ls ++ tail := by
  cases lss with
  | nil => exact ⟨[], by rw [List.intercalate_singleton, List.append_nil]⟩
  | cons ls' lss => exact ⟨_, by rw [List.intercalate_cons_cons, List.append_assoc]⟩

/-- Behind the bracket that opens an array there may be a first item. -/
theorem parse_arrayOpened (frames : List Frame) (j : Json) (js : List Json) (rest : List Lexeme) :
    parse (.arrayOpened frames) ([.comma].intercalate (itemLexemes (j :: js)) ++ rest) =
      parse (.value (.array [] :: frames)) ([.comma].intercalate (itemLexemes (j :: js)) ++ rest) := by
  obtain ⟨tail, htail⟩ := intercalate_cons_eq [.comma] (lexemes j) (itemLexemes js)
  rw [itemLexemes, htail, List.append_assoc]
  -- no value begins with the bracket that closes an array
  cases j <;> rw [lexemes] <;> rfl

/-- Behind the brace that opens an object there may be a first key. -/
theorem parse_objectOpened (frames : List Frame) (m : String × Json) (ms : List (String × Json))
    (rest : List Lexeme) :
    parse (.objectOpened frames) ([.comma].intercalate (memberLexemes (m :: ms)) ++ rest) =
      parse (.key [] frames) ([.comma].intercalate (memberLexemes (m :: ms)) ++ rest) := by
  obtain ⟨key, j⟩ := m
  obtain ⟨tail, htail⟩ := intercalate_cons_eq [.comma] ([.string key, .colon] ++ lexemes j) (memberLexemes ms)
  rw [memberLexemes, htail]
  rfl

mutual

/-- The lexemes of a value lead from in front of it to behind it. -/
theorem parse_lexemes (frames : List Frame) (rest : List Lexeme) :
    (j : Json) → parse (.value frames) (lexemes j ++ rest) = parse (.after j frames) rest
  | .null => by rw [lexemes]; rfl
  | .number n => by rw [lexemes]; rfl
  | .string s => by rw [lexemes]; rfl
  | .array [] => by rw [lexemes]; rfl
  | .array (j :: js) => by
    have hopening : take (.value frames) .arrayStart = some (.arrayOpened frames) := rfl
    rw [lexemes, List.append_assoc, List.append_assoc, List.singleton_append, List.singleton_append,
      parse_cons hopening, parse_arrayOpened, parse_items frames rest (j :: js) [] (List.cons_ne_nil j js)]
    rfl
  | .object [] => by rw [lexemes]; rfl
  | .object (m :: ms) => by
    have hopening : take (.value frames) .objectStart = some (.objectOpened frames) := rfl
    rw [lexemes, List.append_assoc, List.append_assoc, List.singleton_append, List.singleton_append,
      parse_cons hopening, parse_objectOpened, parse_members frames rest (m :: ms) [] (List.cons_ne_nil m ms)]
    rfl

/-- The items of an array lead behind the array. -/
theorem parse_items (frames : List Frame) (rest : List Lexeme) : (items done : List Json) → items ≠ [] →
    parse (.value (.array done :: frames)) ([.comma].intercalate (itemLexemes items) ++ .arrayEnd :: rest) =
      parse (.after (.array (done.reverse ++ items)) frames) rest
  | [], _, h => absurd rfl h
  | [j], done, _ => by
    rw [itemLexemes, itemLexemes, List.intercalate_singleton, parse_lexemes, parse_cons rfl, List.reverse_cons]
  | j :: j' :: js, done, _ => by
    have hrest := parse_items frames rest (j' :: js) (j :: done) (List.cons_ne_nil j' js)
    rw [List.reverse_cons, List.append_assoc, List.singleton_append] at hrest
    rw [itemLexemes, itemLexemes, List.intercalate_cons_cons, ← itemLexemes, List.append_assoc, List.append_assoc,
      parse_lexemes, List.singleton_append, parse_cons rfl, hrest]

/-- The members of an object lead behind the object. -/
theorem parse_members (frames : List Frame) (rest : List Lexeme) : (members done : List (String × Json)) →
    members ≠ [] →
    parse (.key done frames) ([.comma].intercalate (memberLexemes members) ++ .objectEnd :: rest) =
      parse (.after (.object (done.reverse ++ members)) frames) rest
  | [], _, h => absurd rfl h
  | [(key, j)], done, _ => by
    rw [memberLexemes, memberLexemes, List.intercalate_singleton, List.append_assoc, List.cons_append,
      List.singleton_append, parse_cons rfl, parse_cons rfl, parse_lexemes, parse_cons rfl, List.reverse_cons]
  | (key, j) :: (key', j') :: ms, done, _ => by
    have hrest := parse_members frames rest ((key', j') :: ms) ((key, j) :: done) (List.cons_ne_nil _ ms)
    rw [List.reverse_cons, List.append_assoc, List.singleton_append] at hrest
    rw [memberLexemes, memberLexemes, List.intercalate_cons_cons, ← memberLexemes, List.append_assoc,
      List.append_assoc, List.append_assoc, List.cons_append, List.singleton_append, parse_cons rfl, parse_cons rfl,
      parse_lexemes, List.singleton_append, parse_cons rfl, hrest]

end

/-- **Every value is read back from its pretty form.** -/
theorem read?_pretty (j : Json) : read? j.pretty = some j := by
  have hend : Follows [] := fun _ h => nomatch h
  have hscan : scan .between j.pretty.toList = some (lexemes j) := by
    have hreads := reads_prettyAt 0 j hend
    rw [List.append_nil] at hreads
    rw [pretty, hreads, scan, finish, Option.map_some, List.append_nil]
  have hparse := parse_lexemes [] [] j
  rw [List.append_nil] at hparse
  rw [read?, hscan, Option.bind_some, hparse, parse]

end Json
end SchemaDart
