import Mathlib.Data.List.Forall2
import SchemaDart.Json
import SchemaDart.Number.Digits
import SchemaDart.Source.Quoted

/-!
# Lexemes of JSON texts

A JSON text is read by a machine that takes one character a step and puts out lexemes; blanks between lexemes are
skipped, so that the layout does not matter.  The pretty form of a value is read as the lexemes of that value
(`reads_prettyAt`), whatever characters its strings have.

`Reads F s ls` says that in front of a text in `F` the text `s` is read as `ls`.  Only a number asks something of what
comes behind it, that it does not begin with a digit (`Follows`).
-/

namespace SchemaDart
namespace Json

/-- What a JSON text is made of. -/
inductive Lexeme where
  | null
  | number (n : Nat)
  | string (s : String)
  | arrayStart
  | arrayEnd
  | objectStart
  | objectEnd
  | comma
  | colon

/-! ## The machine -/

/-- What has been read of the lexeme at hand.  `text` holds the characters of a string, the latest first. -/
inductive Mode where
  /-- Between lexemes. -/
  | between
  /-- In a word, with this character and then these still to come. -/
  | word (next : Char) (rest : List Char)
  | number (n : Nat)
  | string (text : List Char)
  /-- In a string, right behind a backslash. -/
  | escape (text : List Char)
  /-- In an escape by four digits: the value of those read, and how many are to come behind the next. -/
  | unicode (text : List Char) (value : Nat) (missing : Nat)

/-- The lexeme that one character is. -/
def punctuation? : Char → Option Lexeme
  | '[' => some .arrayStart
  | ']' => some .arrayEnd
  | '\x7b' => some .objectStart
  | '\x7d' => some .objectEnd
  | ',' => some .comma
  | ':' => some .colon
  | _ => none

/-- Takes a character between lexemes, with which a lexeme may begin. -/
def start (c : Char) : Option (List Lexeme × Mode) :=
  if c ∈ [' ', '\n', '\t', '\r'] then some ([], .between)
  else if c = '"' then some ([], .string [])
  else if c = 'n' then some ([], .word 'u' ['l', 'l'])
  else
    match digit? c with
    | some d => some ([], .number d)
    | none => (punctuation? c).map fun l => ([l], .between)

/-- Takes one character: the lexemes that it completes, and the mode after it. -/
def step : Mode → Char → Option (List Lexeme × Mode)
  | .between, c => start c
  | .word next [], c => if c = next then some ([.null], .between) else none
  | .word next (next' :: rest), c => if c = next then some ([], .word next' rest) else none
  | .number n, c =>
    match digit? c with
    | some d => some ([], .number (10 * n + d))
    | none => (start c).map fun (ls, mode) => (.number n :: ls, mode)
  | .string text, c =>
    if c = '"' then some ([.string (String.ofList text.reverse)], .between)
    else if c = '\\' then some ([], .escape text)
    else if c.toNat < 32 then none
    else some ([], .string (c :: text))
  | .escape text, c =>
    if c = 'u' then some ([], .unicode text 0 3)
    else (Source.letterEscape? c).map fun e => ([], .string (e :: text))
  | .unicode text value 0, c =>
    (Source.hexDigit? c).bind fun d => (Source.scalar? (16 * value + d)).map fun e => ([], .string (e :: text))
  | .unicode text value (missing + 1), c =>
    (Source.hexDigit? c).map fun d => ([], .unicode text (16 * value + d) missing)

/-- The lexemes that the end of the text completes. -/
def finish : Mode → Option (List Lexeme)
  | .between => some []
  | .number n => some [.number n]
  | _ => none

/-- The lexemes of characters read from a mode on. -/
def scan (mode : Mode) : List Char → Option (List Lexeme)
  | [] => finish mode
  | c :: cs => (step mode c).bind fun (ls, mode) => (scan mode cs).map (ls ++ ·)

theorem scan_cons {mode mode' : Mode} {c : Char} {ls : List Lexeme} (h : step mode c = some (ls, mode'))
    (cs : List Char) : scan mode (c :: cs) = (scan mode' cs).map (ls ++ ·) := by
  rw [scan, h]
  rfl

/-- A character that completes nothing changes the mode. -/
theorem scan_silent {mode mode' : Mode} {c : Char} (h : step mode c = some ([], mode')) (cs : List Char) :
    scan mode (c :: cs) = scan mode' cs := by
  rw [scan_cons h]
  exact Option.map_id'

/-! ## Texts and their lexemes -/

/-- In front of a text in `F`, the text `s` is read as the lexemes `ls`. -/
def Reads (F : List Char → Prop) (s : String) (ls : List Lexeme) : Prop :=
  ∀ ⦃rest : List Char⦄, F rest → scan .between (s.toList ++ rest) = (scan .between rest).map (ls ++ ·)

/-- Any text at all. -/
def Anything (_ : List Char) : Prop := True

/-- A text that does not begin with a digit. -/
def Follows (r : List Char) : Prop := ∀ c ∈ r.head?, ¬ c.isDigit

theorem follows_cons {c : Char} (hc : ¬ c.isDigit) (r : List Char) : Follows (c :: r) := by
  intro c' hc'
  cases hc'
  exact hc

namespace Reads

variable {F G : List Char → Prop} {s t : String} {ls ls' : List Lexeme}

theorem append (hs : Reads F s ls) (ht : Reads G t ls') (h : ∀ rest, G rest → F (t.toList ++ rest)) :
    Reads G (s ++ t) (ls ++ ls') := by
  intro rest hrest
  rw [String.toList_append, List.append_assoc, hs (h rest hrest), ht hrest, Option.map_map]
  congr 1
  funext ls''
  exact (List.append_assoc ls ls' ls'').symm

/-- Behind a text that asks nothing of what follows it there may be any text. -/
theorem andThen (hs : Reads Anything s ls) (ht : Reads G t ls') : Reads G (s ++ t) (ls ++ ls') :=
  hs.append ht fun _ _ => trivial

theorem mono (hs : Reads Anything s ls) : Reads F s ls := fun _ _ => hs trivial

end Reads

theorem reads_char {s : String} {c : Char} {ls : List Lexeme} (hs : s.toList = [c])
    (h : step .between c = some (ls, .between)) : Reads Anything s ls := by
  intro rest _
  rw [hs, List.singleton_append, scan_cons h]

/-- A mark with a blank behind it. -/
theorem reads_mark {s : String} {c blank : Char} {l : Lexeme} (hs : s.toList = [c, blank])
    (h : step .between c = some ([l], .between)) (hblank : step .between blank = some ([], .between)) :
    Reads Anything s [l] := by
  intro rest _
  rw [hs, List.cons_append, List.singleton_append, scan_cons h, scan_silent hblank]

theorem reads_indent (level : Nat) : Reads Anything (indent level) [] := by
  intro rest _
  unfold indent
  rw [String.toList_ofList]
  induction 2 * level with
  | zero => exact Option.map_id'.symm
  | succ n ih =>
    have hblank : step .between ' ' = some ([], .between) := rfl
    rw [List.replicate_succ, List.cons_append, scan_silent hblank, ih]

/-! ## Strings -/

theorem hexDigit?_hexDigit (n : Nat) : Source.hexDigit? (hexDigit n) = some (n % 16) := by
  have hdigits : ∀ k < 16, Source.hexDigit? (Nat.digitChar k) = some k := by decide
  exact hdigits (n % 16) (Nat.mod_lt n (by decide))

/-- A control character is read from the four digits of its number, the first two of which are zero. -/
theorem scan_control (text : List Char) {c : Char} (hc : c.toNat < 32) (rest : List Char) :
    scan (.string text) ('\\' :: 'u' :: '0' :: '0' :: hexDigit (c.toNat / 16) :: hexDigit c.toNat :: rest) =
      scan (.string (c :: text)) rest := by
  have hbackslash : step (.string text) '\\' = some ([], .escape text) := rfl
  have hunicode : step (.escape text) 'u' = some ([], .unicode text 0 3) := rfl
  have hzero : ∀ missing, step (.unicode text 0 (missing + 1)) '0' = some ([], .unicode text 0 missing) :=
    fun _ => rfl
  have hhigh : step (.unicode text 0 1) (hexDigit (c.toNat / 16)) =
      some ([], .unicode text (c.toNat / 16 % 16) 0) := by
    simp only [step, hexDigit?_hexDigit, Option.map_some, Nat.mul_zero, Nat.zero_add]
  have hscalar : Source.scalar? (16 * (c.toNat / 16 % 16) + c.toNat % 16) = some c := by
    have hvalue : 16 * (c.toNat / 16 % 16) + c.toNat % 16 = c.toNat := by omega
    have hsmall : c.toNat < 0xd800 := by omega
    unfold Source.scalar?
    rw [hvalue, if_pos (.inl hsmall), Char.ofNat_toNat]
  have hlow : step (.unicode text (c.toNat / 16 % 16) 0) (hexDigit c.toNat) = some ([], .string (c :: text)) := by
    simp only [step, hexDigit?_hexDigit, Option.bind_some, hscalar, Option.map_some]
  rw [scan_silent hbackslash, scan_silent hunicode, scan_silent (hzero 2), scan_silent (hzero 1), scan_silent hhigh,
    scan_silent hlow]

/-- A character of a string is read from what it is escaped to. -/
theorem scan_escapeChar (text : List Char) (c : Char) (rest : List Char) :
    scan (.string text) ((escapeChar c).toList ++ rest) = scan (.string (c :: text)) rest := by
  have hletter : ∀ {l : Char}, l ≠ 'u' → Source.letterEscape? l = some c →
      scan (.string text) ('\\' :: l :: rest) = scan (.string (c :: text)) rest := by
    intro l hl hc
    have hbackslash : step (.string text) '\\' = some ([], .escape text) := rfl
    have hescape : step (.escape text) l = some ([], .string (c :: text)) := by
      simp only [step, if_neg hl, hc, Option.map_some]
    rw [scan_silent hbackslash, scan_silent hescape]
  unfold escapeChar
  split_ifs with h1 h2 h3 h4 h5 h6 h7 h8
  · exact hletter (by decide) (by rw [h1]; rfl)
  · exact hletter (by decide) (by rw [h2]; rfl)
  · exact hletter (by decide) (by rw [h3]; rfl)
  · exact hletter (by decide) (by rw [h4]; rfl)
  · exact hletter (by decide) (by rw [h5]; rfl)
  · exact hletter (by decide) (by rw [h6]; rfl)
  · exact hletter (by decide) (by rw [h7]; rfl)
  · have hopening : "\\u00".toList = ['\\', 'u', '0', '0'] := rfl
    rw [String.toList_append, hopening, String.toList_ofList]
    exact scan_control text h8 rest
  · have hplain : step (.string text) c = some ([], .string (c :: text)) := by
      simp only [step, if_neg h1, if_neg h2, if_neg h8]
    rw [String.toList_singleton]
    exact scan_silent hplain rest

theorem scan_escaped (cs text rest : List Char) :
    scan (.string text) (cs.flatMap (fun c => (escapeChar c).toList) ++ rest) =
      scan (.string (cs.reverse ++ text)) rest := by
  induction cs generalizing text with
  | nil => rfl
  | cons c cs ih =>
    rw [List.flatMap_cons, List.append_assoc, scan_escapeChar, ih, List.reverse_cons, List.append_assoc]
    rfl

/-- A string is read back, whatever its text is. -/
theorem reads_quote (s : String) : Reads Anything (quote s) [.string s] := by
  intro rest _
  have hquote : "\"".toList = ['"'] := rfl
  have hopening : step .between '"' = some ([], .string []) := rfl
  have hclosing : step (.string s.toList.reverse) '"' = some ([.string s], .between) := by
    simp only [step, if_pos, List.reverse_reverse, String.ofList_toList]
  unfold quote
  rw [String.toList_append, String.toList_append, String.toList_join, List.flatMap_map, hquote, List.append_assoc,
    List.append_assoc, List.singleton_append, scan_silent hopening, scan_escaped, List.append_nil,
    List.singleton_append, scan_cons hclosing]

/-! ## Numbers -/

/-- Digits go on with a number; the text behind them may go on further. -/
theorem scan_digits {ds : List Char} (hds : ∀ c ∈ ds, c.isDigit) (n : Nat) (rest : List Char) :
    scan (.number n) (ds ++ rest) = scan (.number (Nat.ofDigitChars 10 ds n)) rest := by
  induction ds generalizing n with
  | nil => rfl
  | cons c ds ih =>
    have hdigit : step (.number n) c = some ([], .number (10 * n + (c.toNat - '0'.toNat))) := by
      simp only [step, digit?, if_pos (hds c List.mem_cons_self)]
    rw [List.cons_append, scan_silent hdigit, ih fun c' hc' => hds c' (List.mem_cons_of_mem c hc')]
    rfl

/-- A number ends where no digit follows. -/
theorem scan_number_end (n : Nat) {rest : List Char} (hrest : Follows rest) :
    scan (.number n) rest = (scan .between rest).map (.number n :: ·) := by
  cases rest with
  | nil => rfl
  | cons c cs =>
    have hc : digit? c = none := by
      unfold digit?
      rw [if_neg (hrest c rfl)]
    rw [scan, scan]
    simp only [step, hc]
    cases start c with
    | none => rfl
    | some r =>
      rw [Option.map_some, Option.bind_some, Option.bind_some, Option.map_map]
      rfl

theorem reads_repr (n : Nat) : Reads Follows n.repr [.number n] := by
  intro rest hrest
  have hdigits : ∀ c ∈ Nat.toDigits 10 n, c.isDigit := fun c hc =>
    Nat.isDigit_of_mem_toDigits (by decide) (by decide) hc
  have hvalue : Nat.ofDigitChars 10 (Nat.toDigits 10 n) 0 = n := Nat.ofDigitChars_ten_toDigits
  rw [Nat.toList_repr]
  cases h : Nat.toDigits 10 n with
  | nil => exact absurd h Nat.toDigits_ne_nil
  | cons c ds =>
    rw [h] at hdigits hvalue
    have hc := hdigits c List.mem_cons_self
    have hother : ∀ {x : Char}, ¬ x.isDigit → c ≠ x := fun hx heq => hx (heq ▸ hc)
    have hblank : c ∉ [' ', '\n', '\t', '\r'] := by
      simp only [List.mem_cons, List.not_mem_nil, or_false, not_or]
      exact ⟨hother (by decide), hother (by decide), hother (by decide), hother (by decide)⟩
    have hquote : c ≠ '"' := hother (by decide)
    have hword : c ≠ 'n' := hother (by decide)
    have hfirst : step .between c = some ([], .number (c.toNat - '0'.toNat)) := by
      simp only [step, start, if_neg hblank, if_neg hquote, if_neg hword, digit?, if_pos hc]
    have hrepr : Nat.ofDigitChars 10 ds (c.toNat - '0'.toNat) = n := by
      rw [Nat.ofDigitChars, List.foldl_cons, Nat.mul_zero, Nat.zero_add] at hvalue
      exact hvalue
    rw [List.cons_append, scan_silent hfirst, scan_digits fun c' hc' => hdigits c' (List.mem_cons_of_mem c hc'), hrepr]
    exact scan_number_end n hrest

/-! ## Values -/

mutual

/-- The lexemes of a value. -/
def lexemes : Json → List Lexeme
  | .null => [.null]
  | .number n => [.number n]
  | .string s => [.string s]
  | .array items => [.arrayStart] ++ [.comma].intercalate (itemLexemes items) ++ [.arrayEnd]
  | .object members => [.objectStart] ++ [.comma].intercalate (memberLexemes members) ++ [.objectEnd]

/-- The lexemes of each item. -/
def itemLexemes : List Json → List (List Lexeme)
  | [] => []
  | j :: js => lexemes j :: itemLexemes js

/-- The lexemes of each member: its key, a colon, and its value. -/
def memberLexemes : List (String × Json) → List (List Lexeme)
  | [] => []
  | (key, j) :: ms => ([.string key, .colon] ++ lexemes j) :: memberLexemes ms

end

theorem reads_null : Reads Anything "null" [.null] := by
  intro rest _
  have hword : "null".toList = ['n', 'u', 'l', 'l'] := rfl
  have hfirst : step .between 'n' = some ([], .word 'u' ['l', 'l']) := rfl
  have hsecond : step (.word 'u' ['l', 'l']) 'u' = some ([], .word 'l' ['l']) := rfl
  have hthird : step (.word 'l' ['l']) 'l' = some ([], .word 'l' []) := rfl
  have hlast : step (.word 'l' []) 'l' = some ([.null], .between) := rfl
  rw [hword, List.cons_append, List.cons_append, List.cons_append, List.singleton_append, scan_silent hfirst,
    scan_silent hsecond, scan_silent hthird, scan_cons hlast]

/-- Elements on lines of their own, with commas between them. -/
theorem reads_elements {es : List String} {lss : List (List Lexeme)} (h : List.Forall₂ (Reads Follows) es lss)
    (level : Nat) :
    Reads Follows (",\n".intercalate (es.map fun e => indent level ++ e)) ([.comma].intercalate lss) := by
  have hcomma : Reads Anything ",\n" [.comma] := reads_mark rfl rfl rfl
  induction h with
  | nil =>
    intro rest _
    rw [List.map_nil, String.intercalate_nil, List.intercalate_nil]
    exact Option.map_id'.symm
  | @cons e ls es lss he h ih =>
    have hfirst : Reads Follows (indent level ++ e) ls := (reads_indent level).andThen he
    cases h with
    | nil =>
      rw [List.map_singleton, String.intercalate_singleton, List.intercalate_singleton]
      exact hfirst
    | cons =>
      -- a comma is no digit, so the first element may be a number
      rw [List.map_cons, List.map_cons, String.intercalate_cons_cons, ← List.map_cons, List.intercalate_cons_cons]
      exact (hfirst.append hcomma fun rest _ => follows_cons (by decide) _).andThen ih

theorem reads_block {opening closing : String} {a b : Lexeme} (hopening : Reads Anything opening [a])
    (hclosing : Reads Anything closing [b]) {es : List String} {lss : List (List Lexeme)}
    (h : List.Forall₂ (Reads Follows) es lss) (level : Nat) :
    Reads Anything (block level opening closing es) ([a] ++ [.comma].intercalate lss ++ [b]) := by
  have hfeed : Reads Anything "\n" [] := reads_char rfl rfl
  cases h with
  | nil => exact hopening.andThen hclosing
  | cons he h =>
    have helements := reads_elements (.cons he h) (level + 1)
    have hbody := (hopening.andThen hfeed).andThen helements
    have hlast := ((hbody.append hfeed fun rest _ => follows_cons (by decide) _).andThen (reads_indent level)).andThen
      hclosing
    rwa [List.append_nil, List.append_nil, List.append_nil] at hlast

mutual

/-- **The pretty form of a value is read as the lexemes of the value.** -/
theorem reads_prettyAt (level : Nat) : (j : Json) → Reads Follows (prettyAt level j) (lexemes j)
  | .null => reads_null.mono
  | .number n => reads_repr n
  | .string s => (reads_quote s).mono
  | .array items => by
    have hopening : Reads Anything "[" [.arrayStart] := reads_char rfl rfl
    have hclosing : Reads Anything "]" [.arrayEnd] := reads_char rfl rfl
    exact (reads_block hopening hclosing (reads_prettyItems (level + 1) items) level).mono
  | .object members => by
    have hopening : Reads Anything "\x7b" [.objectStart] := reads_char rfl rfl
    have hclosing : Reads Anything "\x7d" [.objectEnd] := reads_char rfl rfl
    exact (reads_block hopening hclosing (reads_prettyMembers (level + 1) members) level).mono

theorem reads_prettyItems (level : Nat) :
    (items : List Json) → List.Forall₂ (Reads Follows) (prettyItems level items) (itemLexemes items)
  | [] => .nil
  | j :: js => .cons (reads_prettyAt level j) (reads_prettyItems level js)

theorem reads_prettyMembers (level : Nat) : (members : List (String × Json)) →
    List.Forall₂ (Reads Follows) (prettyMembers level members) (memberLexemes members)
  | [] => .nil
  | (key, j) :: ms => by
    have hcolon : Reads Anything ": " [.colon] := reads_mark rfl rfl rfl
    have hmember := ((reads_quote key).andThen hcolon).andThen (reads_prettyAt level j)
    exact .cons hmember (reads_prettyMembers level ms)

end

end Json
end SchemaDart
