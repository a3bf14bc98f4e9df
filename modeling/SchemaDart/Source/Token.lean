import SchemaDart.Document
import SchemaDart.Source.BlockString
import SchemaDart.Source.Glyph
import SchemaDart.Source.Numeral
import SchemaDart.Source.Quoted

/-!
# Tokens

A source text is read character by character by a machine that puts out tokens.  `Mode` is what the machine
remembers, `step` how it takes a character, `finish` what the end of the text makes of the mode.  Between tokens
blanks, comments and byte order marks are skipped.
-/

namespace SchemaDart
namespace Source

/-- The three kinds of bracket. -/
inductive Bracket where
  | paren
  | square
  | brace
deriving DecidableEq

/-- Punctuation other than brackets. -/
inductive Mark where
  | bang
  | dollar
  | ampersand
  | spread
  | colon
  | equals
  | atSign
  | pipe
deriving DecidableEq

/-- What a token is. -/
inductive Lexeme where
  | comma
  | opening (bracket : Bracket)
  | closing (bracket : Bracket)
  | mark (mark : Mark)
  | name (text : String)
  | int (text : String)
  | float (text : String)
  | string (value : String)

/-- A token and the lines it stretches over. -/
structure Token where
  lexeme : Lexeme
  lines : LineRange

/-- A token on one line. -/
def Token.on (line : Nat) (lexeme : Lexeme) : Token := ⟨lexeme, line, line⟩

/-- The lexeme that one character is. -/
def punctuation? : Char → Option Lexeme
  | ',' => some .comma
  | '!' => some (.mark .bang)
  | '$' => some (.mark .dollar)
  | '&' => some (.mark .ampersand)
  | ':' => some (.mark .colon)
  | '=' => some (.mark .equals)
  | '@' => some (.mark .atSign)
  | '|' => some (.mark .pipe)
  | '(' => some (.opening .paren)
  | ')' => some (.closing .paren)
  | '[' => some (.opening .square)
  | ']' => some (.closing .square)
  | '{' => some (.opening .brace)
  | '}' => some (.closing .brace)
  | _ => none

/-- What may stand between tokens. -/
def isSkipped (c : Char) : Bool := c ∈ [' ', '\t', '\n', '\r', '\ufeff']

/-- A comment ends with its line, and a quoted string stays on its line.  Only these two end a line for them. -/
def isNewline (c : Char) : Bool := c = '\n' || c = '\r'

def isNameStart (c : Char) : Bool := c.isAlpha || c = '_'

def isNameChar (c : Char) : Bool := c.isAlphanum || c = '_'

/-- The lexeme of a number. -/
def NumberForm.lexeme (text : String) : NumberForm → Lexeme
  | .int => .int text
  | .float => .float text

/-- What has been read of the token at hand.  `read` holds characters, the latest first; `line` is the line on
which the token begins. -/
inductive Mode where
  /-- Between tokens. -/
  | between
  | comment
  | name (line : Nat) (read : List Char)
  | number (line : Nat) (state : NumberState) (read : List Char)
  /-- Some dots of a spread. -/
  | dots (line : Nat) (count : Nat)
  /-- One quote. -/
  | quote (line : Nat)
  /-- Two quotes: an empty string or the beginning of a block string. -/
  | quotes (line : Nat)
  /-- In a quoted string, right behind a backslash if `escaping`. -/
  | quoted (line : Nat) (read : List Char) (escaping : Bool)
  /-- In a block string, behind a backslash if `escaping` and then that many quotes. -/
  | block (line : Nat) (read : List Char) (escaping : Bool) (quotes : Nat)

/-- The name read in reverse. -/
def nameToken (line : Nat) (read : List Char) : Token := .on line (.name (String.ofList read.reverse))

/-- The number read in reverse. -/
def numberToken? (line : Nat) (state : NumberState) (read : List Char) : Option Token :=
  state.form?.map fun form => .on line (form.lexeme (String.ofList read.reverse))

/-- Takes a character between tokens, with which a token may begin. -/
def start (g : Glyph) : Option (List Token × Mode) :=
  if isSkipped g.char then some ([], .between)
  else if g.char = '#' then some ([], .comment)
  else if isNameStart g.char then some ([], .name g.line [g.char])
  else if g.char = '-' then some ([], .number g.line .minus [g.char])
  else if g.char = '0' then some ([], .number g.line .zero [g.char])
  else if g.char.isDigit then some ([], .number g.line .whole [g.char])
  else if g.char = '.' then some ([], .dots g.line 1)
  else if g.char = '"' then some ([], .quote g.line)
  else (punctuation? g.char).map fun lexeme => ([.on g.line lexeme], .between)

/-- Takes a character right behind a token that it does not belong to. -/
def startAfter (token : Token) (g : Glyph) : Option (List Token × Mode) :=
  (start g).map fun (tokens, mode) => (token :: tokens, mode)

/-- Takes a character in a quoted string, within which no line ends. -/
def stepQuoted (line : Nat) (read : List Char) (escaping : Bool) (g : Glyph) : Option (List Token × Mode) :=
  if isNewline g.char then none
  else if escaping then some ([], .quoted line (g.char :: read) false)
  else if g.char = '"' then
    (unescape read.reverse).map fun value => ([⟨.string (String.ofList value), line, g.line⟩], .between)
  else some ([], .quoted line (g.char :: read) (g.char = '\\'))

/-- Takes the first character behind a quote.  Here a line may end. -/
def stepQuote (line : Nat) (g : Glyph) : Option (List Token × Mode) :=
  if g.char = '"' then some ([], .quotes line)
  else if isNewline g.char then some ([], .quoted line [g.char] false)
  else stepQuoted line [] false g

/-- Takes a character in a block string.  Three quotes end it, but with a backslash before them they are part of it. -/
def stepBlock (line : Nat) (read : List Char) (escaping : Bool) (quotes : Nat) (g : Glyph) :
    Option (List Token × Mode) :=
  if g.char = '"' then
    if quotes < 2 then some ([], .block line read escaping (quotes + 1))
    else if escaping then some ([], .block line ('"' :: '"' :: '"' :: read) false 0)
    else some ([⟨.string (String.ofList (blockValue read.reverse)), line, g.line⟩], .between)
  else
    let read := List.replicate quotes '"' ++ if escaping then '\\' :: read else read
    if g.char = '\\' then some ([], .block line read true 0)
    else some ([], .block line (g.char :: read) false 0)

/-- Takes one character: the tokens that it completes, and the mode after it. -/
def step : Mode → Glyph → Option (List Token × Mode)
  | .between, g => start g
  | .comment, g => some ([], if isNewline g.char then .between else .comment)
  | .name line read, g =>
    if isNameChar g.char then some ([], .name line (g.char :: read)) else startAfter (nameToken line read) g
  | .number line state read, g =>
    match state.next? g.char with
    | some state => some ([], .number line state (g.char :: read))
    | none =>
      if isNameChar g.char || g.char = '.' then none
      else (numberToken? line state read).bind (startAfter · g)
  | .dots line count, g =>
    if g.char ≠ '.' then none
    else if count < 2 then some ([], .dots line (count + 1))
    else some ([⟨.mark .spread, line, g.line⟩], .between)
  | .quote line, g => stepQuote line g
  | .quotes line, g =>
    if g.char = '"' then some ([], .block line [] false 0) else startAfter (.on line (.string "")) g
  | .quoted line read escaping, g => stepQuoted line read escaping g
  | .block line read escaping quotes, g => stepBlock line read escaping quotes g

/-- The tokens that the end of the text completes. -/
def finish : Mode → Option (List Token)
  | .between => some []
  | .comment => some []
  | .name line read => some [nameToken line read]
  | .number line state read => (numberToken? line state read).map ([·])
  | .quotes line => some [.on line (.string "")]
  | _ => none

/-- The tokens of characters read from a mode on, behind those of `done`, which holds the latest first. -/
def scan (done : List Token) (mode : Mode) : List Glyph → Option (List Token)
  | [] => (finish mode).map (done.reverse ++ ·)
  | g :: gs =>
    match step mode g with
    | none => none
    | some (tokens, mode) => scan (tokens.reverse ++ done) mode gs

/-- The tokens of a text; `none` if it is not made of tokens. -/
def tokens? (text : String) : Option (List Token) := scan [] .between (glyphs text)

end Source
end SchemaDart
