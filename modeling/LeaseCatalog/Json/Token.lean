import LeaseCatalog.Json.Number
import LeaseCatalog.Text.Hexadecimal

/-!
# Tokens of documents

The text of a document is cut into tokens by a machine that reads one character at a time. Its
`Mode` says what the characters read last belong to. A number and a word end at the first character
that cannot belong to them, and that character is then read as if nothing had come before it.

A text between quotes may name halves of surrogate pairs. Whether they pair up is found when the
text ends: if they do not, the token has no content, and it depends on where it stands whether that
is a fault.
-/

namespace LeaseCatalog.Json

/-- What the text of a document consists of. -/
inductive Token where
  /-- The start of a list. -/
  | openArray
  /-- The end of a list. -/
  | closeArray
  /-- The start of an object. -/
  | openObject
  /-- The end of an object. -/
  | closeObject
  /-- What separates items and members. -/
  | comma
  /-- What separates a name from its value. -/
  | colon
  /-- The word `null`. -/
  | null
  /-- The word `true` or `false`. -/
  | bool (b : Bool)
  /-- A number as it is written. -/
  | number (n : NumberText)
  /-- A text; none if it names half of a surrogate pair without the other half. -/
  | string (content : Option String)
deriving DecidableEq

/-- A piece of a text between quotes. -/
inductive Piece where
  /-- A character. -/
  | char (c : Char)
  /-- Half of a surrogate pair, by its number. -/
  | half (n : Nat)
deriving DecidableEq

/-- The characters of the pieces, if every half is followed or preceded by its other half. -/
def joinPieces : List Piece → Option (List Char)
  | [] => some []
  | .char c :: rest => (joinPieces rest).map (c :: ·)
  | .half high :: .half low :: rest =>
    if 0xD800 ≤ high ∧ high < 0xDC00 ∧ 0xDC00 ≤ low ∧ low < 0xE000 then
      (joinPieces rest).map (Char.ofNat (0x10000 + (high - 0xD800) * 0x400 + (low - 0xDC00)) :: ·)
    else none
  | .half _ :: _ => none

/-- What the characters read last belong to. What has been collected is kept in reverse. -/
inductive Mode where
  /-- Nothing. -/
  | between
  /-- A text. -/
  | text (pieces : List Piece)
  /-- A text, just after a backslash. -/
  | escape (pieces : List Piece)
  /-- A text, within a character number of four digits. -/
  | hex (pieces : List Piece) (read : Nat) (number : Nat)
  /-- A number. -/
  | number (chars : List Char)
  /-- A word. -/
  | word (chars : List Char)
deriving DecidableEq

/-- The character that a letter stands for after a backslash. -/
def escaped? (c : Char) : Option Char :=
  if c = '"' ∨ c = '\\' ∨ c = '/' then some c
  else if c = 'b' then some '\x08'
  else if c = 'f' then some '\x0c'
  else if c = 'n' then some '\n'
  else if c = 'r' then some '\r'
  else if c = 't' then some '\t'
  else none

/-- The piece that a character number names. -/
def pieceOf (n : Nat) : Piece :=
  if 0xD800 ≤ n ∧ n < 0xE000 then .half n else .char (Char.ofNat n)

/-- Whether a character can belong to a number. -/
def inNumber (c : Char) : Bool :=
  c.isDigit || c == '-' || c == '+' || c == '.' || c == 'e' || c == 'E'

/-- The token of a word. -/
def wordToken? (chars : List Char) : Option Token :=
  if chars = ['n', 'u', 'l', 'l'] then some .null
  else if chars = ['t', 'r', 'u', 'e'] then some (.bool true)
  else if chars = ['f', 'a', 'l', 's', 'e'] then some (.bool false)
  else none

/-- Reads a character before which nothing stands: the token it is, if it is one alone, and what
the next character belongs to. -/
def start? (c : Char) : Option (List Token × Mode) :=
  if c = ' ' ∨ c = '\n' ∨ c = '\t' ∨ c = '\r' then some ([], .between)
  else if c = '[' then some ([.openArray], .between)
  else if c = ']' then some ([.closeArray], .between)
  else if c = '\x7b' then some ([.openObject], .between)
  else if c = '\x7d' then some ([.closeObject], .between)
  else if c = ',' then some ([.comma], .between)
  else if c = ':' then some ([.colon], .between)
  else if c = '"' then some ([], .text [])
  else if c = '-' ∨ c.isDigit then some ([], .number [c])
  else if c.isAlpha then some ([], .word [c])
  else none

/-- Puts a token in front of what a character gives. -/
def after (token : Option Token) (next : Option (List Token × Mode)) : Option (List Token × Mode) :=
  token.bind fun t => next.map fun (ts, mode) => (t :: ts, mode)

/-- Reads one character. -/
def readChar? : Mode → Char → Option (List Token × Mode)
  | .between, c => start? c
  | .text pieces, c =>
    if c = '"' then
      some ([.string ((joinPieces pieces.reverse).map String.ofList)], .between)
    else if c = '\\' then some ([], .escape pieces)
    else if c.toNat < 0x20 then none
    else some ([], .text (.char c :: pieces))
  | .escape pieces, c =>
    if c = 'u' then some ([], .hex pieces 0 0)
    else (escaped? c).map fun d => ([], .text (.char d :: pieces))
  | .hex pieces read n, c =>
    (Text.hexValue? c).map fun d =>
      let n := 16 * n + d
      ([], if read = 3 then .text (pieceOf n :: pieces) else .hex pieces (read + 1) n)
  | .number chars, c =>
    if inNumber c then some ([], .number (c :: chars))
    else after ((NumberText.ofChars? chars.reverse).map .number) (start? c)
  | .word chars, c =>
    if c.isAlpha then some ([], .word (c :: chars))
    else after (wordToken? chars.reverse) (start? c)

/-- The tokens that the end of the text completes, if the text may end here. -/
def finish? : Mode → Option (List Token)
  | .between => some []
  | .number chars => (NumberText.ofChars? chars.reverse).map (fun n => [.number n])
  | .word chars => (wordToken? chars.reverse).map (fun t => [t])
  | .text _ | .escape _ | .hex _ _ _ => none

/-- The tokens of a text, from what its first character belongs to; those read so far are kept in
reverse. -/
def tokensFrom : Mode → List Token → List Char → Option (List Token)
  | mode, read, [] => (finish? mode).map (read.reverse ++ ·)
  | mode, read, c :: rest =>
    match readChar? mode c with
    | none => none
    | some (tokens, mode) => tokensFrom mode (tokens.reverse ++ read) rest

/-- The tokens of a text, if it consists of tokens. -/
def tokens? (text : List Char) : Option (List Token) := tokensFrom .between [] text

end LeaseCatalog.Json
