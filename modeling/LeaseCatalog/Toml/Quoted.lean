import LeaseCatalog.Text.Hexadecimal

/-!
# Texts of configuration files

A text of a TOML file stands between double quotes, where a backslash has a meaning, or between
single ones, where it has none; and either kind may run over several lines between triple quotes.
Each reader starts behind the opening quotes and gives the text and what follows its closing quotes.
What has been read is collected in reverse.
-/

namespace LeaseCatalog.Toml

/-- Whether a character may stand in a text without a backslash, quotes aside. -/
def inText (c : Char) : Bool := c == '\t' || (0x20 ≤ c.toNat && c.toNat != 0x7F)

/-- The character that a letter stands for after a backslash. -/
def escaped? (c : Char) : Option Char :=
  if c = 'b' then some '\x08'
  else if c = 't' then some '\t'
  else if c = 'n' then some '\n'
  else if c = 'f' then some '\x0c'
  else if c = 'r' then some '\r'
  else if c = '"' ∨ c = '\\' then some c
  else none

/-- The character of a number, if it has one. -/
def scalar? (n : Nat) : Option Char :=
  if n < 0xD800 ∨ (0xE000 ≤ n ∧ n < 0x110000) then some (Char.ofNat n) else none

/-- Where a reader stands in a text. -/
inductive Place where
  /-- Between characters, behind a number of quotes that may be the closing ones. -/
  | quotes (count : Nat)
  /-- Behind a backslash. -/
  | escape
  /-- In a character number, with so many digits to come. -/
  | hex (left : Nat) (number : Nat)
  /-- Behind a backslash and blanks, before the end of the line. -/
  | toLineEnd
  /-- Behind a backslash and the end of its line, before the next character that is not blank. -/
  | skipping
  /-- Behind a carriage return. -/
  | carriage (resume : Bool)
deriving DecidableEq

/-- Reads a text of one line between double quotes. -/
def basic? : Place → List Char → List Char → Option (String × List Char)
  | .quotes _, read, '"' :: rest => some (String.ofList read.reverse, rest)
  | .quotes _, read, '\\' :: rest => basic? .escape read rest
  | .quotes _, read, c :: rest => if inText c then basic? (.quotes 0) (c :: read) rest else none
  | .escape, read, 'u' :: rest => basic? (.hex 4 0) read rest
  | .escape, read, 'U' :: rest => basic? (.hex 8 0) read rest
  | .escape, read, c :: rest =>
    match escaped? c with
    | some d => basic? (.quotes 0) (d :: read) rest
    | none => none
  | .hex left n, read, c :: rest =>
    match Text.hexValue? c with
    | none => none
    | some d =>
      if left ≤ 1 then
        match scalar? (16 * n + d) with
        | some s => basic? (.quotes 0) (s :: read) rest
        | none => none
      else basic? (.hex (left - 1) (16 * n + d)) read rest
  | _, _, _ => none

/-- Reads a text of one line between single quotes. -/
def literal? : List Char → List Char → Option (String × List Char)
  | read, '\'' :: rest => some (String.ofList read.reverse, rest)
  | read, c :: rest => if inText c then literal? (c :: read) rest else none
  | _, [] => none

/-- Reads a text of several lines between triple quotes of one kind, which has escapes if `escapes`
says so. Up to two quotes may stand in it, also before the three that close it. -/
def multiLine? (quote : Char) (escapes : Bool) :
    Place → List Char → List Char → Option (String × List Char)
  | .quotes n, read, [] =>
    if 3 ≤ n then some (String.ofList (List.replicate (n - 3) quote ++ read).reverse, []) else none
  | .quotes n, read, c :: rest =>
    if c = quote ∧ n < 5 then multiLine? quote escapes (.quotes (n + 1)) read rest
    else if 3 ≤ n then
      some (String.ofList (List.replicate (n - 3) quote ++ read).reverse, c :: rest)
    else
      let read := List.replicate n quote ++ read
      if escapes ∧ c = '\\' then multiLine? quote escapes .escape read rest
      else if c = '\r' then multiLine? quote escapes (.carriage false) read rest
      else if c = '\n' ∨ inText c then multiLine? quote escapes (.quotes 0) (c :: read) rest
      else none
  | .escape, read, c :: rest =>
    if c = 'u' then multiLine? quote escapes (.hex 4 0) read rest
    else if c = 'U' then multiLine? quote escapes (.hex 8 0) read rest
    else if c = ' ' ∨ c = '\t' then multiLine? quote escapes .toLineEnd read rest
    else if c = '\n' then multiLine? quote escapes .skipping read rest
    else if c = '\r' then multiLine? quote escapes (.carriage true) read rest
    else
      match escaped? c with
      | some d => multiLine? quote escapes (.quotes 0) (d :: read) rest
      | none => none
  | .hex left n, read, c :: rest =>
    match Text.hexValue? c with
    | none => none
    | some d =>
      if left ≤ 1 then
        match scalar? (16 * n + d) with
        | some s => multiLine? quote escapes (.quotes 0) (s :: read) rest
        | none => none
      else multiLine? quote escapes (.hex (left - 1) (16 * n + d)) read rest
  | .toLineEnd, read, c :: rest =>
    if c = ' ' ∨ c = '\t' then multiLine? quote escapes .toLineEnd read rest
    else if c = '\n' then multiLine? quote escapes .skipping read rest
    else if c = '\r' then multiLine? quote escapes (.carriage true) read rest
    else none
  | .skipping, read, c :: rest =>
    if c = ' ' ∨ c = '\t' ∨ c = '\n' then multiLine? quote escapes .skipping read rest
    else if c = '\r' then multiLine? quote escapes (.carriage true) read rest
    else if c = quote then multiLine? quote escapes (.quotes 1) read rest
    else if c = '\\' then multiLine? quote escapes .escape read rest
    else if inText c then multiLine? quote escapes (.quotes 0) (c :: read) rest
    else none
  | .carriage resume, read, c :: rest =>
    if c = '\n' then
      if resume then multiLine? quote escapes .skipping read rest
      else multiLine? quote escapes (.quotes 0) ('\n' :: read) rest
    else none
  | _, _, [] => none

/-- A text without the line end that may follow triple opening quotes. -/
def dropFirstLineEnd : List Char → List Char
  | '\n' :: rest => rest
  | '\r' :: '\n' :: rest => rest
  | text => text

/-- Reads a text of one line, from its opening quote on. -/
def oneLine? : List Char → Option (String × List Char)
  | '"' :: rest => basic? (.quotes 0) [] rest
  | '\'' :: rest => literal? [] rest
  | _ => none

/-- Reads a text, from its opening quotes on. -/
def text? : List Char → Option (String × List Char)
  | '"' :: '"' :: '"' :: rest => multiLine? '"' true (.quotes 0) [] (dropFirstLineEnd rest)
  | '\'' :: '\'' :: '\'' :: rest => multiLine? '\'' false (.quotes 0) [] (dropFirstLineEnd rest)
  | text => oneLine? text

end LeaseCatalog.Toml
