import LeaseCatalog.Toml.Quoted
import LeaseCatalog.Toml.Scalar
import LeaseCatalog.Toml.Table

/-!
# The text of a configuration file

A file is read line by line: a line is blank, a header or a key with its value, and may end with a
comment. Lists may run over several lines, tables in braces may not. `read?` gives the entries of the
root table, or nothing where the text is no TOML; which line is at fault is not recorded.

The readers of values call each other; each call spends one unit of fuel, and the length of the text
is more than any of them can need.
-/

namespace LeaseCatalog.Toml

/-- The text behind blanks. -/
def skipBlanks (text : List Char) : List Char := text.dropWhile fun c => c == ' ' || c == '\t'

/-- The text behind the end of a line. -/
def skipLineEnd? : List Char → Option (List Char)
  | '\n' :: rest => some rest
  | '\r' :: '\n' :: rest => some rest
  | _ => none

/-- The text behind a comment, if one starts here. -/
def skipComment : List Char → List Char
  | '#' :: rest => rest.dropWhile inText
  | text => text

/-- The text behind what may still stand in a line after its content. -/
def finishLine? (text : List Char) : Option (List Char) :=
  match skipComment (skipBlanks text) with
  | [] => some []
  | rest => skipLineEnd? rest

/-- The text behind blanks, comments and ends of lines; a comment needs the end of its line. -/
def skipLines? : Nat → List Char → Option (List Char)
  | 0, _ => none
  | fuel + 1, text =>
    match skipBlanks text with
    | '#' :: rest => (skipLineEnd? (rest.dropWhile inText)).bind (skipLines? fuel)
    | '\n' :: rest => skipLines? fuel rest
    | '\r' :: '\n' :: rest => skipLines? fuel rest
    | rest => some rest

/-- Whether a character may stand in a key without quotes. -/
def inBareKey (c : Char) : Bool := c.isAlphanum || c == '_' || c == '-'

/-- One part of a key. -/
def keyPart? (text : List Char) : Option (String × List Char) :=
  match oneLine? text with
  | some part => some part
  | none =>
    let bare := text.takeWhile inBareKey
    if bare = [] then none else some (String.ofList bare, text.dropWhile inBareKey)

/-- The parts of a key, with blanks around each of them. -/
def keyParts? : Nat → List Char → Option (List String × List Char)
  | 0, _ => none
  | fuel + 1, text => do
    let (part, rest) ← keyPart? (skipBlanks text)
    match skipBlanks rest with
    | '.' :: rest =>
      let (parts, rest) ← keyParts? fuel rest
      some (part :: parts, rest)
    | rest => some ([part], rest)

/-- A key: the path to its table, its last part, and the text behind it. -/
def key? (text : List Char) : Option ((List String × String) × List Char) := do
  let (parts, rest) ← keyParts? nestingLimit text
  let last ← parts.getLast?
  if parts.length < nestingLimit then some ((parts.dropLast, last), rest) else none

/-- Whether the run of a date continues behind a space with a time. -/
def continuesBehindSpace (run rest : List Char) : Bool :=
  skipDate? run == some [] &&
    match rest with
    | ' ' :: c :: _ => c.isDigit
    | _ => false

/-- A plain value. -/
def plain? (text : List Char) : Option (Item × List Char) :=
  let run := text.takeWhile inRun
  let rest := text.dropWhile inRun
  let (run, rest) :=
    if continuesBehindSpace run rest then
      (run ++ ' ' :: (rest.drop 1).takeWhile inRun, (rest.drop 1).dropWhile inRun)
    else (run, rest)
  (Item.ofRun? run).map (·, rest)

mutual

/-- A value inside `depth` lists and tables in braces. -/
def value? (depth : Nat) : Nat → List Char → Option (Item × List Char)
  | 0, _ => none
  | fuel + 1, text =>
    match text with
    | '[' :: rest =>
      if depth + 1 < nestingLimit then
        (items? (depth + 1) fuel [] rest).map fun (items, rest) => (.array items, rest)
      else none
    | '\x7b' :: rest =>
      if depth + 1 < nestingLimit then
        match skipBlanks rest with
        | '\x7d' :: rest => some (.table .braces [], rest)
        | _ =>
          (members? (depth + 1) fuel [] rest).map fun (entries, rest) =>
            (.table .braces entries, rest)
      else none
    | '"' :: _ | '\'' :: _ => (text? text).map fun (s, rest) => (.string s, rest)
    | text => plain? text

/-- The items of a list, behind its opening bracket or a comma; those before are kept in reverse. -/
def items? (depth : Nat) : Nat → List Item → List Char → Option (List Item × List Char)
  | 0, _, _ => none
  | fuel + 1, read, text =>
    match skipLines? (text.length + 1) text with
    | none => none
    | some (']' :: rest) => some (read.reverse, rest)
    | some text =>
      match value? depth fuel text with
      | none => none
      | some (item, rest) =>
        match skipLines? (rest.length + 1) rest with
        | some (',' :: rest) => items? depth fuel (item :: read) rest
        | some (']' :: rest) => some ((item :: read).reverse, rest)
        | _ => none

/-- The entries of a table in braces, behind its opening brace or a comma. -/
def members? (depth : Nat) : Nat → Entries → List Char → Option (Entries × List Char)
  | 0, _, _ => none
  | fuel + 1, entries, text =>
    match key? text with
    | some ((path, key), '=' :: rest) =>
      match value? depth fuel (skipBlanks rest) with
      | none => none
      | some (item, rest) =>
        match Table.add? path key item (.braces, entries) with
        | none => none
        | some (_, entries) =>
          match skipBlanks rest with
          | ',' :: rest => members? depth fuel entries rest
          | '\x7d' :: rest => some (entries, rest)
          | _ => none
    | _ => none

end

/-- Reads a header, behind its opening brackets. -/
def header? (isArray : Bool) (text : List Char) (b : Builder) : Option (Builder × List Char) := do
  let ((path, key), rest) ← key? text
  let rest ←
    match isArray, rest with
    | true, ']' :: ']' :: rest => some rest
    | false, ']' :: rest => some rest
    | _, _ => none
  let rest ← finishLine? rest
  let b ← b.openTable? isArray (path ++ [key])
  some (b, rest)

/-- Reads a key with its value. -/
def keyValue? (text : List Char) (b : Builder) : Option (Builder × List Char) := do
  let ((path, key), rest) ← key? text
  let rest ← skip? ['='] rest
  let (item, rest) ← value? 0 (rest.length + 1) (skipBlanks rest)
  let rest ← finishLine? rest
  let b ← b.add? path key item
  some (b, rest)

/-- Reads the lines of a file. -/
def lines? : Nat → Builder → List Char → Option Builder
  | 0, _, _ => none
  | fuel + 1, b, text =>
    match skipBlanks text with
    | [] => some b
    | '#' :: rest => (finishLine? ('#' :: rest)).bind (lines? fuel b)
    | '\n' :: rest => lines? fuel b rest
    | '\r' :: '\n' :: rest => lines? fuel b rest
    | '[' :: '[' :: rest => (header? true rest b).bind fun (b, rest) => lines? fuel b rest
    | '[' :: rest => (header? false rest b).bind fun (b, rest) => lines? fuel b rest
    | text => (keyValue? text b).bind fun (b, rest) => lines? fuel b rest

/-- A text without the mark of its byte order. -/
def dropByteOrderMark : List Char → List Char
  | '\ufeff' :: rest => rest
  | text => text

/-- The entries of the root table of a file, if its text is TOML. -/
def read? (text : String) : Option Entries :=
  let chars := dropByteOrderMark text.toList
  (lines? (chars.length + 1) .initial chars).bind Builder.close?

end LeaseCatalog.Toml
