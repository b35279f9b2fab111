import LeaseCatalog.Json.Printer
import LeaseCatalog.Json.Syntax
import Mathlib.Data.List.TakeWhile
import Mathlib.Tactic

/-!
# Printed documents are cut into their tokens

Every value has the tree that it is printed as (`Json.tree`), and every tree has its tokens
(`Document.tokens`). The text of a value is cut into the tokens of its tree, whether it is printed
without blanks or over several lines (`Json.compact_spells`, `Json.pretty_spells`).

The machine that cuts a text finds the end of a number or a word only at the character after it.
So there are two things to say of the characters of a token: that they are cut into it whatever
comes next (`Cuts`), which holds of brackets, texts and all that they enclose, and that they are cut
into it if what comes next cannot go on with a number or a word (`Spells`). What stands between two
values begins with a character that cannot.
-/

namespace LeaseCatalog

/-! ## Whole numbers -/

namespace Decimal

theorem isDigit_of_mem_ofNat {n : Nat} {c : Char} (h : c ∈ ofNat n) : c.isDigit = true :=
  Nat.isDigit_of_mem_toDigits (by decide) (by decide) h

theorem value_ofNat (n : Nat) : value (ofNat n) = n := Nat.ofDigitChars_ten_toDigits

theorem ofNat_ne_nil (n : Nat) : ofNat n ≠ [] := Nat.toDigits_ne_nil

/-- Only zero is written with a zero in front. -/
theorem head?_ofNat {n : Nat} (h : (ofNat n).head? = some '0') : ofNat n = ['0'] := by
  induction n using Nat.strong_induction_on with
  | h n ih =>
    unfold ofNat at h ih ⊢
    rw [Nat.toDigits_eq_if (by decide)] at h ⊢
    by_cases small : n < 10
    · rw [if_pos small] at h ⊢
      exact congrArg (fun c => [c]) (Option.some.inj h)
    · rw [if_neg small, List.head?_append_of_ne_nil _ Nat.toDigits_ne_nil] at h
      -- a number of several digits would begin with the zero of a smaller number that is zero
      have zero : Nat.toDigits 10 (n / 10) = ['0'] := ih (n / 10) (by omega) h
      have quotient : n / 10 = 0 := by
        rw [← Nat.ofDigitChars_ten_toDigits (n := n / 10), zero]
        rfl
      omega

end Decimal

/-! ## Numbers -/

theorem Json.inNumber_of_isDigit {c : Char} (h : c.isDigit = true) : inNumber c = true := by
  simp [inNumber, h]

/-- How a whole number is written. -/
def NumberText.ofInt (n : Int) : NumberText := ⟨decide (n < 0), Decimal.ofNat n.natAbs, [], none⟩

namespace NumberText

open Decimal
open Json (inNumber inNumber_of_isDigit)

/-- Splits what stands after the sign of a number. -/
def afterSign? (negative : Bool) (rest : List Char) : Option NumberText :=
  let whole := rest.takeWhile Char.isDigit
  if whole = [] ∨ (whole.head? = some '0' ∧ whole ≠ ['0']) then none
  else
    match rest.dropWhile Char.isDigit with
    | '.' :: rest =>
      let fraction := rest.takeWhile Char.isDigit
      if fraction = [] then none
      else (readExponent? (rest.dropWhile Char.isDigit)).map (⟨negative, whole, fraction, ·⟩)
    | rest => (readExponent? rest).map (⟨negative, whole, [], ·⟩)

theorem ofChars?_minus (rest : List Char) : ofChars? ('-' :: rest) = afterSign? true rest := rfl

theorem ofChars?_of_ne {c : Char} (h : c ≠ '-') (rest : List Char) :
    ofChars? (c :: rest) = afterSign? false (c :: rest) := by
  unfold ofChars?
  split
  · rename_i negative digits sign
    split at sign
    · rename_i minus
      exact absurd (List.cons.inj minus).1 h
    · cases sign
      rfl

theorem inNumber_of_readExponent? {chars : List Char} {e : Option (Bool × List Char)}
    (h : readExponent? chars = some e) : ∀ c ∈ chars, inNumber c = true := by
  cases chars with
  | nil => nofun
  | cons mark rest =>
    unfold readExponent? at h
    dsimp only at h
    split_ifs at h with isMark proper
    have first : inNumber mark = true := by
      rcases isMark with rfl | rfl <;> rfl
    refine List.forall_mem_cons.mpr ⟨first, ?_⟩
    have digits := List.all_eq_true.mp proper.2
    split at digits
    · exact List.forall_mem_cons.mpr ⟨rfl, fun c hc => inNumber_of_isDigit (digits c hc)⟩
    · exact List.forall_mem_cons.mpr ⟨rfl, fun c hc => inNumber_of_isDigit (digits c hc)⟩
    · exact fun c hc => inNumber_of_isDigit (digits c hc)

theorem inNumber_of_digits {chars : List Char}
    (h : ∀ c ∈ chars.dropWhile Char.isDigit, inNumber c = true) :
    ∀ c ∈ chars, inNumber c = true := by
  rw [← List.takeWhile_append_dropWhile (p := Char.isDigit) (l := chars)]
  intro c hc
  rcases List.mem_append.mp hc with digit | other
  · exact inNumber_of_isDigit (List.mem_takeWhile_imp digit)
  · exact h c other

theorem afterSign?_chars {negative : Bool} {chars : List Char} {t : NumberText}
    (h : afterSign? negative chars = some t) :
    ∃ c rest, chars = c :: rest ∧ c.isDigit = true ∧ ∀ d ∈ rest, inNumber d = true := by
  unfold afterSign? at h
  dsimp only at h
  split_ifs at h with proper
  rw [not_or] at proper
  have all : ∀ c ∈ chars, inNumber c = true := by
    refine inNumber_of_digits ?_
    split at h
    · rename_i rest left
      split_ifs at h
      obtain ⟨e, read, -⟩ := Option.map_eq_some_iff.mp h
      rw [left]
      exact List.forall_mem_cons.mpr ⟨rfl, inNumber_of_digits (inNumber_of_readExponent? read)⟩
    · obtain ⟨e, read, -⟩ := Option.map_eq_some_iff.mp h
      exact inNumber_of_readExponent? read
  cases chars with
  | nil => exact absurd rfl proper.1
  | cons c rest =>
    refine ⟨c, rest, rfl, ?_, (List.forall_mem_cons.mp all).2⟩
    by_contra other
    exact proper.1 (List.takeWhile_cons_of_neg other)

/-- The characters of a number are a digit or a minus sign and others that can belong to it. -/
theorem ofChars?_chars {chars : List Char} {t : NumberText} (h : ofChars? chars = some t) :
    ∃ c rest, chars = c :: rest ∧ (c = '-' ∨ c.isDigit = true) ∧
      ∀ d ∈ rest, inNumber d = true := by
  cases chars with
  | nil => cases h
  | cons c rest =>
    by_cases minus : c = '-'
    · subst minus
      rw [ofChars?_minus] at h
      obtain ⟨d, others, rfl, digit, all⟩ := afterSign?_chars h
      exact ⟨_, _, rfl, .inl rfl, List.forall_mem_cons.mpr ⟨inNumber_of_isDigit digit, all⟩⟩
    · rw [ofChars?_of_ne minus] at h
      obtain ⟨d, others, eq, digit, all⟩ := afterSign?_chars h
      exact ⟨d, others, eq, .inr digit, all⟩

theorem afterSign?_ofNat (negative : Bool) (n : Nat) :
    afterSign? negative (ofNat n) = some ⟨negative, ofNat n, [], none⟩ := by
  have digits : ∀ c ∈ ofNat n, c.isDigit = true := fun _ hc => isDigit_of_mem_ofNat hc
  have taken : (ofNat n).takeWhile Char.isDigit = ofNat n := List.takeWhile_eq_self_iff.mpr digits
  have left : (ofNat n).dropWhile Char.isDigit = [] := List.dropWhile_eq_nil_iff.mpr digits
  have proper : ¬ (ofNat n = [] ∨ (ofNat n).head? = some '0' ∧ ofNat n ≠ ['0']) := by
    rintro (none | ⟨zero, more⟩)
    · exact ofNat_ne_nil n none
    · exact more (head?_ofNat zero)
  unfold afterSign?
  rw [taken, left]
  exact if_neg proper

theorem ofChars?_ofInt (n : Int) : ofChars? (Decimal.ofInt n) = some (ofInt n) := by
  unfold Decimal.ofInt ofInt
  by_cases negative : n < 0
  · rw [if_pos negative, decide_eq_true negative, ofChars?_minus]
    exact afterSign?_ofNat true n.natAbs
  · obtain ⟨c, rest, digits⟩ := List.exists_cons_of_ne_nil (Decimal.ofNat_ne_nil n.natAbs)
    have digit : c.isDigit = true := Decimal.isDigit_of_mem_ofNat (digits ▸ List.mem_cons_self)
    have unsigned : c ≠ '-' := by
      rintro rfl
      exact absurd digit (by decide)
    rw [if_neg negative, decide_eq_false negative, digits, ofChars?_of_ne unsigned, ← digits]
    exact afterSign?_ofNat false n.natAbs

end NumberText

/-! ## Trees of values -/

namespace Number

/-- A number as it is printed. -/
def written (n : Number) : NumberText := (NumberText.ofChars? n.text).getD (.ofInt 0)

/-- A number that is read again from what it is printed as. -/
def Settled (n : Number) : Prop :=
  ∃ t, NumberText.ofChars? n.text = some t ∧ Number.ofText? t = some n

variable {n : Number}

theorem Settled.ofChars?_text (h : n.Settled) : NumberText.ofChars? n.text = some n.written := by
  obtain ⟨t, printed, -⟩ := h
  unfold written
  rw [printed, Option.getD_some]

theorem Settled.ofText?_written (h : n.Settled) : Number.ofText? n.written = some n := by
  obtain ⟨t, printed, read⟩ := h
  unfold written
  rw [printed, Option.getD_some, read]

end Number

namespace Json

mutual

/-- The tree that a value is printed as. -/
def tree : Json → Document
  | .null => .null
  | .bool b => .bool b
  | .number n => .number n.written
  | .string s => .string (some s)
  | .array items => .array (itemTrees items)
  | .object members => .object (memberTrees members)

/-- The trees of a list. -/
def itemTrees : List Json → List Document
  | [] => []
  | item :: rest => tree item :: itemTrees rest

/-- The trees of the members of an object. -/
def memberTrees : List (String × Json) → List (Option String × Document)
  | [] => []
  | (name, value) :: rest => (some name, tree value) :: memberTrees rest

end

theorem itemTrees_eq_map (items : List Json) : itemTrees items = items.map tree := by
  induction items with
  | nil => rfl
  | cons item rest ih => rw [itemTrees, ih, List.map_cons]

theorem memberTrees_eq_map (members : List (String × Json)) :
    memberTrees members = members.map fun m => (some m.1, tree m.2) := by
  induction members with
  | nil => rfl
  | cons m rest ih => rw [memberTrees, ih, List.map_cons]

theorem compactItems_eq_map (items : List Json) : compactItems items = items.map compactChars := by
  induction items with
  | nil => rfl
  | cons item rest ih => rw [compactItems, ih, List.map_cons]

theorem compactMembers_eq_map (members : List (String × Json)) :
    compactMembers members =
      members.map fun m => textChars m.1 ++ ':' :: compactChars m.2 := by
  induction members with
  | nil => rfl
  | cons m rest ih => rw [compactMembers, ih, List.map_cons]

theorem prettyItems_eq_map (depth : Nat) (items : List Json) :
    prettyItems depth items = items.map (prettyChars depth) := by
  induction items with
  | nil => rfl
  | cons item rest ih => rw [prettyItems, ih, List.map_cons]

theorem prettyMembers_eq_map (depth : Nat) (members : List (String × Json)) :
    prettyMembers depth members =
      members.map fun m => textChars m.1 ++ ':' :: ' ' :: prettyChars depth m.2 := by
  induction members with
  | nil => rfl
  | cons m rest ih => rw [prettyMembers, ih, List.map_cons]

/-- What holds of a list or an object if it holds of all that is in it, and of all other values,
holds of every value. -/
theorem induction {P : Json → Prop} (null : P .null) (bool : ∀ b, P (.bool b))
    (number : ∀ n, P (.number n)) (string : ∀ s, P (.string s))
    (array : ∀ items, (∀ v ∈ items, P v) → P (.array items))
    (object : ∀ members : List (String × Json), (∀ m ∈ members, P m.2) → P (.object members)) :
    ∀ v, P v := by
  intro v
  refine @Json.rec P (fun items => ∀ v ∈ items, P v) (fun members => ∀ m ∈ members, P m.2)
    (fun m => P m.2) null bool number string array object ?_ ?_ ?_ ?_ ?_ v
  · exact fun _ h => nomatch h
  · exact fun item rest first others => List.forall_mem_cons.mpr ⟨first, others⟩
  · exact fun _ h => nomatch h
  · exact fun m rest first others => List.forall_mem_cons.mpr ⟨first, others⟩
  · exact fun _ value h => h

/-- A value all numbers of which are read again from what they are printed as. -/
inductive Settled : Json → Prop where
  /-- The value `null`. -/
  | null : Settled .null
  /-- A truth value. -/
  | bool (b : Bool) : Settled (.bool b)
  /-- A number. -/
  | number {n : Number} (h : n.Settled) : Settled (.number n)
  /-- A text. -/
  | string (s : String) : Settled (.string s)
  /-- A list. -/
  | array {items : List Json} (h : ∀ v ∈ items, Settled v) : Settled (.array items)
  /-- An object. -/
  | object {members : List (String × Json)} (h : ∀ m ∈ members, Settled m.2) :
    Settled (.object members)

namespace Document

/-- Runs of tokens with a comma between them. -/
def commas : List (List Token) → List Token
  | [] => []
  | [part] => part
  | part :: rest => part ++ .comma :: commas rest

mutual

/-- The tokens of a tree. -/
def tokens : Document → List Token
  | .null => [.null]
  | .bool b => [.bool b]
  | .number n => [.number n]
  | .string content => [.string content]
  | .array items => .openArray :: commas (itemTokens items) ++ [.closeArray]
  | .object members => .openObject :: commas (memberTokens members) ++ [.closeObject]

/-- The tokens of the items of a list. -/
def itemTokens : List Document → List (List Token)
  | [] => []
  | item :: rest => tokens item :: itemTokens rest

/-- The tokens of the members of an object. -/
def memberTokens : List (Option String × Document) → List (List Token)
  | [] => []
  | (name, value) :: rest => (.string name :: .colon :: tokens value) :: memberTokens rest

end

theorem itemTokens_eq_map (items : List Document) : itemTokens items = items.map tokens := by
  induction items with
  | nil => rfl
  | cons item rest ih => rw [itemTokens, ih, List.map_cons]

theorem memberTokens_eq_map (members : List (Option String × Document)) :
    memberTokens members =
      members.map fun m => .string m.1 :: .colon :: tokens m.2 := by
  induction members with
  | nil => rfl
  | cons m rest ih => rw [memberTokens, ih, List.map_cons]

end Document

/-! ## Characters that are cut into tokens -/

/-- Whether a character can go on neither with a number nor with a word. -/
def stops (c : Char) : Bool := !inNumber c && !c.isAlpha

/-- Characters that begin with one that stops numbers and words, or are none. -/
def Stopped (chars : List Char) : Prop := ∀ c ∈ chars.head?, stops c = true

/-- Characters that are cut into tokens whatever comes next. -/
def Cuts (chars : List Char) (tokens : List Token) : Prop :=
  ∀ read rest, tokensFrom .between read (chars ++ rest) =
    tokensFrom .between (tokens.reverse ++ read) rest

/-- Characters that are cut into tokens if what comes next stops numbers and words. -/
def Spells (chars : List Char) (tokens : List Token) : Prop :=
  ∀ read rest, Stopped rest → tokensFrom .between read (chars ++ rest) =
    tokensFrom .between (tokens.reverse ++ read) rest

section Cuts

variable {a b : List Char} {s t : List Token} {c : Char}

theorem Cuts.spells (h : Cuts a s) : Spells a s := fun read rest _ => h read rest

theorem cuts_nil : Cuts [] [] := fun _ _ => rfl

theorem Cuts.append (h : Cuts a s) (h' : Cuts b t) : Cuts (a ++ b) (s ++ t) := by
  intro read rest
  rw [List.append_assoc, h, h', List.reverse_append, List.append_assoc]

theorem Cuts.append_spells (h : Cuts a s) (h' : Spells b t) : Spells (a ++ b) (s ++ t) := by
  intro read rest stopped
  rw [List.append_assoc, h, h' _ _ stopped, List.reverse_append, List.append_assoc]

/-- After what stops them, numbers and words are complete. -/
theorem Spells.append (h : Spells a s) (h' : Cuts (c :: b) t) (stop : stops c = true) :
    Cuts (a ++ c :: b) (s ++ t) := by
  intro read rest
  have stopped : Stopped (c :: b ++ rest) := by
    intro first hfirst
    cases hfirst
    exact stop
  rw [List.append_assoc, h _ _ stopped, h', List.reverse_append, List.append_assoc]

/-- A whole text that spells tokens consists of these. -/
theorem Spells.tokens? (h : Spells a s) : tokens? a = some s := by
  have whole := h [] [] fun c hc => nomatch hc
  rw [List.append_nil, List.append_nil] at whole
  unfold Json.tokens?
  rw [whole]
  unfold tokensFrom finish?
  simp

theorem cuts_char {tokens : List Token} (h : start? c = some (tokens, .between)) :
    Cuts [c] tokens := by
  intro read rest
  change tokensFrom .between read (c :: rest) = _
  rw [tokensFrom, show readChar? .between c = start? c from rfl, h]

/-- Blanks at the start of a line are no tokens. -/
theorem cuts_newLine (depth : Nat) : Cuts (newLine depth) [] := by
  have blanks : ∀ n, Cuts (List.replicate n ' ') [] := by
    intro n
    induction n with
    | zero => exact cuts_nil
    | succ n ih => exact (cuts_char (c := ' ') rfl).append ih
  exact (cuts_char (c := '\n') rfl).append (blanks _)

end Cuts

/-! ## Numbers and words -/

theorem tokensFrom_silent {mode next : Mode} {c : Char} (h : readChar? mode c = some ([], next))
    (read : List Token) (rest : List Char) :
    tokensFrom mode read (c :: rest) = tokensFrom next read rest := by
  rw [tokensFrom, h]
  rfl

section Collected

variable {mode : List Char → Mode} {belongs : Char → Bool}

/-- Characters that can belong to what has begun are collected. -/
theorem tokensFrom_collect
    (step : ∀ seen c, belongs c = true → readChar? (mode seen) c = some ([], mode (c :: seen)))
    {chars : List Char} (h : ∀ c ∈ chars, belongs c = true) (seen : List Char)
    (read : List Token) (rest : List Char) :
    tokensFrom (mode seen) read (chars ++ rest) =
      tokensFrom (mode (chars.reverse ++ seen)) read rest := by
  induction chars generalizing seen with
  | nil => rfl
  | cons c chars ih =>
    obtain ⟨first, others⟩ := List.forall_mem_cons.mp h
    rw [List.cons_append, tokensFrom_silent (step seen c first), ih others, List.reverse_cons,
      List.append_assoc, List.singleton_append]

/-- What has been collected is a token once a character comes that does not belong to it. -/
theorem tokensFrom_stopped {m : Mode} {t : Token} (complete : finish? m = some [t])
    (next : ∀ c, stops c = true → readChar? m c = after (some t) (start? c))
    (read : List Token) {rest : List Char} (h : Stopped rest) :
    tokensFrom m read rest = tokensFrom .between (t :: read) rest := by
  cases rest with
  | nil =>
    rw [tokensFrom, tokensFrom, complete]
    simp [finish?]
  | cons c rest =>
    rw [tokensFrom, tokensFrom, next c (h c rfl), show readChar? .between c = start? c from rfl]
    cases start? c with
    | none => rfl
    | some p => simp [after]

theorem spells_collected (mode : List Char → Mode) (belongs : Char → Bool)
    (step : ∀ seen c, belongs c = true → readChar? (mode seen) c = some ([], mode (c :: seen)))
    {c : Char} {chars : List Char} {t : Token} (begins : start? c = some ([], mode [c]))
    (h : ∀ d ∈ chars, belongs d = true)
    (complete : finish? (mode (c :: chars).reverse) = some [t])
    (next : ∀ d, stops d = true →
      readChar? (mode (c :: chars).reverse) d = after (some t) (start? d)) :
    Spells (c :: chars) [t] := by
  intro read rest stopped
  rw [List.cons_append, @tokensFrom_silent .between _ _ begins, tokensFrom_collect step h,
    ← List.reverse_cons, tokensFrom_stopped complete next _ stopped]
  rfl

end Collected

theorem not_inNumber {c : Char} (h : stops c = true) : inNumber c = false := by
  simp only [stops, Bool.and_eq_true, Bool.not_eq_true'] at h
  exact h.1

theorem not_isAlpha {c : Char} (h : stops c = true) : c.isAlpha = false := by
  simp only [stops, Bool.and_eq_true, Bool.not_eq_true'] at h
  exact h.2

theorem spells_word {c : Char} {chars : List Char} {t : Token}
    (begins : start? c = some ([], .word [c])) (letters : chars.all Char.isAlpha = true)
    (word : wordToken? (c :: chars) = some t) : Spells (c :: chars) [t] := by
  have known : wordToken? (c :: chars).reverse.reverse = some t := by
    rw [List.reverse_reverse, word]
  refine spells_collected .word Char.isAlpha ?_ begins (List.all_eq_true.mp letters) ?_ ?_
  · intro seen d letter
    exact if_pos letter
  · rw [finish?, known]
    rfl
  · intro d stop
    rw [readChar?, not_isAlpha stop, known]
    rfl

theorem start?_digit {c : Char} (h : c = '-' ∨ c.isDigit = true) :
    start? c = some ([], .number [c]) := by
  have other : ∀ d : Char, ¬ (d = '-' ∨ d.isDigit = true) → c ≠ d := by
    rintro d none rfl
    exact none h
  have blank : ¬ (c = ' ' ∨ c = '\n' ∨ c = '\t' ∨ c = '\r') := by
    rintro (h | h | h | h)
    all_goals exact other _ (by decide) h
  unfold start?
  rw [if_neg blank, if_neg (other '[' (by decide)), if_neg (other ']' (by decide)),
    if_neg (other '\x7b' (by decide)), if_neg (other '\x7d' (by decide)),
    if_neg (other ',' (by decide)), if_neg (other ':' (by decide)), if_neg (other '"' (by decide)),
    if_pos (h.imp_right id)]

/-- A number is cut into one token. -/
theorem spells_number {chars : List Char} {n : NumberText}
    (number : NumberText.ofChars? chars = some n) : Spells chars [.number n] := by
  obtain ⟨c, rest, rfl, begins, others⟩ := NumberText.ofChars?_chars number
  have known : NumberText.ofChars? (c :: rest).reverse.reverse = some n := by
    rw [List.reverse_reverse, number]
  refine spells_collected .number inNumber ?_ (start?_digit begins) others ?_ ?_
  · intro seen d belongs
    exact if_pos belongs
  · rw [finish?, known]
    rfl
  · intro d stop
    rw [readChar?, not_inNumber stop, known]
    rfl

/-! ## Texts -/

theorem hexValue?_hexDigit {n : Nat} (h : n < 16) : Text.hexValue? (Text.hexDigit n) = some n := by
  have all : ∀ n < 16, Text.hexValue? (Text.hexDigit n) = some n := by decide
  exact all n h

theorem pieceOf_toNat {c : Char} (h : c.toNat < 0x20) : pieceOf c.toNat = .char c := by
  unfold pieceOf
  rw [if_neg (by omega), Char.ofNat_toNat]

theorem readChar?_hex {c : Char} {d : Nat} (h : Text.hexValue? c = some d) (pieces : List Piece)
    (read n : Nat) :
    readChar? (.hex pieces read n) c =
      some ([], if read = 3 then .text (pieceOf (16 * n + d) :: pieces)
        else .hex pieces (read + 1) (16 * n + d)) := by
  rw [readChar?, h, Option.map_some]

/-- Within a text, an escaped character is read as the character. -/
theorem tokensFrom_escapeChar (c : Char) (pieces : List Piece) (read : List Token)
    (rest : List Char) :
    tokensFrom (.text pieces) read (escapeChar c ++ rest) =
      tokensFrom (.text (.char c :: pieces)) read rest := by
  unfold escapeChar
  split_ifs with quote backslash backspace tab line page return_ control
  case pos => subst quote; rfl
  case pos => subst backslash; rfl
  case pos => subst backspace; rfl
  case pos => subst tab; rfl
  case pos => subst line; rfl
  case pos => subst page; rfl
  case pos => subst return_; rfl
  case pos =>
    have high := hexValue?_hexDigit (n := c.toNat / 16) (by omega)
    have low := hexValue?_hexDigit (n := c.toNat % 16) (by omega)
    have number : 16 * (c.toNat / 16) + c.toNat % 16 = c.toNat := by omega
    calc tokensFrom (.text pieces) read
          ('\\' :: 'u' :: '0' :: '0' :: Text.hexDigit (c.toNat / 16) ::
            Text.hexDigit (c.toNat % 16) :: rest)
        = tokensFrom (.hex pieces 2 0) read
            (Text.hexDigit (c.toNat / 16) :: Text.hexDigit (c.toNat % 16) :: rest) := rfl
      _ = tokensFrom (.hex pieces 3 (16 * 0 + c.toNat / 16)) read
            (Text.hexDigit (c.toNat % 16) :: rest) :=
        tokensFrom_silent (readChar?_hex high _ _ _) _ _
      _ = tokensFrom (.text (pieceOf (16 * (16 * 0 + c.toNat / 16) + c.toNat % 16) :: pieces))
            read rest :=
        tokensFrom_silent (readChar?_hex low _ _ _) _ _
      _ = tokensFrom (.text (.char c :: pieces)) read rest := by
        rw [Nat.mul_zero, Nat.zero_add, number, pieceOf_toNat control]
  case neg =>
    refine tokensFrom_silent ?_ _ _
    rw [readChar?, if_neg quote, if_neg backslash, if_neg control]

theorem tokensFrom_escaped (s : List Char) (pieces : List Piece) (read : List Token)
    (rest : List Char) :
    tokensFrom (.text pieces) read (s.flatMap escapeChar ++ rest) =
      tokensFrom (.text ((s.map .char).reverse ++ pieces)) read rest := by
  induction s generalizing pieces with
  | nil => rfl
  | cons c s ih =>
    rw [List.flatMap_cons, List.append_assoc, tokensFrom_escapeChar, ih, List.map_cons,
      List.reverse_cons, List.append_assoc, List.singleton_append]

theorem joinPieces_map_char (s : List Char) : joinPieces (s.map .char) = some s := by
  induction s with
  | nil => rfl
  | cons c s ih => rw [List.map_cons, joinPieces, ih, Option.map_some]

/-- Every text between quotes is cut into one token, which has the text as its content. -/
theorem cuts_textChars (s : String) : Cuts (textChars s) [.string (some s)] := by
  intro read rest
  have content : (joinPieces ((s.toList.map Piece.char).reverse ++ []).reverse).map String.ofList =
      some s := by
    rw [List.append_nil, List.reverse_reverse, joinPieces_map_char, Option.map_some,
      String.ofList_toList]
  have opening : textChars s ++ rest = '"' :: (s.toList.flatMap escapeChar ++ '"' :: rest) := by
    simp [textChars]
  rw [opening, @tokensFrom_silent .between (.text []) _ rfl, tokensFrom_escaped,
    tokensFrom, readChar?, if_pos rfl, content]

/-! ## Lists and objects -/

section Parts

variable {α : Type*} {chars : α → List Char} {tokens : α → List Token} {b : List Char}
  {separator : List Char} {c : Char}

/-- What stands between the parts ends each of them. -/
theorem spells_separated (comma : Cuts (c :: b) [.comma]) (stop : stops c = true) {parts : List α}
    (h : ∀ v ∈ parts, Spells (chars v) (tokens v)) :
    Spells (separated (c :: b) (parts.map chars)) (Document.commas (parts.map tokens)) := by
  induction parts with
  | nil => exact cuts_nil.spells
  | cons v parts ih =>
    obtain ⟨first, others⟩ := List.forall_mem_cons.mp h
    cases parts with
    | nil => exact first
    | cons w parts =>
      have rest := ih others
      simp only [List.map_cons, separated, Document.commas] at rest ⊢
      rw [show tokens v ++ Token.comma :: Document.commas (tokens w :: parts.map tokens) =
        tokens v ++ [Token.comma] ++ Document.commas (tokens w :: parts.map tokens) by simp]
      exact (first.append comma stop).append_spells rest

theorem cuts_bracketed {opening closing : Char} {o e : Token} {inside : List Char}
    {t : List Token} (opens : Cuts [opening] [o]) (closes : Cuts [closing] [e])
    (stop : stops closing = true) (h : Spells inside t) :
    Cuts (opening :: inside ++ [closing]) (o :: t ++ [e]) :=
  opens.append (h.append closes stop)

theorem cuts_block {opening closing : Char} {o e : Token} (opens : Cuts [opening] [o])
    (closes : Cuts [closing] [e]) (depth : Nat) {parts : List α}
    (h : ∀ v ∈ parts, Spells (chars v) (tokens v)) :
    Cuts (block depth opening closing (parts.map chars))
      (o :: Document.commas (parts.map tokens) ++ [e]) := by
  unfold block
  by_cases none : parts = []
  · subst none
    exact opens.append closes
  · have comma : Cuts (',' :: newLine (depth + 1)) [.comma] :=
      (cuts_char (c := ',') rfl).append (cuts_newLine _)
    have inside := spells_separated comma rfl h
    have all := (opens.append (cuts_newLine (depth + 1))).append
      (inside.append ((cuts_newLine depth).append closes) rfl)
    rw [if_neg (by simpa using none)]
    simpa [newLine] using all

end Parts

/-! ## Values -/

theorem spells_null : Spells ['n', 'u', 'l', 'l'] [.null] := spells_word rfl rfl rfl

theorem spells_true : Spells ['t', 'r', 'u', 'e'] [.bool true] := spells_word rfl rfl rfl

theorem spells_false : Spells ['f', 'a', 'l', 's', 'e'] [.bool false] := spells_word rfl rfl rfl

theorem spells_member {value : List Char} {t : List Token} (name : String) (blank : List Char)
    (blanks : Cuts blank []) (h : Spells value t) :
    Spells (textChars name ++ ':' :: (blank ++ value)) (.string (some name) :: .colon :: t) :=
  (cuts_textChars name).append_spells
    ((cuts_char (c := ':') rfl).append_spells (blanks.append_spells h))

/-- A value without blanks is cut into the tokens of its tree. -/
theorem compact_spells {v : Json} (h : v.Settled) : Spells (compactChars v) v.tree.tokens := by
  induction v using Json.induction with
  | null => exact spells_null
  | bool b =>
    cases b
    · exact spells_false
    · exact spells_true
  | number n =>
    cases h with
    | number h => exact spells_number h.ofChars?_text
  | string s => exact (cuts_textChars s).spells
  | array items ih =>
    cases h with
    | array h =>
      rw [compactChars, tree, Document.tokens, compactItems_eq_map, itemTrees_eq_map,
        Document.itemTokens_eq_map, List.map_map]
      refine (cuts_bracketed (cuts_char rfl) (cuts_char rfl) rfl ?_).spells
      exact spells_separated (cuts_char rfl) rfl fun v hv => ih v hv (h v hv)
  | object members ih =>
    cases h with
    | object h =>
      rw [compactChars, tree, Document.tokens, compactMembers_eq_map, memberTrees_eq_map,
        Document.memberTokens_eq_map, List.map_map]
      refine (cuts_bracketed (cuts_char rfl) (cuts_char rfl) rfl ?_).spells
      refine spells_separated (cuts_char rfl) rfl fun m hm => ?_
      exact spells_member m.1 [] cuts_nil (ih m hm (h m hm))

/-- A value over several lines is cut into the tokens of its tree. -/
theorem pretty_spells {v : Json} (h : v.Settled) (depth : Nat) :
    Spells (prettyChars depth v) v.tree.tokens := by
  induction v using Json.induction generalizing depth with
  | null => exact spells_null
  | bool b =>
    cases b
    · exact spells_false
    · exact spells_true
  | number n =>
    cases h with
    | number h => exact spells_number h.ofChars?_text
  | string s => exact (cuts_textChars s).spells
  | array items ih =>
    cases h with
    | array h =>
      rw [prettyChars, tree, Document.tokens, prettyItems_eq_map, itemTrees_eq_map,
        Document.itemTokens_eq_map, List.map_map]
      exact (cuts_block (cuts_char rfl) (cuts_char rfl) depth
        fun v hv => ih v hv (h v hv) (depth + 1)).spells
  | object members ih =>
    cases h with
    | object h =>
      rw [prettyChars, tree, Document.tokens, prettyMembers_eq_map, memberTrees_eq_map,
        Document.memberTokens_eq_map, List.map_map]
      refine (cuts_block (cuts_char rfl) (cuts_char rfl) depth fun m hm => ?_).spells
      exact spells_member m.1 [' '] (cuts_char rfl) (ih m hm (h m hm) (depth + 1))

end Json

end LeaseCatalog
