import LeaseCatalog.Command.Document
import LeaseCatalog.Proofs.AlikeTrees

/-!
# Metadata is stored in one form for each value

The text of a document that is given as metadata is stored in the compact form of its value. If all
numbers of the text are whole and fit, the stored bytes denote that value and are shown as it, and
texts are stored as the same bytes exactly if they denote the same value. So the stored form is
given back unchanged when it is itself stored.

A number with a fraction or an exponent is a double, and reading the digits of a double need not
give it back; nothing is said here of texts with such numbers.
-/

namespace LeaseCatalog.Metadata

open Json (Document)

/-- A text that is accepted as metadata, its tree, in which every number is whole and fits, and the
bytes that are stored for it. -/
structure Given (text : String) (d : Document) (bytes : ByteArray) : Prop where
  /-- The text is accepted, and these bytes are stored. -/
  accepted : ofArgument (some text) = .ok (some bytes)
  /-- This is its tree. -/
  tree : Document.read? Json.maxNesting text.toList = some d
  /-- Its numbers are whole and fit. -/
  plain : d.Plain

/-- Bytes that are kept for a value and for no other. -/
structure Keeps (bytes : ByteArray) (v : Json) : Prop where
  /-- They are a text that denotes the value and is stored as the same bytes again. -/
  denotes : ∃ text, String.fromUTF8? bytes = some text ∧ Json.read? text = some v ∧
    ofArgument (some text) = .ok (some bytes)
  /-- The value is shown for them. -/
  shown : document (some bytes) = v

variable {text : String} {d : Document} {bytes : ByteArray} {v : Json}

theorem ofArgument_some (h : Json.read? text = some v) :
    ofArgument (some text) = .ok (some v.compact.toUTF8) := by
  have stored : ofText text = .ok v.compact.toUTF8 := by
    unfold ofText
    rw [h]
  unfold ofArgument
  dsimp only
  rw [stored]

theorem exists_of_accepted (h : ofArgument (some text) = .ok (some bytes)) :
    ∃ v, Json.read? text = some v ∧ bytes = v.compact.toUTF8 := by
  cases read : Json.read? text with
  | none =>
    have refused : ofText text = .error .metadataNotJson := by
      unfold ofText
      rw [read]
    unfold ofArgument at h
    dsimp only at h
    rw [refused] at h
    cases h
  | some v =>
    rw [ofArgument_some read] at h
    cases h
    exact ⟨v, rfl, rfl⟩

/-- The value of a text is shown for the bytes of the text. -/
theorem document_toUTF8 (read : Json.read? text = some v) : document (some text.toUTF8) = v := by
  unfold document shown
  dsimp only
  rw [Text.Utf8.fromUTF8?_toUTF8, Option.bind_some, read]

/-- The compact form of the value of a given text is read as the value. -/
theorem Given.read?_compact (h : Given text d bytes) (value : d.value? = some v) :
    Json.read? v.compact = some v := by
  have canonical : v.Canonical := Document.canonical_of_value? value (h.plain.settled value)
  exact Json.read?_compact canonical ((Document.read?_within h.tree).tree value)

/-- What is stored for a given text. -/
theorem Given.exists_value (h : Given text d bytes) :
    ∃ v, d.value? = some v ∧ Json.read? text = some v ∧ bytes = v.compact.toUTF8 := by
  obtain ⟨v, read, stored⟩ := exists_of_accepted h.accepted
  have value : d.value? = some v := by
    unfold Json.read? at read
    rw [h.tree] at read
    exact read
  exact ⟨v, value, read, stored⟩

theorem Given.keeps (h : Given text d bytes) (value : d.value? = some v)
    (stored : bytes = v.compact.toUTF8) : Keeps bytes v := by
  subst stored
  have read := h.read?_compact value
  exact ⟨⟨v.compact, Text.Utf8.fromUTF8?_toUTF8 _, read, ofArgument_some read⟩,
    document_toUTF8 read⟩

/-- Bytes are kept for one value. -/
theorem Keeps.unique {w : Json} (h : Keeps bytes v) (h' : Keeps bytes w) : v = w :=
  h.shown.symm.trans h'.shown

/-- For every given text its value is kept, and the same bytes are stored for another exactly if
both denote the same value. -/
theorem given_texts_keep_their_values (h : Given text d bytes) :
    (∃ v, Json.read? text = some v ∧ Keeps bytes v) ∧
      ∀ other e bytes', Given other e bytes' →
        (bytes' = bytes ↔ d.Alike e) ∧ (bytes' = bytes ↔ Json.read? other = Json.read? text) := by
  obtain ⟨v, value, read, stored⟩ := h.exists_value
  have kept := h.keeps value stored
  refine ⟨⟨v, read, kept⟩, fun other e bytes' h' => ?_⟩
  obtain ⟨w, value', read', stored'⟩ := h'.exists_value
  have same : bytes' = bytes ↔ v = w := by
    constructor
    · intro eq
      exact kept.unique (eq ▸ h'.keeps value' stored')
    · rintro rfl
      rw [stored, stored']
  refine ⟨same.trans (Document.alike_iff_value_eq h.plain h'.plain value value').symm, ?_⟩
  rw [same, read, read', Option.some.injEq]
  exact eq_comm

/-- An object with a name that is written twice. -/
def repeated : String :=
  "\x7b \"b\": [1], \"a\": \"\\ud83d\\ude00\", \"b\": -9223372036854775808 \x7d"

/-- The object with that name once. -/
def written : String := "\x7b\"a\":\"😀\",\"b\":-9223372036854775808\x7d"

/-- The smallest whole number that fits, as it is written. -/
def smallest : Document := .number ⟨true, "9223372036854775808".toList, [], none⟩

/-- The tree in which the name is repeated. -/
def repeatedTree : Document :=
  .object [(some "b", .array [.number ⟨false, ['1'], [], none⟩]), (some "a", .string (some "😀")),
    (some "b", smallest)]

/-- The tree in which it is not. -/
def writtenTree : Document := .object [(some "a", .string (some "😀")), (some "b", smallest)]

theorem plain_smallest : smallest.Plain :=
  .number ⟨rfl, rfl, ⟨by decide +kernel, by decide +kernel⟩, by decide +kernel⟩

/-- Of a name that is written twice the last member is kept, and nothing of the first is stored. -/
theorem repeated_name_kept_once :
    ∃ v, Given repeated repeatedTree written.toUTF8 ∧ Given written writtenTree written.toUTF8 ∧
      repeatedTree.Alike writtenTree ∧ Json.read? repeated = some v ∧ Keeps written.toUTF8 v := by
  have one : (Document.number ⟨false, ['1'], [], none⟩).Plain :=
    .number ⟨rfl, rfl, ⟨by decide, by decide⟩, by decide⟩
  have plain : repeatedTree.Plain := by
    refine .object ?_
    simp only [List.forall_mem_cons]
    exact ⟨.array (by simpa using one), .string _, plain_smallest, nofun⟩
  have plain' : writtenTree.Plain := by
    refine .object ?_
    simp only [List.forall_mem_cons]
    exact ⟨.string _, plain_smallest, nofun⟩
  have given : Given repeated repeatedTree written.toUTF8 := ⟨by decide +kernel, rfl, plain⟩
  have given' : Given written writtenTree written.toUTF8 := ⟨by decide +kernel, rfl, plain'⟩
  obtain ⟨⟨v, read, kept⟩, others⟩ := given_texts_keep_their_values given
  exact ⟨v, given, given', (others _ _ _ given').1.mp rfl, read, kept⟩

end LeaseCatalog.Metadata
