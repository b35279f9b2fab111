import LeaseCatalog.Proofs.StoredMetadata
import LeaseCatalog.Proofs.Timestamps

/-!
# Printed leases can be read back

What a lease is printed as is the text of a document, and its members give back the lease: the key,
the owner, the instant at which it ends as instants are shown, to the nanosecond, the seconds
between heartbeats and the metadata that was supplied, provided that its numbers are read again from
what they are printed as. A key is also read from its own form.
-/

namespace LeaseCatalog

open Json (Document Canonical)

/-! ## Objects of given members -/

namespace Json

variable {members : List (String × Json)}

/-- What holds of the values of given members holds of the members of their object, which are in
order. -/
theorem ofMembers_induction {P : Json → Prop} (h : ∀ m ∈ members, P m.2) :
    ∃ sorted, ofMembers members = .object sorted ∧ Sorted sorted ∧ ∀ m ∈ sorted, P m.2 := by
  suffices ∀ known, Sorted known → (∀ m ∈ known, P m.2) →
      Sorted (members.foldl (fun known m => insert m.1 m.2 known) known) ∧
        ∀ m ∈ members.foldl (fun known m => insert m.1 m.2 known) known, P m.2 from
    ⟨_, rfl, this [] .nil (List.forall_mem_nil _)⟩
  induction members with
  | nil => exact fun known sorted before => ⟨sorted, before⟩
  | cons first members ih =>
    intro known sorted before
    obtain ⟨value, others⟩ := List.forall_mem_cons.mp h
    refine ih others _ (sorted.insert first.1 first.2) fun m hm => ?_
    rcases mem_insert hm with rfl | earlier
    · exact value
    · exact before m earlier

theorem canonical_ofMembers (h : ∀ m ∈ members, m.2.Canonical) : (ofMembers members).Canonical := by
  obtain ⟨sorted, eq, order, values⟩ := ofMembers_induction h
  rw [eq]
  exact .object order values

theorem within_ofMembers {n : Nat} (h : ∀ m ∈ members, m.2.tree.Within n) :
    (ofMembers members).tree.Within (n + 1) := by
  obtain ⟨sorted, eq, -, values⟩ := ofMembers_induction (P := fun v => v.tree.Within n) h
  rw [eq, tree, memberTrees_eq_map]
  refine .object fun e he => ?_
  obtain ⟨m, hm, rfl⟩ := List.mem_map.mp he
  exact values m hm

end Json

/-! ## Keys -/

namespace Dataset

theorem document_eq (d : Dataset) :
    d.document = .object [("domain", .string d.domain), ("name", .string d.name),
      ("project", .string d.project), ("version", .string d.version)] := by
  simp +decide only [document, Json.ofMembers, Json.insert, List.foldl, reduceIte]

theorem ofDocument?_document (d : Dataset) : ofDocument? d.document.tree = some d := by
  rw [document_eq]
  rfl

theorem canonical_document (d : Dataset) : d.document.Canonical :=
  Json.canonical_ofMembers (by simp [Json.Canonical.string])

theorem within_document (d : Dataset) : d.document.tree.Within 1 :=
  Json.within_ofMembers (by simp [Json.tree, Document.Within.string])

end Dataset

namespace Key

theorem document_eq (k : Key) :
    k.document = .object [("dataset", k.dataset.document), ("tag_name", .string k.tag)] := by
  simp +decide only [document, Json.ofMembers, Json.insert, List.foldl, reduceIte]

/-- A key is read from the document that shows it. -/
theorem ofDocument?_document (k : Key) : ofDocument? k.document.tree = some k := by
  rw [document_eq, Dataset.document_eq]
  rfl

theorem canonical_document (k : Key) : k.document.Canonical :=
  Json.canonical_ofMembers (by simp [Json.Canonical.string, Dataset.canonical_document])

theorem within_document (k : Key) : k.document.tree.Within 2 :=
  Json.within_ofMembers (by
    simp [Json.tree, Document.Within.string, k.dataset.within_document])

end Key

/-! ## The form of keys -/

section Form

open Json (Cuts Spells separated)

theorem toList_quotedText (s : String) : (quotedText s).toList = Json.textChars s :=
  String.toList_ofList

theorem separated_eq_intercalate (separator : List Char) (parts : List (List Char)) :
    separated separator parts = separator.intercalate parts := by
  induction parts with
  | nil => rfl
  | cons part parts ih =>
    cases parts with
    | nil => exact (List.append_nil part).symm
    | cons next parts =>
      rw [separated, ih, List.append_assoc]
      · rfl
      · exact List.cons_ne_nil _ _

theorem toList_inOrder (members : List (String × String)) :
    (inOrder members).toList =
      '\x7b' :: separated [','] (members.map fun m => m.1.toList ++ ':' :: m.2.toList) ++
        ['\x7d'] := by
  unfold inOrder
  rw [String.toList_append, String.toList_append, String.toList_intercalate, List.map_map,
    separated_eq_intercalate]
  simp only [Function.comp_def, String.toList_append, List.append_assoc]
  rfl

/-- Members in the order in which they are given are cut into the tokens of an object. -/
theorem cuts_inOrder {members : List (String × String × Document)}
    (h : ∀ m ∈ members, Spells m.2.1.toList m.2.2.tokens) :
    Cuts (inOrder (members.map fun m => (quotedText m.1, m.2.1))).toList
      (Document.object (members.map fun m => (some m.1, m.2.2))).tokens := by
  rw [toList_inOrder, List.map_map, Document.tokens, Document.memberTokens_eq_map, List.map_map]
  refine Json.cuts_bracketed (Json.cuts_char rfl) (Json.cuts_char rfl) rfl ?_
  refine Json.spells_separated (Json.cuts_char rfl) rfl fun m hm => ?_
  rw [Function.comp_apply, toList_quotedText]
  exact Json.spells_member m.1 [] Json.cuts_nil (h m hm)

theorem spells_quotedText (s : String) :
    Spells (quotedText s).toList (Document.string (some s)).tokens := by
  rw [toList_quotedText]
  exact (Json.cuts_textChars s).spells

/-- The tree of a dataset in the form of a key. -/
def Dataset.formTree (d : Dataset) : Document :=
  .object [(some "project", .string (some d.project)), (some "domain", .string (some d.domain)),
    (some "name", .string (some d.name)), (some "version", .string (some d.version))]

/-- The tree of the form of a key. -/
def Key.formTree (k : Key) : Document :=
  .object [(some "dataset", k.dataset.formTree), (some "tag_name", .string (some k.tag))]

theorem Key.ofDocument?_formTree (k : Key) : Key.ofDocument? k.formTree = some k := rfl

theorem Key.within_formTree (k : Key) : k.formTree.Within 2 := by
  refine .object ?_
  simp only [List.forall_mem_cons]
  refine ⟨.object ?_, .string _, nofun⟩
  simp only [List.forall_mem_cons]
  exact ⟨.string _, .string _, .string _, .string _, nofun⟩

theorem Key.cuts_form (k : Key) : Cuts k.form.toList k.formTree.tokens := by
  have dataset := @cuts_inOrder
    [("project", quotedText k.dataset.project, .string (some k.dataset.project)),
      ("domain", quotedText k.dataset.domain, .string (some k.dataset.domain)),
      ("name", quotedText k.dataset.name, .string (some k.dataset.name)),
      ("version", quotedText k.dataset.version, .string (some k.dataset.version))]
    (by simp [spells_quotedText])
  exact @cuts_inOrder [("dataset", _, k.dataset.formTree),
    ("tag_name", quotedText k.tag, .string (some k.tag))]
    (by simp only [List.forall_mem_cons]; exact ⟨dataset.spells, spells_quotedText _, nofun⟩)

/-- A key is read from its form. -/
theorem Key.ofText?_form (k : Key) : Key.ofText? k.form = some k := by
  have length : 2 ≤ k.form.length := by
    rw [← String.length_toList, Key.form, toList_inOrder]
    simp
  unfold Key.ofText?
  rw [Document.read?_of_spells k.cuts_form.spells (k.within_formTree.mono length)]
  exact k.ofDocument?_formTree

end Form

/-! ## Leases -/

namespace Metadata

/-- Metadata, and the value that it was supplied as: nothing at all, or a text whose numbers are
read again from what they are printed as and which leaves room for the object around it. -/
inductive Supplied : Metadata → Json → Prop where
  /-- Nothing was supplied. -/
  | absent : Supplied none .null
  /-- A text was supplied. -/
  | text {text : String} {d : Document} {bytes : ByteArray} {v : Json}
    (accepted : ofArgument (some text) = .ok (some bytes))
    (tree : Document.read? Json.maxNesting text.toList = some d) (within : d.Within 126)
    (value : Json.read? text = some v) (settled : v.Settled) : Supplied (some bytes) v

variable {m : Metadata} {v : Json}

theorem Supplied.canonical (h : Supplied m v) : v.Canonical ∧ v.tree.Within 126 := by
  cases h with
  | absent => exact ⟨.null, .null⟩
  | text accepted tree within value settled =>
    unfold Json.read? at value
    rw [tree, Option.bind_some] at value
    exact ⟨Document.canonical_of_value? value settled, within.tree value⟩

theorem Supplied.document_eq (h : Supplied m v) : m.document = v := by
  obtain ⟨canonical, within⟩ := h.canonical
  cases h with
  | absent => rfl
  | text accepted _ _ value _ =>
    obtain ⟨w, read, rfl⟩ := exists_of_accepted accepted
    rw [value] at read
    cases read
    exact document_toUTF8 (Json.read?_compact canonical (within.mono (by decide)))

/-- A text in which all numbers are whole and fit can be supplied. -/
theorem Given.supplied {text : String} {d : Document} {bytes : ByteArray}
    (h : Given text d bytes) (within : d.Within 126) (value : Json.read? text = some v) :
    Supplied (some bytes) v := by
  obtain ⟨w, value', read, -⟩ := h.exists_value
  rw [value] at read
  cases read
  exact .text h.accepted h.tree within value (h.plain.settled value')

end Metadata

namespace Lease

/-- A lease in a document, with any number of seconds between two heartbeats. -/
def documentAt (l : Lease) (seconds : Int) : Json :=
  .ofMembers [("key", l.key.document), ("owner_id", .string l.owner),
    ("expires_at", .string (Timestamp.document l.expiresAt)),
    ("heartbeat_interval_secs", .number (.int seconds)),
    ("metadata", Metadata.document l.metadata)]

theorem document_eq (l : Lease) : l.document = l.documentAt l.heartbeatSeconds := rfl

/-- The members of a value give back a lease, with the seconds between two heartbeats and the
metadata that was supplied. -/
structure ReadFrom (l : Lease) (seconds : Int) (supplied v : Json) : Prop where
  /-- The key is read from its member. -/
  key : ∃ part, v.member? "key" = some part ∧ Key.ofDocument? part.tree = some l.key
  /-- The owner stands in its member. -/
  owner : v.member? "owner_id" = some (.string l.owner)
  /-- The end of the lease is read from its member as it is shown, to the nanosecond. -/
  expiresAt : ∃ s, v.member? "expires_at" = some (.string s) ∧
    Timestamp.decode s = .ok l.expiresAt.shown
  /-- The seconds between two heartbeats stand in their member. -/
  heartbeat : v.member? "heartbeat_interval_secs" = some (.number (.int seconds))
  /-- The metadata stands in its member. -/
  metadata : v.member? "metadata" = some supplied

variable {l : Lease} {seconds : Int} {supplied : Json}

theorem canonical_documentAt (metadata : l.metadata.document.Canonical)
    (fits : Number.Fits seconds) : (l.documentAt seconds).Canonical := by
  refine Json.canonical_ofMembers ?_
  simp only [List.forall_mem_cons]
  exact ⟨l.key.canonical_document, .string _, .string _, .number (Number.settled_int fits),
    metadata, nofun⟩

theorem within_documentAt (metadata : l.metadata.document.tree.Within 126) (seconds : Int) :
    (l.documentAt seconds).tree.Within Json.maxNesting := by
  refine Json.within_ofMembers (n := 126) ?_
  simp only [List.forall_mem_cons]
  exact ⟨l.key.within_document.mono (by decide), .string _, .string _, .number _, metadata, nofun⟩

theorem readFrom_documentAt (storable : l.expiresAt.Storable) :
    l.ReadFrom seconds l.metadata.document (l.documentAt seconds) := by
  unfold documentAt
  simp +decide only [Json.ofMembers, Json.insert, List.foldl, reduceIte]
  exact ⟨⟨_, rfl, l.key.ofDocument?_document⟩, rfl, ⟨_, rfl, Timestamp.decode_document storable⟩,
    rfl, rfl⟩

/-- A printed lease is read back with the metadata that is shown for it. -/
theorem exists_readFrom (storable : l.expiresAt.Storable) (fits : Number.Fits seconds)
    (canonical : l.metadata.document.Canonical) (within : l.metadata.document.tree.Within 126) :
    ∃ v, Json.read? (l.documentAt seconds).pretty = some v ∧
      l.ReadFrom seconds l.metadata.document v :=
  ⟨_, Json.read?_pretty (canonical_documentAt canonical fits) (within_documentAt within seconds),
    readFrom_documentAt storable⟩

/-- A printed lease is read back, member by member, and so is the form of its key. The end of the
lease is read back as it is shown. Metadata is read back if its numbers are read again from what
they are printed as, and all that are written without a fraction or an exponent and fit are. -/
theorem printed_lease_read_back (storable : l.expiresAt.Storable) (fits : Number.Fits seconds)
    (h : Metadata.Supplied l.metadata supplied) :
    (∃ v, Json.read? (l.documentAt seconds).pretty = some v ∧ l.ReadFrom seconds supplied v) ∧
      l.document = l.documentAt l.heartbeatSeconds ∧ Key.ofText? l.key.form = some l.key ∧
      ∀ t : NumberText, t.fraction = [] → t.exponent = none → Number.Fits t.integer →
        ∃ n, Number.ofText? t = some n ∧ n.Settled := by
  have shown := h.document_eq
  obtain ⟨canonical, within⟩ := h.canonical
  rw [← shown] at canonical within ⊢
  exact ⟨exists_readFrom storable fits canonical within, l.document_eq, l.key.ofText?_form,
    fun _ => NumberText.exists_settled⟩

/-- A lease of names that must be escaped, which ends within a leap second. -/
def untilNewYear : Lease :=
  ⟨⟨⟨"a\"b", "c\\d", "\n", "é😀"⟩, "t/1:2"⟩, "\x01",
    ⟨1483228799, 1000000001, by decide, by decide, by decide⟩, 5,
    some "\x7b\"retry\":2\x7d".toUTF8⟩

theorem supplied_untilNewYear :
    Metadata.Supplied untilNewYear.metadata (.object [("retry", .number (.int 2))]) := by
  have two : (⟨false, ['2'], [], none⟩ : NumberText).Plain :=
    ⟨rfl, rfl, ⟨by decide, by decide⟩, by decide⟩
  have given : Metadata.Given "\x7b \"retry\": 2 \x7d"
      (.object [(some "retry", .number ⟨false, ['2'], [], none⟩)])
      "\x7b\"retry\":2\x7d".toUTF8 :=
    ⟨by decide +kernel, rfl, .object (by simpa using .number two)⟩
  obtain ⟨v, value, read, -⟩ := given.exists_value
  refine given.supplied (.object (by simpa using .number _)) (read.trans ?_)
  rw [← value]
  simp only [Document.value?, Document.memberValues?, two.ofText?, Option.map_some]
  rfl

theorem untilNewYear_read_back :
    (∃ v, Json.read? (untilNewYear.documentAt 5).pretty = some v ∧
      untilNewYear.ReadFrom 5 (.object [("retry", .number (.int 2))]) v) ∧
      untilNewYear.document = untilNewYear.documentAt untilNewYear.heartbeatSeconds ∧
      Key.ofText? untilNewYear.key.form = some untilNewYear.key ∧
      ∀ t : NumberText, t.fraction = [] → t.exponent = none → Number.Fits t.integer →
        ∃ n, Number.ofText? t = some n ∧ n.Settled :=
  printed_lease_read_back (by decide) ⟨by decide, by decide⟩ supplied_untilNewYear

/-- The lease that ends within a leap second that no minute ends with. -/
def untilStrayLeap : Lease := { untilNewYear with expiresAt := .strayLeap }

/-- A whole number of 24 digits. -/
def manyDigits : String := "300000000000000000000000"

/-- Its value, a double. -/
def nearManyDigits : Number := .double ⟨false, 8940696716308594, 25⟩

/-- What is read from the form in which that double is stored: the double before it. -/
def belowManyDigits : Number := .double ⟨false, 8940696716308593, 25⟩

/-- The lease with such a number as its metadata. -/
def withManyDigits : Lease := { untilNewYear with metadata := some "3e+23".toUTF8 }

theorem read?_manyDigits : Json.read? manyDigits = some (.number nearManyDigits) := by
  have tree : Document.read? Json.maxNesting manyDigits.toList =
      some (.number ⟨false, manyDigits.toList, [], none⟩) := rfl
  have value : Number.ofText? ⟨false, manyDigits.toList, [], none⟩ = some nearManyDigits := by
    decide +kernel
  unfold Json.read?
  rw [tree, Option.bind_some, Document.value?, value, Option.map_some]

theorem shown_withManyDigits : withManyDigits.metadata.document = .number belowManyDigits := by
  refine Metadata.document_toUTF8 ?_
  have tree : Document.read? Json.maxNesting "3e+23".toList =
      some (.number ⟨false, ['3'], [], some (false, ['2', '3'])⟩) := rfl
  have value : Number.ofText? ⟨false, ['3'], [], some (false, ['2', '3'])⟩ =
      some belowManyDigits := by decide +kernel
  unfold Json.read?
  rw [tree, Option.bind_some, Document.value?, value, Option.map_some]

theorem settled_belowManyDigits : belowManyDigits.Settled :=
  ⟨⟨false, ['2'], "9999999999999997".toList, some (false, ['2', '3'])⟩, by decide +kernel,
    by decide +kernel⟩

/-- A leap second within a minute is read back as the second that comes next, and a whole number
that is too large is stored as a double and read back as another one. -/
theorem printed_lease_read_as_another :
    (∃ v s, Json.read? untilStrayLeap.document.pretty = some v ∧
      v.member? "expires_at" = some (.string s) ∧
      Timestamp.decode s ≠ .ok untilStrayLeap.expiresAt) ∧
    Metadata.ofArgument (some manyDigits) = .ok withManyDigits.metadata ∧
    ∃ v, Json.read? withManyDigits.document.pretty = some v ∧
      v.member? "metadata" ≠ Json.read? manyDigits := by
  have fits : Number.Fits 5 := ⟨by decide, by decide⟩
  refine ⟨?_, by decide +kernel, ?_⟩
  · have shown : untilStrayLeap.metadata.document = _ := supplied_untilNewYear.document_eq
    obtain ⟨canonical, within⟩ := supplied_untilNewYear.canonical
    rw [← shown] at canonical within
    obtain ⟨v, read, whole⟩ := exists_readFrom (by decide) fits canonical within
    obtain ⟨s, member, decoded⟩ := whole.expiresAt
    refine ⟨v, s, read, member, ?_⟩
    rw [decoded]
    decide
  · have canonical : withManyDigits.metadata.document.Canonical := by
      rw [shown_withManyDigits]
      exact .number settled_belowManyDigits
    have within : withManyDigits.metadata.document.tree.Within 126 := by
      rw [shown_withManyDigits]
      exact .number _
    obtain ⟨v, read, whole⟩ := exists_readFrom (by decide) fits canonical within
    have other : belowManyDigits ≠ nearManyDigits := by decide
    refine ⟨v, read, ?_⟩
    rw [whole.metadata, shown_withManyDigits, read?_manyDigits]
    exact fun same => other (Json.number.inj (Option.some.inj same))

end Lease

end LeaseCatalog
