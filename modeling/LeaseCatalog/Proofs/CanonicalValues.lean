import LeaseCatalog.Proofs.ReadTrees
import Mathlib.Data.String.Basic

/-!
# The values of trees

A tree has a value, and a value has a tree (`Json.tree`). For values whose numbers are read again
from what they are printed as, and whose objects have their members in order (`Canonical`), the tree
leads back to the value (`Document.value?_tree`). The objects of the value of a tree are in order
(`Document.canonical_of_value?`), and all whole numbers that fit are read again, minus zero among
them (`NumberText.exists_settled`), so these are the values of the trees in which every number is
written as a whole number that fits (`Document.Plain.settled`).
-/

namespace LeaseCatalog

/-! ## Whole numbers that fit -/

namespace Decimal

theorem le_foldl (digits : List Char) (n : Nat) :
    n ≤ digits.foldl (fun n c => 10 * n + digitValue c) n := by
  induction digits generalizing n with
  | nil => exact Nat.le_refl n
  | cons c digits ih => exact Nat.le_trans (by omega) (ih (10 * n + digitValue c))

end Decimal

namespace Number

/-- The whole numbers that are kept exactly. -/
def Fits (n : Int) : Prop := -9223372036854775808 ≤ n ∧ n ≤ maxWhole

/-- All digits of a number that fits are collected. -/
theorem collect_of_le {n : Nat} {digits : List Char}
    (h : digits.foldl (fun n c => 10 * n + Decimal.digitValue c) n ≤ maxWhole) :
    collect n digits = (digits.foldl (fun n c => 10 * n + Decimal.digitValue c) n, []) := by
  induction digits generalizing n with
  | nil => rfl
  | cons c digits ih =>
    have next := Decimal.le_foldl digits (10 * n + Decimal.digitValue c)
    rw [List.foldl_cons] at h ⊢
    rw [collect, if_neg (by omega), ih h]

end Number

namespace NumberText

/-- The whole number that is written before the point. -/
def integer (t : NumberText) : Int :=
  if t.negative then -(Decimal.value t.whole : Int) else Decimal.value t.whole

/-- A number is written without a fraction or an exponent and is a whole number that fits. Minus
zero is none. -/
structure Plain (t : NumberText) : Prop where
  /-- There is no fraction. -/
  fraction : t.fraction = []
  /-- There is no exponent. -/
  exponent : t.exponent = none
  /-- It fits. -/
  fits : Number.Fits t.integer
  /-- A minus sign does not stand before zero. -/
  signed : t.negative = true → t.integer ≠ 0

/-- Such a number has itself as its value. -/
theorem Plain.ofText? {t : NumberText} (h : t.Plain) :
    Number.ofText? t = some (.int t.integer) := by
  obtain ⟨negative, whole, fraction, exponent⟩ := t
  obtain ⟨rfl, rfl, fits, signed⟩ := h
  cases negative with
  | false =>
    have fits : Number.Fits (Decimal.value whole) := fits
    have small : Decimal.value whole ≤ Number.maxWhole := Int.ofNat_le.mp fits.2
    have collected : Number.collect 0 whole = (Decimal.value whole, []) :=
      Number.collect_of_le small
    unfold Number.ofText?
    rw [collected]
    rfl
  | true =>
    have fits : Number.Fits (-(Decimal.value whole : Int)) := fits
    have signed : -(Decimal.value whole : Int) ≠ 0 := signed rfl
    have bound : 0 < Decimal.value whole ∧ Decimal.value whole ≤ 9223372036854775808 := by
      have := fits.1
      omega
    have small : Decimal.value whole ≤ Number.maxWhole := Nat.le_trans bound.2 (by decide)
    have collected : Number.collect 0 whole = (Decimal.value whole, []) :=
      Number.collect_of_le small
    unfold Number.ofText?
    rw [collected]
    exact if_pos bound

theorem integer_ofInt (n : Int) : (ofInt n).integer = n := by
  unfold integer ofInt
  rw [Decimal.value_ofNat]
  by_cases negative : n < 0
  · rw [if_pos (by simpa using negative)]
    omega
  · rw [if_neg (by simpa using negative)]
    omega

theorem plain_ofInt {n : Int} (h : Number.Fits n) : (ofInt n).Plain := by
  refine ⟨rfl, rfl, ?_, ?_⟩
  · rw [integer_ofInt]
    exact h
  · intro negative
    rw [integer_ofInt]
    have : n < 0 := of_decide_eq_true negative
    omega

end NumberText

namespace Number

theorem settled_int {n : Int} (h : Fits n) : (int n).Settled :=
  ⟨_, NumberText.ofChars?_ofInt n,
    (NumberText.plain_ofInt h).ofText?.trans (by rw [NumberText.integer_ofInt])⟩

/-- Minus zero, which is a double. -/
def minusZero : Number := .double ⟨true, 0, Binary64.minExponent⟩

theorem settled_minusZero : minusZero.Settled :=
  ⟨⟨true, ['0'], ['0'], none⟩, by decide +kernel, by decide +kernel⟩

end Number

namespace NumberText

theorem ofText?_minusZero {whole : List Char} (h : Decimal.value whole = 0) :
    Number.ofText? ⟨true, whole, [], none⟩ = some .minusZero := by
  have collected : Number.collect 0 whole = (Decimal.value whole, []) :=
    Number.collect_of_le (h.trans_le (Nat.zero_le _))
  have zero : Number.double? true 0 0 = some .minusZero := by decide +kernel
  unfold Number.ofText?
  rw [collected, h]
  exact zero

/-- What is written without a fraction or an exponent and fits is a number that is read again. -/
theorem exists_settled {t : NumberText} (fraction : t.fraction = []) (exponent : t.exponent = none)
    (fits : Number.Fits t.integer) : ∃ n, Number.ofText? t = some n ∧ n.Settled := by
  by_cases signed : t.negative = true → t.integer ≠ 0
  · have plain : t.Plain := ⟨fraction, exponent, fits, signed⟩
    exact ⟨_, plain.ofText?, Number.settled_int fits⟩
  · push Not at signed
    obtain ⟨negative, whole, _, _⟩ := t
    obtain ⟨rfl, zero⟩ := signed
    cases fraction
    cases exponent
    have zero : -(Decimal.value whole : Int) = 0 := zero
    exact ⟨_, ofText?_minusZero (by omega), Number.settled_minusZero⟩

end NumberText

/-! ## Members of objects -/

namespace Json

variable {name other : String} {v w : Json} {members known : List (String × Json)}

/-- The members of an object are in the order of their names, each name once. -/
def Sorted (members : List (String × Json)) : Prop := members.Pairwise (·.1 < ·.1)

theorem mem_insert {m : String × Json} (h : m ∈ insert name v members) :
    m = (name, v) ∨ m ∈ members := by
  induction members with
  | nil => exact .inl (List.mem_singleton.mp h)
  | cons first rest ih =>
    obtain ⟨other, w⟩ := first
    unfold insert at h
    split_ifs at h
    · exact (List.mem_cons.mp h).imp_right (List.mem_cons_of_mem _)
    · exact List.mem_cons.mp h
    · rcases List.mem_cons.mp h with rfl | later
      · exact .inr List.mem_cons_self
      · exact (ih later).imp_right (List.mem_cons_of_mem _)

/-- A member is put where it belongs. -/
theorem Sorted.insert (h : Sorted members) (name : String) (v : Json) :
    Sorted (insert name v members) := by
  induction members with
  | nil => exact List.pairwise_singleton _ _
  | cons first rest ih =>
    obtain ⟨other, w⟩ := first
    obtain ⟨before, sorted⟩ := List.pairwise_cons.mp h
    unfold Json.insert
    split_ifs with same smaller
    · subst same
      exact List.pairwise_cons.mpr ⟨before, sorted⟩
    · refine List.pairwise_cons.mpr ⟨fun m hm => ?_, h⟩
      rcases List.mem_cons.mp hm with rfl | later
      · exact smaller
      · exact lt_trans smaller (before m later)
    · have larger : other < name := lt_of_le_of_ne (not_lt.mp smaller) (Ne.symm same)
      refine List.pairwise_cons.mpr ⟨fun m hm => ?_, ih sorted⟩
      rcases mem_insert hm with rfl | later
      · exact larger
      · exact before m later

/-- A member whose name is larger than all others is put at the end. -/
theorem insert_of_lt (h : ∀ m ∈ members, m.1 < name) (v : Json) :
    insert name v members = members ++ [(name, v)] := by
  induction members with
  | nil => rfl
  | cons first rest ih =>
    obtain ⟨smaller, others⟩ := List.forall_mem_cons.mp h
    rw [insert, if_neg (ne_of_gt smaller), if_neg (lt_asymm smaller), ih others, List.cons_append]

theorem member?_cons (name : String) (m : String × Json) (members : List (String × Json)) :
    member? name (.object (m :: members)) =
      if m.1 = name then some m.2 else member? name (.object members) := by
  unfold member?
  by_cases same : m.1 = name
  · simp [same]
  · simp [same]

/-- The member that was put in is found under its name, and under other names what was there. -/
theorem member?_insert (name other : String) (v : Json) (members : List (String × Json)) :
    member? other (.object (insert name v members)) =
      if name = other then some v else member? other (.object members) := by
  induction members with
  | nil => exact member?_cons other (name, v) []
  | cons first rest ih =>
    obtain ⟨present, w⟩ := first
    by_cases found : name = other
    · subst found
      rw [if_pos rfl] at ih ⊢
      unfold insert
      split_ifs with same smaller
      · rw [member?_cons, if_pos rfl]
      · rw [member?_cons, if_pos rfl]
      · rw [member?_cons, if_neg (Ne.symm same), ih]
    · rw [if_neg found] at ih ⊢
      unfold insert
      split_ifs with same smaller
      · subst same
        rw [member?_cons, member?_cons, if_neg found, if_neg found]
      · rw [member?_cons, if_neg found]
      · rw [member?_cons, member?_cons, ih]

theorem member?_eq_some_iff (h : Sorted members) :
    member? name (.object members) = some v ↔ (name, v) ∈ members := by
  induction members with
  | nil => exact ⟨nofun, nofun⟩
  | cons first rest ih =>
    obtain ⟨other, w⟩ := first
    obtain ⟨before, sorted⟩ := List.pairwise_cons.mp h
    rw [member?_cons, List.mem_cons, Prod.mk.injEq]
    by_cases same : other = name
    · subst same
      rw [if_pos rfl, Option.some.injEq]
      refine ⟨fun eq => .inl ⟨rfl, eq.symm⟩, ?_⟩
      rintro (⟨-, eq⟩ | later)
      · exact eq.symm
      · exact absurd (before _ later) (lt_irrefl _)
    · rw [if_neg same, ih sorted]
      exact ⟨.inr, fun either => either.resolve_left fun eq => same eq.1.symm⟩

/-- Sorted members in which the same is found under every name are the same. -/
theorem Sorted.eq_of_member? {others : List (String × Json)} (h : Sorted members)
    (h' : Sorted others)
    (same : ∀ name, member? name (.object members) = member? name (.object others)) :
    members = others := by
  have distinct {l : List (String × Json)} (sorted : Sorted l) : l.Nodup :=
    sorted.imp fun less eq => absurd (eq ▸ less) (lt_irrefl _)
  have perm : members.Perm others := by
    refine (List.perm_ext_iff_of_nodup (distinct h) (distinct h')).mpr fun m => ?_
    rw [← member?_eq_some_iff h, ← member?_eq_some_iff h', same]
  exact perm.eq_of_pairwise
    (fun a b _ _ less more => absurd (lt_trans less more) (lt_irrefl _)) h h'

/-! ## Values with trees that lead back -/

/-- A value all numbers of which are read again from what they are printed as, and all objects of
which have their members in order. -/
inductive Canonical : Json → Prop where
  /-- The value `null`. -/
  | null : Canonical .null
  /-- A truth value. -/
  | bool (b : Bool) : Canonical (.bool b)
  /-- A number. -/
  | number {n : Number} (h : n.Settled) : Canonical (.number n)
  /-- A text. -/
  | string (s : String) : Canonical (.string s)
  /-- A list. -/
  | array {items : List Json} (h : ∀ v ∈ items, Canonical v) : Canonical (.array items)
  /-- An object. -/
  | object {members : List (String × Json)} (sorted : Sorted members)
    (h : ∀ m ∈ members, Canonical m.2) : Canonical (.object members)

theorem Canonical.settled {v : Json} (h : v.Canonical) : v.Settled := by
  induction h with
  | null => exact .null
  | bool b => exact .bool b
  | number h => exact .number h
  | string s => exact .string s
  | array _ ih => exact .array ih
  | object _ _ ih => exact .object ih

namespace Document

theorem value?_eq_null {d : Document} : d.value? = some .null ↔ d = .null := by
  cases d <;> simp [value?]

theorem value?_eq_bool {d : Document} {b : Bool} : d.value? = some (.bool b) ↔ d = .bool b := by
  cases d <;> simp [value?]

theorem value?_eq_number {d : Document} {n : Number} :
    d.value? = some (.number n) ↔ ∃ t, d = .number t ∧ Number.ofText? t = some n := by
  cases d <;> simp [value?]

theorem value?_eq_string {d : Document} {s : String} :
    d.value? = some (.string s) ↔ d = .string (some s) := by
  cases d <;> simp [value?]

theorem value?_eq_array {d : Document} {values : List Json} :
    d.value? = some (.array values) ↔
      ∃ items, d = .array items ∧ itemValues? items = some values := by
  cases d <;> simp [value?]

theorem value?_eq_object {d : Document} {values : List (String × Json)} :
    d.value? = some (.object values) ↔
      ∃ members, d = .object members ∧ memberValues? [] members = some values := by
  cases d <;> simp [value?]

/-- The items of a list have values one by one. -/
theorem itemValues?_eq_some_iff {items : List Document} {values : List Json} :
    itemValues? items = some values ↔ List.Forall₂ (fun d v => d.value? = some v) items values := by
  induction items generalizing values with
  | nil =>
    rw [itemValues?, List.forall₂_nil_left_iff, Option.some.injEq]
    exact eq_comm
  | cons d items ih =>
    rw [itemValues?, List.forall₂_cons_left_iff]
    constructor
    · intro h
      split at h
      · cases h
        exact ⟨_, _, ‹_›, ih.mp ‹_›, rfl⟩
      · cases h
    · rintro ⟨v, values, first, others, rfl⟩
      rw [first, ih.mpr others]

theorem length_itemValues? {items : List Document} {values : List Json}
    (h : itemValues? items = some values) : items.length = values.length :=
  (itemValues?_eq_some_iff.mp h).length_eq

theorem getElem?_itemValues? {items : List Document} {values : List Json}
    (h : itemValues? items = some values) (i : Nat) : values[i]? = items[i]?.bind value? := by
  have each := itemValues?_eq_some_iff.mp h
  clear h
  induction each generalizing i with
  | nil => rfl
  | cons first _ ih =>
    cases i with
    | zero => exact first.symm
    | succ i => exact ih i

/-- Every value of a list comes from an item. -/
theorem mem_itemValues? {items : List Document} {values : List Json}
    (h : itemValues? items = some values) (hv : v ∈ values) : ∃ d ∈ items, d.value? = some v := by
  obtain ⟨i, found⟩ := List.mem_iff_getElem?.mp hv
  rw [getElem?_itemValues? h] at found
  obtain ⟨d, hd, value⟩ := Option.bind_eq_some_iff.mp found
  exact ⟨d, List.mem_of_getElem? hd, value⟩

theorem exists_value_of_mem {items : List Document} {values : List Json} {d : Document}
    (h : itemValues? items = some values) (hd : d ∈ items) : ∃ v, d.value? = some v := by
  obtain ⟨i, found⟩ := List.mem_iff_getElem?.mp hd
  have value := getElem?_itemValues? h i
  rw [found, Option.bind_some] at value
  obtain ⟨short, -⟩ := List.getElem?_eq_some_iff.mp found
  rw [length_itemValues? h] at short
  exact ⟨values[i], by rw [← value, List.getElem?_eq_getElem short]⟩

/-- The members of an object are added one by one. -/
theorem memberValues?_cons_eq_some_iff {m : Option String × Document}
    {rest : List (Option String × Document)} :
    memberValues? known (m :: rest) = some members ↔
      ∃ name v, m.1 = some name ∧ m.2.value? = some v ∧
        memberValues? (insert name v known) rest = some members := by
  obtain ⟨name, d⟩ := m
  rw [memberValues?.eq_def]
  dsimp only
  constructor
  · intro h
    split at h
    · rename_i name v value
      exact ⟨name, v, rfl, value, h⟩
    · cases h
  · rintro ⟨name, v, rfl, value, rest⟩
    rw [value]
    exact rest

/-- Members that come in order are added at the end. -/
theorem memberValues?_memberTrees
    (h : Sorted (known ++ members)) (back : ∀ m ∈ members, m.2.tree.value? = some m.2) :
    memberValues? known (memberTrees members) = some (known ++ members) := by
  induction members generalizing known with
  | nil => rw [memberTrees, memberValues?, List.append_nil]
  | cons m members ih =>
    obtain ⟨first, others⟩ := List.forall_mem_cons.mp back
    have last : ∀ e ∈ known, e.1 < m.1 := fun e he =>
      (List.pairwise_append.mp h).2.2 e he m List.mem_cons_self
    rw [List.append_cons] at h ⊢
    refine memberValues?_cons_eq_some_iff.mpr ⟨m.1, m.2, rfl, first, ?_⟩
    rw [insert_of_lt last]
    exact ih h others

/-- The tree of such a value leads back to it. -/
theorem value?_tree {v : Json} (h : v.Canonical) : v.tree.value? = some v := by
  induction h with
  | null => rfl
  | bool b => rfl
  | number settled => rw [tree, value?, settled.ofText?_written, Option.map_some]
  | string s => rfl
  | @array items _ ih =>
    have values : itemValues? (itemTrees items) = some items := by
      rw [itemTrees_eq_map, itemValues?_eq_some_iff, List.forall₂_map_left_iff, List.forall₂_same]
      exact ih
    rw [tree, value?, values, Option.map_some]
  | @object members sorted _ ih =>
    have values : memberValues? [] (memberTrees members) = some ([] ++ members) :=
      memberValues?_memberTrees sorted ih
    rw [tree, value?, values, Option.map_some, List.nil_append]

/-! ## The trees of such values -/

/-- Every number of a tree is written as a whole number that fits. -/
inductive Plain : Document → Prop where
  /-- The word `null`. -/
  | null : Plain .null
  /-- The word `true` or `false`. -/
  | bool (b : Bool) : Plain (.bool b)
  /-- A number. -/
  | number {t : NumberText} (h : t.Plain) : Plain (.number t)
  /-- A text. -/
  | string (content : Option String) : Plain (.string content)
  /-- A list. -/
  | array {items : List Document} (h : ∀ d ∈ items, Plain d) : Plain (.array items)
  /-- An object. -/
  | object {members : List (Option String × Document)} (h : ∀ m ∈ members, Plain m.2) :
    Plain (.object members)

/-- What holds of the value of a member holds of the members of an object of such values. -/
theorem memberValues?_induction {P : Json → Prop} {members : List (Option String × Document)}
    {known values : List (String × Json)} (h : memberValues? known members = some values)
    (sorted : Sorted known) (before : ∀ m ∈ known, P m.2)
    (each : ∀ m ∈ members, ∀ v, m.2.value? = some v → P v) :
    Sorted values ∧ ∀ m ∈ values, P m.2 := by
  induction members generalizing known with
  | nil =>
    cases h
    exact ⟨sorted, before⟩
  | cons m members ih =>
    obtain ⟨first, others⟩ := List.forall_mem_cons.mp each
    obtain ⟨name, v, -, value, rest⟩ := memberValues?_cons_eq_some_iff.mp h
    refine ih rest (sorted.insert name v) (fun e he => ?_) others
    rcases mem_insert he with rfl | later
    · exact first v value
    · exact before e later

/-- The objects of the value of a tree have their members in order. -/
theorem canonical_of_value? {d : Document} {v : Json} (value : d.value? = some v)
    (settled : v.Settled) : v.Canonical := by
  induction d using Document.induction generalizing v with
  | null =>
    cases value
    exact .null
  | bool b =>
    cases value
    exact .bool b
  | number t =>
    obtain ⟨n, -, rfl⟩ := Option.map_eq_some_iff.mp value
    cases settled with
    | number h => exact .number h
  | string content =>
    obtain ⟨s, -, rfl⟩ := Option.map_eq_some_iff.mp value
    exact .string s
  | array items ih =>
    obtain ⟨values, each, rfl⟩ := Option.map_eq_some_iff.mp value
    cases settled with
    | array h =>
      refine .array fun v hv => ?_
      obtain ⟨d, hd, value⟩ := mem_itemValues? each hv
      exact ih d hd value (h v hv)
  | object members ih =>
    obtain ⟨values, each, rfl⟩ := Option.map_eq_some_iff.mp value
    obtain ⟨sorted, canonical⟩ := memberValues?_induction
      (P := fun v => v.Settled → v.Canonical) each .nil (List.forall_mem_nil _)
      fun m hm v => ih m hm
    cases settled with
    | object h => exact .object sorted fun m hm => canonical m hm (h m hm)

/-- The numbers of the value of such a tree are read again. -/
theorem Plain.settled {d : Document} (h : d.Plain) {v : Json} (value : d.value? = some v) :
    v.Settled := by
  induction h generalizing v with
  | null =>
    cases value
    exact .null
  | bool b =>
    cases value
    exact .bool b
  | number h =>
    rw [value?, h.ofText?] at value
    cases value
    exact .number (Number.settled_int h.fits)
  | string content =>
    obtain ⟨s, -, rfl⟩ := Option.map_eq_some_iff.mp value
    exact .string s
  | @array items _ ih =>
    obtain ⟨values, each, rfl⟩ := Option.map_eq_some_iff.mp value
    refine .array fun v hv => ?_
    obtain ⟨d, hd, value⟩ := mem_itemValues? each hv
    exact ih d hd value
  | @object members _ ih =>
    obtain ⟨values, each, rfl⟩ := Option.map_eq_some_iff.mp value
    exact .object (memberValues?_induction each .nil (List.forall_mem_nil _)
      fun m hm v => ih m hm).2

/-- The tree of a value is nested no deeper than the tree that the value came from. -/
theorem Within.tree {d : Document} {n : Nat} (h : d.Within n) {v : Json}
    (value : d.value? = some v) : v.tree.Within n := by
  induction h generalizing v with
  | null =>
    cases value
    exact .null
  | bool b =>
    cases value
    exact .bool b
  | number t =>
    obtain ⟨_, -, rfl⟩ := Option.map_eq_some_iff.mp value
    exact .number _
  | string content =>
    obtain ⟨s, -, rfl⟩ := Option.map_eq_some_iff.mp value
    exact .string _
  | @array n items _ ih =>
    obtain ⟨values, each, rfl⟩ := Option.map_eq_some_iff.mp value
    rw [Json.tree, itemTrees_eq_map]
    refine .array fun e he => ?_
    obtain ⟨v, hv, rfl⟩ := List.mem_map.mp he
    obtain ⟨d, hd, value⟩ := mem_itemValues? each hv
    exact ih d hd value
  | @object n members _ ih =>
    obtain ⟨values, each, rfl⟩ := Option.map_eq_some_iff.mp value
    obtain ⟨-, within⟩ := memberValues?_induction (P := fun v => v.tree.Within n) each .nil
      (List.forall_mem_nil _) fun m hm v => ih m hm
    rw [Json.tree, memberTrees_eq_map]
    refine .object fun e he => ?_
    obtain ⟨m, hm, rfl⟩ := List.mem_map.mp he
    exact within m hm

end Document

/-! ## Printed values -/

/-- What is printed of a value without blanks is read as the value. -/
theorem read?_compact {v : Json} (h : v.Canonical) (within : v.tree.Within maxNesting) :
    read? v.compact = some v := by
  unfold read?
  rw [Document.read?_compact h.settled within]
  exact Document.value?_tree h

/-- What is printed of a value over several lines is read as the value. -/
theorem read?_pretty {v : Json} (h : v.Canonical) (within : v.tree.Within maxNesting) :
    read? v.pretty = some v := by
  unfold read?
  rw [Document.read?_pretty h.settled within]
  exact Document.value?_tree h

end Json

end LeaseCatalog
