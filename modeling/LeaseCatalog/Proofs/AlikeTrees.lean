import LeaseCatalog.Proofs.CanonicalValues

/-!
# Trees that denote the same value

When two trees denote the same value is said by `Document.Alike` without any values: the order of
the members of an object does not matter, and of those with the same name only the last one does.
Among trees whose numbers are whole and fit, these are the trees that have the same value
(`alike_iff_value_eq`).
-/

namespace LeaseCatalog.Json.Document

/-- What the last member of a name holds. -/
def last? (name : String) (members : List (Option String × Document)) : Option Document :=
  (members.reverse.find? (·.1 == some name)).map (·.2)

/-- Two trees denote the same value: the same whole numbers and texts, lists with the same items in
the same order, and objects in which the last members of every name denote the same value. -/
inductive Alike : Document → Document → Prop where
  /-- The word `null`. -/
  | null : Alike .null .null
  /-- The word `true` or `false`. -/
  | bool (b : Bool) : Alike (.bool b) (.bool b)
  /-- Numbers, however the same whole number is written. -/
  | number {s t : NumberText} (h : s.integer = t.integer) : Alike (.number s) (.number t)
  /-- Texts, whatever characters are escaped in them. -/
  | string (content : Option String) : Alike (.string content) (.string content)
  /-- Lists. -/
  | array {items others : List Document} (length : items.length = others.length)
    (h : ∀ (i : Nat) (d e : Document), items[i]? = some d → others[i]? = some e → Alike d e) :
    Alike (.array items) (.array others)
  /-- Objects. -/
  | object {members others : List (Option String × Document)}
    (names : ∀ name, (last? name members).isSome = (last? name others).isSome)
    (h : ∀ (name : String) (d e : Document), last? name members = some d →
      last? name others = some e → Alike d e) : Alike (.object members) (.object others)

theorem last?_cons (name : String) (m : Option String × Document)
    (members : List (Option String × Document)) :
    last? name (m :: members) =
      (last? name members).or (if m.1 = some name then some m.2 else none) := by
  unfold last?
  rw [List.reverse_cons, List.find?_append, Option.map_or, List.find?_singleton]
  by_cases same : m.1 = some name
  · simp [same]
  · simp [same]

theorem mem_of_last? {name : String} {members : List (Option String × Document)} {d : Document}
    (h : last? name members = some d) : ∃ m ∈ members, m.2 = d := by
  obtain ⟨m, found, rfl⟩ := Option.map_eq_some_iff.mp h
  exact ⟨m, List.mem_reverse.mp (List.mem_of_find?_eq_some found), rfl⟩

theorem exists_value_of_mem_members {members : List (Option String × Document)}
    {known values : List (String × Json)} (h : memberValues? known members = some values)
    {m : Option String × Document} (hm : m ∈ members) : ∃ v, m.2.value? = some v := by
  induction members generalizing known with
  | nil => exact nomatch hm
  | cons first members ih =>
    obtain ⟨_, v, -, value, rest⟩ := memberValues?_cons_eq_some_iff.mp h
    rcases List.mem_cons.mp hm with rfl | later
    · exact ⟨v, value⟩
    · exact ih rest later

/-- Under every name, there is the value of the last member of that name, or else what was there
before. -/
theorem member?_of_memberValues? {members : List (Option String × Document)}
    {known values : List (String × Json)} (h : memberValues? known members = some values)
    (name : String) :
    member? name (.object values) =
      (last? name members).elim (member? name (.object known)) value? := by
  induction members generalizing known with
  | nil =>
    cases h
    rfl
  | cons m members ih =>
    obtain ⟨first, v, hname, value, rest⟩ := memberValues?_cons_eq_some_iff.mp h
    rw [ih rest, last?_cons, member?_insert, hname]
    cases last? name members with
    | some d => rfl
    | none =>
      by_cases same : first = name
      · subst same
        rw [if_pos rfl, if_pos rfl]
        exact value.symm
      · rw [if_neg same, if_neg fun eq => same (Option.some.inj eq)]
        rfl

section Object

variable {members : List (Option String × Document)} {values : List (String × Json)}
  {name : String} {d : Document}

theorem sorted_of_memberValues? (h : memberValues? [] members = some values) : Sorted values :=
  (memberValues?_induction (P := fun _ => True) h .nil (List.forall_mem_nil _)
    fun _ _ _ _ => trivial).1

/-- An object has under every name the value of the last member of that name. -/
theorem member?_eq_bind_last? (h : memberValues? [] members = some values) (name : String) :
    member? name (.object values) = (last? name members).bind value? := by
  rw [member?_of_memberValues? h]
  cases last? name members with
  | none => rfl
  | some d => rfl

theorem exists_value_of_last? (h : memberValues? [] members = some values)
    (found : last? name members = some d) : ∃ v, d.value? = some v := by
  obtain ⟨m, hm, rfl⟩ := mem_of_last? found
  exact exists_value_of_mem_members h hm

theorem isSome_last? (h : memberValues? [] members = some values) (name : String) :
    (last? name members).isSome = (member? name (.object values)).isSome := by
  rw [member?_eq_bind_last? h]
  cases found : last? name members with
  | none => rfl
  | some d =>
    obtain ⟨v, value⟩ := exists_value_of_last? h found
    rw [Option.bind_some, value]
    rfl

end Object

theorem bind_value?_congr {o o' : Option Document} (present : o.isSome = o'.isSome)
    (h : ∀ d e, o = some d → o' = some e → d.value? = e.value?) :
    o.bind value? = o'.bind value? := by
  cases o with
  | none =>
    cases o' with
    | none => rfl
    | some e => cases present
  | some d =>
    cases o' with
    | none => cases present
    | some e => exact h d e rfl rfl

/-- Trees that denote the same value have the same value. -/
theorem Alike.value_eq {d e : Document} (h : d.Alike e) (plain : d.Plain) (plain' : e.Plain)
    {v w : Json} (value : d.value? = some v) (value' : e.value? = some w) : v = w := by
  induction h generalizing v w with
  | null =>
    cases value
    cases value'
    rfl
  | bool b =>
    cases value
    cases value'
    rfl
  | number same =>
    cases plain with
    | number h =>
      cases plain' with
      | number h' =>
        rw [value?, h.ofText?] at value
        rw [value?, h'.ofText?] at value'
        cases value
        cases value'
        rw [same]
  | string content => exact Option.some.inj (value.symm.trans value')
  | @array items others length _ ih =>
    cases plain with
    | array h =>
      cases plain' with
      | array h' =>
        obtain ⟨values, each, rfl⟩ := Option.map_eq_some_iff.mp value
        obtain ⟨values', each', rfl⟩ := Option.map_eq_some_iff.mp value'
        refine congrArg Json.array (List.ext_getElem? fun i => ?_)
        rw [getElem?_itemValues? each, getElem?_itemValues? each']
        refine bind_value?_congr ?_ fun d e hd he => ?_
        · rw [Option.isSome_eq_isSome, List.getElem?_eq_none_iff, List.getElem?_eq_none_iff, length]
        · obtain ⟨v, hv⟩ := exists_value_of_mem each (List.mem_of_getElem? hd)
          obtain ⟨w, hw⟩ := exists_value_of_mem each' (List.mem_of_getElem? he)
          have same := ih i d e hd he (h d (List.mem_of_getElem? hd))
            (h' e (List.mem_of_getElem? he)) hv hw
          rw [hv, hw, same]
  | @object members others names _ ih =>
    cases plain with
    | object h =>
      cases plain' with
      | object h' =>
        obtain ⟨values, each, rfl⟩ := Option.map_eq_some_iff.mp value
        obtain ⟨values', each', rfl⟩ := Option.map_eq_some_iff.mp value'
        refine congrArg Json.object ((sorted_of_memberValues? each).eq_of_member?
          (sorted_of_memberValues? each') fun name => ?_)
        rw [member?_eq_bind_last? each, member?_eq_bind_last? each']
        refine bind_value?_congr (names name) fun d e hd he => ?_
        obtain ⟨v, hv⟩ := exists_value_of_last? each hd
        obtain ⟨w, hw⟩ := exists_value_of_last? each' he
        obtain ⟨m, hm, rfl⟩ := mem_of_last? hd
        obtain ⟨m', hm', rfl⟩ := mem_of_last? he
        have same := ih name _ _ hd he (h m hm) (h' m' hm') hv hw
        rw [hv, hw, same]

/-- Trees that have the same value denote the same value. -/
theorem alike_of_value_eq {d e : Document} (plain : d.Plain) (plain' : e.Plain) {v : Json}
    (value : d.value? = some v) (value' : e.value? = some v) : d.Alike e := by
  induction plain generalizing e v with
  | null =>
    cases value
    obtain rfl := value?_eq_null.mp value'
    exact .null
  | bool b =>
    cases value
    obtain rfl := value?_eq_bool.mp value'
    exact .bool b
  | number h =>
    rw [value?, h.ofText?] at value
    cases value
    obtain ⟨t, rfl, number⟩ := value?_eq_number.mp value'
    cases plain' with
    | number h' =>
      rw [h'.ofText?] at number
      exact .number (Number.int.inj (Option.some.inj number)).symm
  | string content =>
    obtain ⟨s, rfl, rfl⟩ := Option.map_eq_some_iff.mp value
    obtain rfl := value?_eq_string.mp value'
    exact .string _
  | @array items h ih =>
    obtain ⟨values, each, rfl⟩ := Option.map_eq_some_iff.mp value
    obtain ⟨others, rfl, each'⟩ := value?_eq_array.mp value'
    cases plain' with
    | array h' =>
      refine .array ?_ fun i d e hd he => ?_
      · rw [length_itemValues? each, length_itemValues? each']
      · have value := getElem?_itemValues? each i
        have value' := getElem?_itemValues? each' i
        obtain ⟨v, hv⟩ := exists_value_of_mem each (List.mem_of_getElem? hd)
        rw [hd, Option.bind_some, hv] at value
        rw [he, Option.bind_some, value] at value'
        exact ih d (List.mem_of_getElem? hd) (h' e (List.mem_of_getElem? he)) hv value'.symm
  | @object members h ih =>
    obtain ⟨values, each, rfl⟩ := Option.map_eq_some_iff.mp value
    obtain ⟨others, rfl, each'⟩ := value?_eq_object.mp value'
    cases plain' with
    | object h' =>
      refine .object (fun name => ?_) fun name d e hd he => ?_
      · rw [isSome_last? each, isSome_last? each']
      · have value := member?_eq_bind_last? each name
        have value' := member?_eq_bind_last? each' name
        obtain ⟨v, hv⟩ := exists_value_of_last? each hd
        rw [hd, Option.bind_some, hv] at value
        rw [he, Option.bind_some, value] at value'
        obtain ⟨m, hm, rfl⟩ := mem_of_last? hd
        obtain ⟨m', hm', rfl⟩ := mem_of_last? he
        exact ih m hm (h' m' hm') hv value'.symm

/-- Two trees denote the same value exactly if they have the same value. -/
theorem alike_iff_value_eq {d e : Document} (plain : d.Plain) (plain' : e.Plain) {v w : Json}
    (value : d.value? = some v) (value' : e.value? = some w) : d.Alike e ↔ v = w := by
  refine ⟨fun h => h.value_eq plain plain' value value', ?_⟩
  rintro rfl
  exact alike_of_value_eq plain plain' value value'

end LeaseCatalog.Json.Document
