import LeaseCatalog.Proofs.PrintedTokens

/-!
# Trees are read from their tokens

The machine that makes a tree from tokens keeps the lists and objects that are still open on a
stack. From a state in which a value may come it reads the tokens of a tree in one go, and is then
where a complete value leads (`Reader.readAll?_tokens`), provided that the tree is not nested deeper
than there is room left on the stack. Nor is any tree that it makes nested deeper than that
(`Document.read?_within`), so the printed text of a value is read whenever the value itself came
from a text (`Document.read?_compact`, `Document.read?_pretty`).
-/

namespace LeaseCatalog.Json

namespace Document

/-- What holds of a list or an object if it holds of all that is in it, and of all other trees,
holds of every tree. -/
theorem induction {P : Document → Prop} (null : P .null) (bool : ∀ b, P (.bool b))
    (number : ∀ n, P (.number n)) (string : ∀ s, P (.string s))
    (array : ∀ items, (∀ d ∈ items, P d) → P (.array items))
    (object : ∀ members : List (Option String × Document), (∀ m ∈ members, P m.2) →
      P (.object members)) : ∀ d, P d := by
  intro d
  refine @Document.rec P (fun items => ∀ d ∈ items, P d) (fun members => ∀ m ∈ members, P m.2)
    (fun m => P m.2) null bool number string array object ?_ ?_ ?_ ?_ ?_ d
  · exact fun _ h => nomatch h
  · exact fun item rest first others => List.forall_mem_cons.mpr ⟨first, others⟩
  · exact fun _ h => nomatch h
  · exact fun m rest first others => List.forall_mem_cons.mpr ⟨first, others⟩
  · exact fun _ value h => h

/-- At most `n` lists and objects of a tree stand inside each other. -/
inductive Within : Nat → Document → Prop where
  /-- The word `null`. -/
  | null {n : Nat} : Within n .null
  /-- The word `true` or `false`. -/
  | bool {n : Nat} (b : Bool) : Within n (.bool b)
  /-- A number. -/
  | number {n : Nat} (t : NumberText) : Within n (.number t)
  /-- A text. -/
  | string {n : Nat} (content : Option String) : Within n (.string content)
  /-- A list. -/
  | array {n : Nat} {items : List Document} (h : ∀ d ∈ items, Within n d) :
    Within (n + 1) (.array items)
  /-- An object. -/
  | object {n : Nat} {members : List (Option String × Document)} (h : ∀ m ∈ members, Within n m.2) :
    Within (n + 1) (.object members)

theorem Within.mono {m n : Nat} {d : Document} (h : d.Within m) (le : m ≤ n) : d.Within n := by
  induction h generalizing n with
  | null => exact .null
  | bool b => exact .bool b
  | number t => exact .number t
  | string content => exact .string content
  | array _ ih =>
    obtain ⟨n, rfl⟩ : ∃ k, n = k + 1 := ⟨n - 1, by omega⟩
    exact .array fun d hd => ih d hd (by omega)
  | object _ ih =>
    obtain ⟨n, rfl⟩ : ∃ k, n = k + 1 := ⟨n - 1, by omega⟩
    exact .object fun m hm => ih m hm (by omega)

end Document

/-! ## Reading the tokens of a tree -/

namespace Reader

variable {limit n : Nat} {stack : List Frame} {rest : List Token}

theorem readAll?_cons {r r' : Reader} {token : Token} (h : r.read? limit token = some r') :
    r.readAll? limit (token :: rest) = r'.readAll? limit rest := by
  rw [readAll?, h]

/-- The tokens of a tree, read where a value may come, deliver the tree. -/
def Delivers (limit : Nat) (stack : List Frame) (d : Document) : Prop :=
  ∀ mayClose rest, (Reader.mk stack (.value mayClose) none).readAll? limit (d.tokens ++ rest) =
    (deliver d stack).readAll? limit rest

/-- A list goes on with an item and ends after the last one. -/
theorem readAll?_items {d : Document} {items seen : List Document}
    (h : ∀ e ∈ d :: items, ∀ seen, Delivers limit (.array seen :: stack) e) (mayClose : Bool) :
    (Reader.mk (.array seen :: stack) (.value mayClose) none).readAll? limit
        (Document.commas ((d :: items).map Document.tokens) ++ .closeArray :: rest) =
      (deliver (.array (seen.reverse ++ d :: items)) stack).readAll? limit rest := by
  induction items generalizing d seen mayClose with
  | nil =>
    have last := h d List.mem_cons_self seen mayClose (.closeArray :: rest)
    simp only [List.map_cons, List.map_nil, Document.commas]
    rw [last, deliver, readAll?_cons rfl, List.reverse_cons]
  | cons e items ih =>
    have first := h d List.mem_cons_self seen mayClose
    have others := @ih e (d :: seen) (fun x hx => h x (List.mem_cons_of_mem _ hx)) false
    simp only [List.map_cons, Document.commas, List.append_assoc, List.cons_append] at others ⊢
    rw [first, deliver, readAll?_cons rfl, others, List.reverse_cons, List.append_assoc,
      List.singleton_append]

/-- An object goes on with a member and ends after the last one. -/
theorem readAll?_members {m : Option String × Document}
    {members seen : List (Option String × Document)} {name : Option String}
    (h : ∀ e ∈ m :: members, ∀ name seen, Delivers limit (.object name seen :: stack) e.2)
    (mayClose : Bool) :
    (Reader.mk (.object name seen :: stack) (.name mayClose) none).readAll? limit
        (Document.commas ((m :: members).map fun m => .string m.1 :: .colon :: m.2.tokens) ++
          .closeObject :: rest) =
      (deliver (.object (seen.reverse ++ m :: members)) stack).readAll? limit rest := by
  induction members generalizing m seen name mayClose with
  | nil =>
    have last := h m List.mem_cons_self m.1 seen false (.closeObject :: rest)
    simp only [List.map_cons, List.map_nil, Document.commas, List.cons_append]
    rw [readAll?_cons rfl, readAll?_cons rfl, last, deliver, readAll?_cons rfl, List.reverse_cons]
  | cons e members ih =>
    have first := h m List.mem_cons_self m.1 seen false
    have others := @ih e (m :: seen) m.1 (fun x hx => h x (List.mem_cons_of_mem _ hx)) false
    simp only [List.map_cons, Document.commas, List.append_assoc, List.cons_append] at others ⊢
    rw [readAll?_cons rfl, readAll?_cons rfl, first, deliver, readAll?_cons rfl, others,
      List.reverse_cons, List.append_assoc, List.singleton_append]

theorem delivers_array {items : List Document} (room : stack.length < limit)
    (h : ∀ d ∈ items, ∀ seen, Delivers limit (.array seen :: stack) d) :
    Delivers limit stack (.array items) := by
  intro mayClose rest
  have opens : (Reader.mk stack (.value mayClose) none).read? limit .openArray =
      some ⟨.array [] :: stack, .value true, none⟩ := if_pos room
  rw [Document.tokens, Document.itemTokens_eq_map, List.append_assoc, List.cons_append,
    readAll?_cons opens]
  cases items with
  | nil => exact readAll?_cons rfl
  | cons d items => exact readAll?_items h true

theorem delivers_object {members : List (Option String × Document)} (room : stack.length < limit)
    (h : ∀ m ∈ members, ∀ name seen, Delivers limit (.object name seen :: stack) m.2) :
    Delivers limit stack (.object members) := by
  intro mayClose rest
  have opens : (Reader.mk stack (.value mayClose) none).read? limit .openObject =
      some ⟨.object none [] :: stack, .name true, none⟩ := if_pos room
  rw [Document.tokens, Document.memberTokens_eq_map, List.append_assoc, List.cons_append,
    readAll?_cons opens]
  cases members with
  | nil => exact readAll?_cons rfl
  | cons m members => exact readAll?_members h true

/-- Every tree is read from its tokens where there is room for it on the stack. -/
theorem delivers_of_within {d : Document} (h : d.Within n) (room : stack.length + n ≤ limit) :
    Delivers limit stack d := by
  induction h generalizing stack with
  | null | bool | number | string => exact fun mayClose rest => readAll?_cons rfl
  | array _ ih =>
    refine delivers_array (by omega) fun d hd seen => ih d hd ?_
    rw [List.length_cons]
    omega
  | object _ ih =>
    refine delivers_object (by omega) fun m hm name seen => ih m hm ?_
    rw [List.length_cons]
    omega

end Reader

/-! ## How deep trees are nested -/

/-- Everything in the lists and objects that are still open is nested no deeper than there is room
for above it. -/
inductive Nested (limit : Nat) : List Frame → Prop where
  /-- Nothing is open. -/
  | nil : Nested limit []
  /-- A list is open. -/
  | array {n : Nat} {stack : List Frame} {items : List Document}
    (room : stack.length + n + 1 = limit) (h : ∀ d ∈ items, d.Within n)
    (outer : Nested limit stack) : Nested limit (.array items :: stack)
  /-- An object is open. -/
  | object {n : Nat} {stack : List Frame} {name : Option String}
    {members : List (Option String × Document)} (room : stack.length + n + 1 = limit)
    (h : ∀ m ∈ members, m.2.Within n) (outer : Nested limit stack) :
    Nested limit (.object name members :: stack)

theorem Nested.length_le {limit : Nat} {stack : List Frame} (h : Nested limit stack) :
    stack.length ≤ limit := by
  cases h with
  | nil => exact Nat.zero_le _
  | array room | object room =>
    rw [List.length_cons]
    omega

/-- What a state of the machine holds is nested no deeper than the limit allows. -/
structure Reader.Shallow (limit : Nat) (r : Reader) : Prop where
  /-- What is still open. -/
  nested : Nested limit r.stack
  /-- What is complete. -/
  result : ∀ d ∈ r.result, d.Within limit

namespace Reader

variable {limit n : Nat} {stack : List Frame}

theorem shallow_deliver {d : Document} (h : Nested limit stack) (within : d.Within n)
    (room : stack.length + n ≤ limit) : (deliver d stack).Shallow limit := by
  cases h with
  | nil =>
    refine ⟨.nil, fun e he => ?_⟩
    cases he
    exact within.mono (by simpa using room)
  | array room' inside outer =>
    rw [List.length_cons] at room
    refine ⟨.array room' (List.forall_mem_cons.mpr ⟨within.mono ?_, inside⟩) outer, nofun⟩
    omega
  | object room' inside outer =>
    rw [List.length_cons] at room
    refine ⟨.object room' (List.forall_mem_cons.mpr ⟨within.mono ?_, inside⟩) outer, nofun⟩
    omega

theorem shallow_atom {d : Document} (h : Nested limit stack) (within : d.Within 0) :
    (deliver d stack).Shallow limit :=
  shallow_deliver h within h.length_le

theorem shallow_closeArray {items : List Document} (h : Nested limit (.array items :: stack)) :
    (deliver (.array items.reverse) stack).Shallow limit := by
  cases h with
  | array room inside outer =>
    refine shallow_deliver outer (.array fun d hd => inside d (List.mem_reverse.mp hd)) ?_
    omega

theorem shallow_closeObject {name : Option String} {members : List (Option String × Document)}
    (h : Nested limit (.object name members :: stack)) :
    (deliver (.object members.reverse) stack).Shallow limit := by
  cases h with
  | object room inside outer =>
    refine shallow_deliver outer (.object fun m hm => inside m (List.mem_reverse.mp hm)) ?_
    omega

theorem nested_open (h : Nested limit stack) (room : stack.length < limit) :
    Nested limit (.array [] :: stack) ∧ Nested limit (.object none [] :: stack) := by
  have height : stack.length + (limit - 1 - stack.length) + 1 = limit := by omega
  exact ⟨.array height nofun h, .object height nofun h⟩

theorem nested_rename {name name' : Option String} {members : List (Option String × Document)}
    (h : Nested limit (.object name members :: stack)) :
    Nested limit (.object name' members :: stack) := by
  cases h with
  | object room inside outer => exact .object room inside outer

theorem Shallow.read? {r r' : Reader} {token : Token} (h : r.Shallow limit)
    (read : r.read? limit token = some r') : r'.Shallow limit := by
  obtain ⟨stack, awaited, result⟩ := r
  obtain ⟨nested, -⟩ := h
  unfold Reader.read? at read
  dsimp only at nested read
  split at read
  all_goals try cases read
  · exact shallow_atom nested .null
  · exact shallow_atom nested (.bool _)
  · exact shallow_atom nested (.number _)
  · exact shallow_atom nested (.string _)
  · exact ⟨nested_rename nested, nofun⟩
  · obtain ⟨room, new⟩ := Option.ite_none_right_eq_some.mp read
    cases new
    exact ⟨(nested_open nested room).1, nofun⟩
  · obtain ⟨room, new⟩ := Option.ite_none_right_eq_some.mp read
    cases new
    exact ⟨(nested_open nested room).2, nofun⟩
  · exact shallow_closeArray nested
  · exact shallow_closeArray nested
  · exact shallow_closeObject nested
  · exact shallow_closeObject nested
  · exact ⟨nested, nofun⟩
  · exact ⟨nested, nofun⟩
  · exact ⟨nested, nofun⟩

theorem Shallow.readAll? {r r' : Reader} {tokens : List Token} (h : r.Shallow limit)
    (read : r.readAll? limit tokens = some r') : r'.Shallow limit := by
  induction tokens generalizing r with
  | nil =>
    cases read
    exact h
  | cons token tokens ih =>
    rw [Reader.readAll?] at read
    cases step : r.read? limit token with
    | none =>
      rw [step] at read
      cases read
    | some next =>
      rw [step] at read
      exact ih (h.read? step) read

end Reader

/-! ## Whole texts -/

namespace Document

variable {limit : Nat}

/-- What is read is nested no deeper than the limit allows. -/
theorem read?_within {text : List Char} {d : Document} (h : read? limit text = some d) :
    d.Within limit := by
  have start : Reader.initial.Shallow limit := ⟨.nil, nofun⟩
  unfold read? at h
  split at h
  · cases h
  · split at h
    · cases h
    · exact (start.readAll? ‹_›).result d h

theorem read?_of_spells {text : List Char} {d : Document} (spelled : Spells text d.tokens)
    (h : d.Within limit) : read? limit text = some d := by
  have room : ([] : List Frame).length + limit ≤ limit := by rw [List.length_nil, Nat.zero_add]
  have delivered : Reader.initial.readAll? limit (d.tokens ++ []) = some ⟨[], .next, some d⟩ :=
    Reader.delivers_of_within h room false []
  rw [List.append_nil] at delivered
  unfold read?
  rw [spelled.tokens?]
  dsimp only
  rw [delivered]

/-- A value printed without blanks is read as its tree. -/
theorem read?_compact {v : Json} (h : v.Settled) (within : v.tree.Within limit) :
    read? limit v.compact.toList = some v.tree := by
  rw [compact, String.toList_ofList]
  exact read?_of_spells (compact_spells h) within

/-- A value printed over several lines is read as its tree. -/
theorem read?_pretty {v : Json} (h : v.Settled) (within : v.tree.Within limit) :
    read? limit v.pretty.toList = some v.tree := by
  rw [pretty, String.toList_ofList]
  exact read?_of_spells (pretty_spells h 0) within

end Document

end LeaseCatalog.Json
