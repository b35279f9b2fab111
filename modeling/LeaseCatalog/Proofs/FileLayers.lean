import LeaseCatalog.Config.Variable
import Mathlib.Tactic

/-!
# What a file sets

A section of a file is written in one of three forms. In whichever it is, what a file says comes down
to a list of settings with an item for each (`Layer.assigned?`), and this is all that counts: the
file can be read exactly if every item can be read for its setting, and of the items for one setting
the last one decides what that is set to (`Layer.read_eq_ok_iff`). A key belongs to one setting, by
its own name and that of its section, and sets nothing else.

A setting is named by its variable.
-/

namespace LeaseCatalog

/-! ## Settings one by one -/

/-- What a setting can be set to. -/
def Variable.Value : Variable → Type
  | .url => String
  | .dialect => Dialect
  | .heartbeatSeconds | .multiplier | .maxConnections | .timeoutMillis => Nat

namespace Layer

/-- What a layer sets a setting to, if it sets it. -/
def value? (l : Layer) : (v : Variable) → Option v.Value
  | .heartbeatSeconds => l.heartbeatSeconds
  | .multiplier => l.multiplier
  | .url => l.url
  | .dialect => l.dialect
  | .maxConnections => l.maxConnections
  | .timeoutMillis => l.timeoutMillis

/-- The layer that also sets a setting. -/
def set (l : Layer) : (v : Variable) → v.Value → Layer
  | .heartbeatSeconds, n => { l with heartbeatSeconds := some n }
  | .multiplier, n => { l with multiplier := some n }
  | .url, address => { l with url := some address }
  | .dialect, d => { l with dialect := some d }
  | .maxConnections, n => { l with maxConnections := some n }
  | .timeoutMillis, n => { l with timeoutMillis := some n }

theorem value?_set (l : Layer) (v : Variable) (x : v.Value) : (l.set v x).value? v = some x := by
  cases v <;> rfl

theorem value?_set_of_ne (l : Layer) {v w : Variable} (x : v.Value) (h : v ≠ w) :
    (l.set v x).value? w = l.value? w := by
  cases v <;> cases w <;> first | rfl | exact absurd rfl h

/-- The layer that sets settings as given. -/
def ofValues (value? : (v : Variable) → Option v.Value) : Layer where
  heartbeatSeconds := value? .heartbeatSeconds
  multiplier := value? .multiplier
  url := value? .url
  dialect := value? .dialect
  maxConnections := value? .maxConnections
  timeoutMillis := value? .timeoutMillis

/-- A layer is nothing but what it sets its six settings to. -/
theorem eq_of_value? {l l' : Layer} (h : ∀ v, l.value? v = l'.value? v) : l = l' := by
  have same : ofValues l.value? = ofValues l'.value? := congrArg ofValues (funext h)
  exact same

end Layer

open Toml (Item Entries)

/-! ## Settings and their keys -/

namespace Variable

/-- The section that a setting belongs to. -/
def home : Variable → Layer.Section
  | .heartbeatSeconds | .multiplier => Layer.reservation
  | .url | .dialect | .maxConnections => Layer.database
  | .timeoutMillis => Layer.server

/-- The key of a setting in its section. -/
def key : Variable → String
  | .heartbeatSeconds => "heartbeat_interval_secs"
  | .multiplier => "grace_period_multiplier"
  | .url => "url"
  | .dialect => "dialect"
  | .maxConnections => "max_connections"
  | .timeoutMillis => "request_timeout_ms"

/-- The setting of a key in a section, if there is one. -/
def ofKey? (home key : String) : Option Variable :=
  all.find? fun v => v.home.key == home ∧ v.key == key

/-- What an item sets a setting to. -/
def ofItem (item : Item) : (v : Variable) → Except LayerFault v.Value
  | .heartbeatSeconds => Layer.whole 64 item
  | .multiplier => Layer.whole 32 item
  | .url => Layer.text item
  | .dialect => Layer.dialectOf item
  | .maxConnections => Layer.whole 32 item
  | .timeoutMillis => Layer.whole 64 item

/-- What a setting is set to before and after items are read for it. The last of them counts. -/
inductive SetBy (v : Variable) (before : Option v.Value) : List Item → Option v.Value → Prop where
  /-- There are none. -/
  | none : SetBy v before [] before
  /-- The last one can be read. -/
  | last (items : List Item) {item : Item} {x : v.Value} (reads : ofItem item v = .ok x) :
      SetBy v before (items ++ [item]) (some x)

variable {v : Variable} {before between after : Option v.Value} {items more : List Item}

theorem SetBy.append (h : v.SetBy before items between) (h' : v.SetBy between more after) :
    v.SetBy before (items ++ more) after := by
  cases h' with
  | none =>
    rw [List.append_nil]
    exact h
  | last others reads =>
    rw [← List.append_assoc]
    exact .last _ reads

theorem SetBy.unique (h : v.SetBy before items after) {after' : Option v.Value}
    (h' : v.SetBy before items after') : after = after' := by
  generalize same : items = items' at h'
  cases h with
  | none =>
    cases h' with
    | none => rfl
    | last others => exact absurd same.symm (List.append_ne_nil_of_right_ne_nil _ (by simp))
  | last others reads =>
    cases h' with
    | none => exact absurd same (List.append_ne_nil_of_right_ne_nil _ (by simp))
    | last others' reads' =>
      obtain ⟨-, last⟩ := List.append_inj' same rfl
      cases last
      rw [reads] at reads'
      exact congrArg some (Except.ok.inj reads')

end Variable

/-! ## Files as lists of items -/

namespace Layer

/-- Items for the keys of a section in their order. There has to be one for each. -/
def Section.inPlace? (s : Section) (items : List Item) : Option Entries :=
  if s.settings.length ≤ items.length then some ((s.settings.map (·.key)).zip items) else none

/-- The entries that a section comes down to as it is written. -/
def Section.entries? (s : Section) : Item → Option Entries
  | .table _ entries => some entries
  | .array items => s.inPlace? items
  | .tables all => s.inPlace? (all.map (.table .header))
  | .string _ | .integer _ | .real _ | .boolean _ | .datetime => none

/-- The settings that the entries of a section name, with the items for them. -/
def Section.assigned? (s : Section) : Entries → Option (List (Variable × Item))
  | [] => some []
  | (key, item) :: rest => do
    let v ← Variable.ofKey? s.key key
    let later ← s.assigned? rest
    some ((v, item) :: later)

/-- The settings that the sections of a file name, with the items for them. -/
def assigned? : Entries → Option (List (Variable × Item))
  | [] => some []
  | (key, item) :: rest => do
    let s ← sections.find? (·.key == key)
    let entries ← s.entries? item
    let here ← s.assigned? entries
    let later ← assigned? rest
    some (here ++ later)

/-- Reads items for settings one after the other. -/
def assign : List (Variable × Item) → Layer → Except LayerFault Layer
  | [], l => .ok l
  | (v, item) :: rest, l =>
    match Variable.ofItem item v with
    | .ok x => assign rest (l.set v x)
    | .error fault => .error fault

/-- The items for a setting. -/
def itemsFor (v : Variable) (assigned : List (Variable × Item)) : List Item :=
  (assigned.filter (·.1 = v)).map Prod.snd

variable {assigned more : List (Variable × Item)} {l l' : Layer}

theorem assign_append_eq_ok_iff :
    assign (assigned ++ more) l = .ok l' ↔
      ∃ m, assign assigned l = .ok m ∧ assign more m = .ok l' := by
  induction assigned generalizing l with
  | nil => simp [assign]
  | cons first rest ih =>
    obtain ⟨v, item⟩ := first
    rw [List.cons_append, assign, assign]
    cases Variable.ofItem item v with
    | ok x => exact ih
    | error fault => simp

theorem itemsFor_cons (v : Variable) (a : Variable × Item) (rest : List (Variable × Item)) :
    itemsFor v (a :: rest) = (if a.1 = v then [a.2] else []) ++ itemsFor v rest := by
  unfold itemsFor
  rw [List.filter_cons]
  by_cases same : a.1 = v
  · simp [same]
  · simp [same]

theorem assign_setBy (h : assign assigned l = .ok l') :
    (∀ a ∈ assigned, ∃ x, Variable.ofItem a.2 a.1 = .ok x) ∧
      ∀ v : Variable, v.SetBy (l.value? v) (itemsFor v assigned) (l'.value? v) := by
  induction assigned generalizing l with
  | nil =>
    cases h
    exact ⟨List.forall_mem_nil _, fun v => .none⟩
  | cons first rest ih =>
    obtain ⟨w, item⟩ := first
    rw [assign] at h
    cases reads : Variable.ofItem item w with
    | error fault =>
      rw [reads] at h
      cases h
    | ok x =>
      rw [reads] at h
      obtain ⟨readable, setBy⟩ := ih h
      refine ⟨List.forall_mem_cons.mpr ⟨⟨x, reads⟩, readable⟩, fun v => ?_⟩
      rw [itemsFor_cons]
      refine Variable.SetBy.append ?_ (setBy v)
      by_cases same : w = v
      · subst same
        rw [if_pos rfl, value?_set]
        exact .last [] reads
      · rw [if_neg same, value?_set_of_ne l x same]
        exact .none

theorem exists_assign (readable : ∀ a ∈ assigned, ∃ x, Variable.ofItem a.2 a.1 = .ok x)
    (l : Layer) : ∃ l', assign assigned l = .ok l' := by
  induction assigned generalizing l with
  | nil => exact ⟨l, rfl⟩
  | cons first rest ih =>
    obtain ⟨⟨x, reads⟩, others⟩ := List.forall_mem_cons.mp readable
    obtain ⟨l', assigned⟩ := ih others (l.set first.1 x)
    refine ⟨l', ?_⟩
    rw [assign, reads]
    exact assigned

/-- Reading succeeds if every item can be read, and of the items for a setting the last one
counts. -/
theorem assign_eq_ok_iff :
    assign assigned l = .ok l' ↔ (∀ a ∈ assigned, ∃ x, Variable.ofItem a.2 a.1 = .ok x) ∧
      ∀ v : Variable, v.SetBy (l.value? v) (itemsFor v assigned) (l'.value? v) := by
  refine ⟨assign_setBy, fun ⟨readable, setBy⟩ => ?_⟩
  obtain ⟨m, assigned⟩ := exists_assign readable l
  have same : m = l' := eq_of_value? fun v => ((assign_setBy assigned).2 v).unique (setBy v)
  rw [assigned, same]

/-! ## Reading files -/

section Reading

variable {s : Section}

/-- A setting as a key of its section. -/
def asKey (v : Variable) : Setting :=
  ⟨v.key, fun item l => (Variable.ofItem item v).map (l.set v)⟩

/-- The keys of a section are those of its settings. -/
theorem Section.settings_eq (hs : s ∈ sections) :
    s.settings = (Variable.all.filter fun v => v.home.key == s.key).map asKey := by
  simp only [sections, List.mem_cons, List.not_mem_nil, or_false] at hs
  rcases hs with rfl | rfl | rfl <;> rfl

theorem Section.find?_settings (hs : s ∈ sections) (key : String) :
    s.settings.find? (·.key == key) = (Variable.ofKey? s.key key).map asKey := by
  rw [settings_eq hs, List.find?_map, List.find?_filter]
  rfl

theorem Section.readEntries_eq_ok_iff (hs : s ∈ sections) {entries : Entries} :
    s.readEntries entries l = .ok l' ↔
      ∃ assigned, s.assigned? entries = some assigned ∧ assign assigned l = .ok l' := by
  induction entries generalizing l with
  | nil => simp [readEntries, assigned?, assign]
  | cons entry rest ih =>
    obtain ⟨key, item⟩ := entry
    rw [readEntries, assigned?, find?_settings hs]
    cases Variable.ofKey? s.key key with
    | none => simp
    | some v =>
      simp only [Option.map_some, Option.bind_eq_bind, Option.bind_some, asKey]
      cases reads : Variable.ofItem item v with
      | error fault => simp [Except.map, assign, reads, Option.bind_eq_some_iff]
      | ok x => simp [Except.map, assign, reads, ih, Option.bind_eq_some_iff]

/-- Reading a list comes down to reading entries. -/
theorem Section.readItems_eq_ok_iff {settings : List Setting}
    (known : ∀ setting ∈ settings, s.settings.find? (·.key == setting.key) = some setting)
    {count : Nat} {items : List Item} :
    s.readItems count settings items l = .ok l' ↔ settings.length ≤ items.length ∧
      s.readEntries ((settings.map (·.key)).zip items) l = .ok l' := by
  induction settings generalizing count items l with
  | nil => simp [readItems, readEntries]
  | cons setting settings ih =>
    obtain ⟨here, there⟩ := List.forall_mem_cons.mp known
    cases items with
    | nil => simp [readItems]
    | cons item items =>
      rw [readItems, List.map_cons, List.zip_cons_cons, readEntries, here, List.length_cons,
        List.length_cons, Nat.add_le_add_iff_right]
      dsimp only
      cases setting.read item l with
      | error fault => simp
      | ok m => exact ih there

theorem Section.find?_of_mem (hs : s ∈ sections) :
    ∀ setting ∈ s.settings, s.settings.find? (·.key == setting.key) = some setting := by
  simp only [sections, List.mem_cons, List.not_mem_nil, or_false] at hs
  rcases hs with rfl | rfl | rfl
  · simp only [reservation, List.forall_mem_cons]
    exact ⟨rfl, rfl, nofun⟩
  · simp only [database, List.forall_mem_cons]
    exact ⟨rfl, rfl, rfl, nofun⟩
  · simp only [server, List.forall_mem_cons]
    exact ⟨rfl, nofun⟩

theorem Section.inPlace_eq_ok_iff (hs : s ∈ sections) {items : List Item} :
    s.readItems 0 s.settings items l = .ok l' ↔
      ∃ entries, s.inPlace? items = some entries ∧ s.readEntries entries l = .ok l' := by
  rw [readItems_eq_ok_iff (find?_of_mem hs)]
  unfold inPlace?
  by_cases enough : s.settings.length ≤ items.length
  · simp [enough]
  · simp [enough]

theorem Section.read_eq_ok_iff (hs : s ∈ sections) {item : Item} :
    s.read item l = .ok l' ↔ ∃ entries assigned, s.entries? item = some entries ∧
      s.assigned? entries = some assigned ∧ assign assigned l = .ok l' := by
  have forms : s.read item l = .ok l' ↔
      ∃ entries, s.entries? item = some entries ∧ s.readEntries entries l = .ok l' := by
    cases item with
    | table => simp [Section.read, entries?]
    | array | tables => exact inPlace_eq_ok_iff hs
    | string | integer | real | boolean | datetime => simp [Section.read, entries?]
  rw [forms]
  simp only [readEntries_eq_ok_iff hs, exists_and_left]

theorem readSections_eq_ok_iff {entries : Entries} :
    readSections entries l = .ok l' ↔
      ∃ assigned, assigned? entries = some assigned ∧ assign assigned l = .ok l' := by
  induction entries generalizing l with
  | nil => simp [readSections, assigned?, assign]
  | cons entry rest ih =>
    obtain ⟨key, item⟩ := entry
    rw [readSections, assigned?]
    cases found : sections.find? (·.key == key) with
    | none => simp
    | some s =>
      have hs := List.mem_of_find?_eq_some found
      rw [Option.bind_eq_bind, Option.bind_some]
      dsimp only
      constructor
      · intro h
        cases read : s.read item l with
        | error fault =>
          rw [read] at h
          cases h
        | ok m =>
          rw [read] at h
          obtain ⟨own, here, written, known, first⟩ := (Section.read_eq_ok_iff hs).mp read
          obtain ⟨later, others, second⟩ := ih.mp h
          refine ⟨here ++ later, ?_, assign_append_eq_ok_iff.mpr ⟨m, first, second⟩⟩
          simp [written, known, others]
      · rintro ⟨assigned, h, done⟩
        simp only [Option.bind_eq_bind, Option.bind_eq_some_iff] at h
        obtain ⟨own, written, here, known, later, others, all⟩ := h
        cases all
        obtain ⟨m, first, second⟩ := assign_append_eq_ok_iff.mp done
        rw [(Section.read_eq_ok_iff hs).mpr ⟨own, here, written, known, first⟩]
        exact ih.mpr ⟨later, others, second⟩

/-- A text is read as a layer exactly if it is that of a file whose items can all be read, and the
layer sets what it gives an item for, to what the last such item says. -/
theorem read_eq_ok_iff {text : String} :
    read text = .ok l ↔ ∃ entries assigned, Toml.read? text = some entries ∧
      assigned? entries = some assigned ∧
      (∀ a ∈ assigned, ∃ x, Variable.ofItem a.2 a.1 = .ok x) ∧
      ∀ v : Variable, v.SetBy none (itemsFor v assigned) (l.value? v) := by
  have unset : ∀ v, empty.value? v = none := fun v => by cases v <;> rfl
  unfold read
  cases Toml.read? text with
  | none => simp
  | some entries =>
    simp only [readSections_eq_ok_iff, assign_eq_ok_iff, unset, Option.some.injEq,
      exists_and_left, exists_eq_left']

end Reading

end Layer

end LeaseCatalog
