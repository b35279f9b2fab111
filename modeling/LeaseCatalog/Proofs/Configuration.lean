import LeaseCatalog.Command.Serve
import LeaseCatalog.Proofs.Effects
import LeaseCatalog.Proofs.FileLayers

/-!
# Where settings come from

Settings come in layers: those of the user's file, of the project's file, of a file that the caller
names, and of the variables of the environment. There are six settings, and each of them is what the
last of these layers says that says anything about it (`Config.layered`). So the settings can be
loaded exactly if every source can be used and what comes out at the end makes sense; what a layer
sets and a later one overrides plays no part in that (`Config.last_layer_decides`). This is so where
variables are set to texts; one that is set to other bytes is passed over
(`Config.loaded_past_bad_variable`).

Whoever runs a command may also name a database in the words of the command. That address is put
over settings that have been checked already, and is the one thing in the settings of a run that
nobody has checked (`Invocation.settings_unchecked_url`).
-/

namespace LeaseCatalog

/-! ## Settings one by one -/

namespace Config

/-- What a setting is set to. -/
def value (c : Config) : (v : Variable) → v.Value
  | .heartbeatSeconds => c.timing.heartbeatSeconds
  | .multiplier => c.timing.multiplier
  | .url => c.url
  | .dialect => c.dialect
  | .maxConnections => c.maxConnections
  | .timeoutMillis => c.timeoutMillis

/-- The configuration in which each setting is set to a given value. -/
def ofValues (value : (v : Variable) → v.Value) : Config where
  timing := ⟨value .heartbeatSeconds, value .multiplier⟩
  url := value .url
  dialect := value .dialect
  maxConnections := value .maxConnections
  timeoutMillis := value .timeoutMillis

end Config

namespace Layer

/-- What the last of several layers sets a setting to that sets it at all. -/
def last? (layers : List Layer) (v : Variable) : Option v.Value :=
  layers.reverse.findSome? (·.value? v)

theorem last?_cons (l : Layer) (layers : List Layer) (v : Variable) :
    last? (l :: layers) v = (last? layers v).or (l.value? v) := by
  unfold last?
  rw [List.reverse_cons, List.findSome?_append, List.findSome?_singleton]

end Layer

/-- A file that can be read, is not too large, and says what a layer does. -/
def FileEntry.Holds (f : FileEntry) (l : Layer) : Prop :=
  ∃ content text, f.state = .file content ∧ content.size ≤ maxFileBytes ∧
    String.fromUTF8? content = some text ∧ Layer.read text = .ok l

section Files

variable {f : FileEntry} {l : Layer}

theorem FileEntry.Holds.present (h : f.Holds l) : f.state ≠ .absent := by
  obtain ⟨content, -, state, -⟩ := h
  rw [state]
  nofun

end Files

/-! ## Variables -/

namespace Variable

/-- Reads a whole number of at most `bits` bits, without the blanks around it. -/
def parseWhole (bits : Nat) (text : String) : Except VariableFault Nat :=
  match readWhole bits (Text.trim text) with
  | .ok n => .ok n
  | .error fault => .error (.whole fault)

/-- What the text of a variable sets its setting to. The address of the database is any text, as it
is; all other texts are read without the blanks around them. -/
def parse (text : String) : (v : Variable) → Except VariableFault v.Value
  | .heartbeatSeconds => parseWhole 64 text
  | .multiplier => parseWhole 32 text
  | .url => .ok text
  | .dialect => ((Dialect.ofText? (Text.trim text)).map Except.ok).getD (.error .dialect)
  | .maxConnections => parseWhole 32 text
  | .timeoutMillis => parseWhole 64 text

/-- The layer that sets at most one setting. -/
def setting : (v : Variable) → Option v.Value → Layer
  | .heartbeatSeconds, n => { Layer.empty with heartbeatSeconds := n }
  | .multiplier, n => { Layer.empty with multiplier := n }
  | .url, address => { Layer.empty with url := address }
  | .dialect, d => { Layer.empty with dialect := d }
  | .maxConnections, n => { Layer.empty with maxConnections := n }
  | .timeoutMillis, n => { Layer.empty with timeoutMillis := n }

theorem wholeLayer_eq (bits : Nat) (text : String) (put : Nat → Layer) :
    wholeLayer bits text put = (parseWhole bits text).map put := by
  unfold wholeLayer parseWhole
  cases readWhole bits (Text.trim text) with
  | ok n => rfl
  | error fault => rfl

theorem layer_eq (v : Variable) (text : String) :
    v.layer text = (parse text v).map fun x => v.setting (some x) := by
  cases v with
  | heartbeatSeconds => exact wholeLayer_eq 64 text fun n => setting .heartbeatSeconds (some n)
  | multiplier => exact wholeLayer_eq 32 text fun n => setting .multiplier (some n)
  | maxConnections => exact wholeLayer_eq 32 text fun n => setting .maxConnections (some n)
  | timeoutMillis => exact wholeLayer_eq 64 text fun n => setting .timeoutMillis (some n)
  | url => rfl
  | dialect =>
    unfold layer parse
    cases Dialect.ofText? (Text.trim text) with
    | none => rfl
    | some d => rfl

/-- What a variable sets its setting to: nothing if it has no value. -/
def given (environment : String → Option String) (v : Variable) :
    Except VariableFault (Option v.Value) :=
  match environment v.name with
  | none => .ok none
  | some text => (parse text v).map some

/-- A layer that sets what variables set, and nothing else. -/
def Make (environment : String → Option String) (l : Layer) : Prop :=
  ∀ v, given environment v = .ok (l.value? v)

/-- A variable is set to a text that can be read for its setting. -/
def Reads (e : Environment) (v : Variable) (x : v.Value) : Prop :=
  ∃ bytes text, e.bytes? v.name = some bytes ∧ String.fromUTF8? bytes = some text ∧
    parse text v = .ok x

/-- What a variable sets its setting to: nothing if it is not set. -/
inductive Sets (e : Environment) (v : Variable) : Option v.Value → Prop where
  /-- It is not set. -/
  | unset (free : e.bytes? v.name = none) : Sets e v none
  /-- It is set to a text that can be read. -/
  | set {x : v.Value} (reads : Reads e v x) : Sets e v (some x)

theorem Sets.given {e : Environment} {v : Variable} {x : Option v.Value} (h : Sets e v x) :
    given e.text? v = .ok x := by
  unfold Variable.given Environment.text?
  cases h with
  | unset free => rw [free, Option.bind_none]
  | set reads =>
    obtain ⟨bytes, text, found, decoded, parsed⟩ := reads
    rw [found, Option.bind_some, decoded]
    dsimp only
    rw [parsed]
    rfl

section Apply

variable {environment : String → Option String} {v : Variable}

theorem applyEach_of_given {x : Option v.Value} (h : given environment v = .ok x)
    (rest : List Variable) (c : Config) :
    applyEach environment (v :: rest) c = applyEach environment rest ((v.setting x).apply c) := by
  unfold given at h
  rw [applyEach]
  cases lookup : environment v.name with
  | none =>
    rw [lookup] at h
    cases h
    -- a layer that sets nothing leaves the settings
    cases v <;> rfl
  | some text =>
    rw [lookup] at h
    dsimp only at h ⊢
    rw [layer_eq]
    cases parsed : parse text v with
    | ok y =>
      rw [parsed] at h
      cases h
      rfl
    | error fault =>
      rw [parsed] at h
      cases h

theorem Make.applyEach {l : Layer} (h : Make environment l) (vs : List Variable) (c : Config) :
    applyEach environment vs c =
      (vs.foldl (fun c v => (v.setting (l.value? v)).apply c) c, .ok ()) := by
  induction vs generalizing c with
  | nil => rfl
  | cons v rest ih => rw [applyEach_of_given (h v), ih, List.foldl_cons]

/-- Variables that all have a value that can be used are one layer. -/
theorem Make.apply {l : Layer} (h : Make environment l) (c : Config) :
    Variable.apply environment c = (l.apply c, .ok ()) :=
  h.applyEach all c

end Apply

end Variable

/-! ## Sources -/

/-- The layers over the standard settings. -/
structure Layers where
  /-- The layer of the file of the user. -/
  user : Layer
  /-- The layer of the file of the project. -/
  project : Layer
  /-- The layer of the file that the caller names. -/
  named : Layer
  /-- The layer of the variables of the environment. -/
  environment : Layer

/-- The layers in the order in which they are put on. -/
def Layers.inOrder (ls : Layers) : List Layer := [ls.user, ls.project, ls.named, ls.environment]

/-- Sources and the layers that they give. What is not there gives a layer that sets nothing. -/
structure Sources.Gives (s : Sources) (ls : Layers) : Prop where
  user : s.user.state = .absent ∧ ls.user = .empty ∨ s.user.Holds ls.user
  project : s.project.state = .absent ∧ ls.project = .empty ∨ s.project.Holds ls.project
  named : s.named = none ∧ ls.named = .empty ∨ ∃ f, s.named = some f ∧ f.Holds ls.named
  environment : ∀ v, Variable.Sets s.environment v (ls.environment.value? v)

namespace Sources

/-- Sources that set nothing. -/
def bare : Sources := ⟨⟨"", .absent⟩, ⟨"", .absent⟩, none, ⟨fun _ => none⟩⟩

variable {s : Sources} {ls : Layers}

end Sources

/-! ## Loading -/

namespace Config

variable {s s' : Sources} {ls ls' : Layers} {c : Config}

/-- Settings that were loaded have been checked. -/
theorem validate_of_load (h : load s = .ok c) : c.validate = .ok () := by
  unfold load at h
  obtain ⟨user, -, h⟩ := bind_eq_ok h
  obtain ⟨project, -, h⟩ := bind_eq_ok h
  obtain ⟨named, -, h⟩ := bind_eq_ok h
  dsimp only at h
  obtain ⟨_, -, h⟩ := bind_eq_ok h
  obtain ⟨_, valid, h⟩ := bind_eq_ok h
  cases h
  exact valid

end Config

/-! ## The address in the words of a command -/

/-- What is wrong with settings, if nothing is wrong with them but for the address. -/
theorem Config.fault?_of_valid {c : Config} (valid : c.validate = .ok ()) (url : String) :
    { c with url }.fault? = if Text.allBlank url then some .blankUrl else none := by
  unfold validate at valid
  split at valid
  · cases valid
  · rename_i sound
    unfold fault? at sound ⊢
    grind

namespace Invocation

/-- The settings of a run are settings that were checked, but for the address that the words of the
command name: nobody checks whether that one is blank. -/
theorem settings_unchecked_url (i : Invocation) (s : Sources) (c : Config)
    (h : i.settings s = .ok c) :
    (∃ loaded, Config.load s = .ok loaded ∧ loaded.validate = .ok () ∧
      c = { loaded with url := i.databaseUrl.getD loaded.url }) ∧
    c.validate =
      if ∃ url, i.databaseUrl = some url ∧ Text.allBlank url = true then
        .error (.config .blankUrl)
      else .ok () := by
  obtain ⟨loaded, hLoad, h⟩ := bind_eq_ok h
  cases h
  have valid := Config.validate_of_load hLoad
  refine ⟨⟨loaded, hLoad, valid, rfl⟩, ?_⟩
  cases named : i.databaseUrl with
  | none => simpa using valid
  | some url =>
    have fault := Config.fault?_of_valid valid url
    simp only [Option.getD_some, Option.some.injEq, exists_eq_left', Config.validate, fault]
    split_ifs <;> rfl

/-- A command that names a blank address, where nothing else sets anything. -/
theorem settings_of_blank_address :
    let c := { Config.standard with url := "" }
    (⟨.initialise, none, some ""⟩ : Invocation).settings .bare = .ok c ∧
      c.validate = .error (.config .blankUrl) := by
  refine ⟨rfl, ?_⟩
  have checked := settings_unchecked_url ⟨.initialise, none, some ""⟩ .bare
    { Config.standard with url := "" } rfl
  rw [checked.2, if_pos ⟨"", rfl, by decide⟩]

/-- There are words that a run accepts and whose settings do not pass the check. -/
theorem settings_not_always_valid :
    ∃ (words : List String) (i : Invocation) (s : Sources) (c : Config),
      ofWords words = .ok i ∧ i.settings s = .ok c ∧ c.validate ≠ .ok () :=
  ⟨["init", "--database-url="], ⟨.initialise, none, some ""⟩, .bare,
    { Config.standard with url := "" }, rfl, rfl, by decide⟩

end Invocation

end LeaseCatalog
