import LeaseCatalog.Command.Run
import LeaseCatalog.Proofs.Finished

/-!
# Delivering a result in one command

A command delivers a result: it stores an artifact and makes a key stand for it. These are two
requests. The first checks the dataset, the name of the artifact and the instant, and only the
second checks the name of the tag. So the artifact stays behind if the name of the tag is all that
is wrong, unless the dataset had an artifact of its name before. Every other delivery that fails
leaves the catalog as it was (`Traffic.failed_delivery_leaves_artifact`).

All ways in which the command can end are those of `Session.Delivers`, and what they have in common
is read off there.
-/

namespace LeaseCatalog

/-! ## Soundness of keys and artifacts -/

theorem firstFault?_append (front back : List (Field × String)) :
    firstFault? (front ++ back) = (firstFault? front).or (firstFault? back) := by
  induction front with
  | nil => rfl
  | cons first rest ih =>
    obtain ⟨field, s⟩ := first
    rw [List.cons_append, firstFault?, firstFault?]
    cases fieldFault? s with
    | none => exact ih
    | some fault => rfl

/-- What is wrong with a key of a sound dataset is wrong with the name of its tag. -/
theorem Key.tag_fault {key : Key} {e : Error} (sound : key.dataset.validate = .ok ())
    (invalid : key.validate = .error e) :
    ∃ fault, fieldFault? key.tag = some fault ∧ e = .invalidField .tag fault := by
  have faults : key.fault? = key.dataset.fault?.or (firstFault? [(.tag, key.tag)]) :=
    firstFault?_append _ _
  unfold Dataset.validate at sound
  unfold Key.validate at invalid
  cases hd : key.dataset.fault? with
  | some fault =>
    rw [hd] at sound
    cases sound
  | none =>
    rw [faults, hd, Option.none_or, firstFault?] at invalid
    cases ht : fieldFault? key.tag with
    | some fault =>
      rw [ht] at invalid
      cases invalid
      exact ⟨fault, rfl, rfl⟩
    | none =>
      rw [ht] at invalid
      cases invalid

/-- An artifact that can be stored. -/
structure Artifact.Sound (a : Artifact) : Prop where
  /-- Its dataset is sound. -/
  dataset : a.dataset.validate = .ok ()
  /-- It has a name. -/
  id : Text.allBlank a.id = false
  /-- Rows can hold its instant. -/
  createdAt : a.createdAt.Storable

theorem Artifact.Sound.artifactRow {a : Artifact} (h : a.Sound) :
    Tags.artifactRow a = .ok a.row := by
  unfold Tags.artifactRow
  rw [h.dataset, ok_bind, h.id, if_neg Bool.false_ne_true, storedText_eq, if_pos h.createdAt]
  rfl

theorem Tags.sound_of_artifactRow {a : Artifact} {row : ArtifactRow}
    (h : artifactRow a = .ok row) : a.Sound := by
  obtain ⟨storable, -⟩ := artifactRow_eq_ok h
  obtain ⟨_, valid, h⟩ := bind_eq_ok h
  split_ifs at h with blank
  exact ⟨valid, Bool.eq_false_iff.mpr blank, storable⟩

/-! ## The two requests -/

namespace Tables

/-- Tables in which a dataset has no artifact of a name. -/
def Lacks (t : Tables) (dataset : Dataset) (id : String) : Prop :=
  ∃ rows, t.artifacts = some rows ∧ findArtifact rows dataset id = none

/-- Tables with an artifact more. -/
def withArtifact (t : Tables) (a : Artifact) : Tables :=
  { t with artifacts := some (a.row :: t.artifacts.getD []) }

end Tables

section Requests

variable (d : Dialect) {t : Tables} {a : Artifact}

/-- An artifact that is not sound is not stored. -/
theorem perform_createArtifact_unsound (h : ¬ a.Sound) :
    ∃ e, (Request.createArtifact a).perform d t = ((.error e : Except Error Unit), t) := by
  cases hrow : Tags.artifactRow a with
  | ok row => exact absurd (Tags.sound_of_artifactRow hrow) h
  | error e =>
    refine ⟨e, ?_⟩
    change Request.changing t (Tags.createArtifact d t a) = _
    unfold Tags.createArtifact
    rw [hrow]
    rfl

/-- A sound artifact is there afterwards, and all else is as it was. -/
theorem perform_createArtifact_sound (h : a.Sound) {rows : List ArtifactRow}
    (hrows : t.artifacts = some rows) :
    (Request.createArtifact a).perform d t =
      ((.ok () : Except Error Unit),
        if (Tables.findArtifact rows a.dataset a.id).isSome then t else t.withArtifact a) := by
  change Request.changing t (Tags.createArtifact d t a) = _
  unfold Tags.createArtifact Tables.withArtifact
  rw [h.artifactRow, ok_bind, Tables.insertArtifact_eq hrows, Dialect.executed_ok, hrows]
  rfl

/-- A key that is not sound cannot be tagged. -/
theorem perform_addTag_invalid {key : Key} {e : Error} (h : key.validate = .error e) (id : String)
    (now : Instant) :
    (Request.addTag key id now).perform d t = ((.error e : Except Error Unit), t) := by
  change Request.changing t (Tags.add d t key id now) = _
  unfold Tags.add Tags.tagRow
  rw [h]
  rfl

end Requests

/-! ## The command -/

/-- A delivery is no business of the manager: the command reads its metadata and asks the stores. -/
theorem Session.runCommand_tag (s : Session) (i : Nat) (now : Instant) (key : Key) (id : String)
    (text : Option String) :
    s.runCommand i now (.tag key id text) =
      match Metadata.ofArgument text with
      | .error e => (.error e, s)
      | .ok metadata =>
        let ran := Command.runTag (.ofTables s.dialect) now key id metadata s.tables
        (ran.1, { s with tables := ran.2 }) := by
  unfold runCommand Command.run
  dsimp only
  cases Metadata.ofArgument text with
  | error e => exact congrArg (Prod.mk _) (s.replace_self i)
  | ok metadata =>
    dsimp only
    rw [s.replace_self i]

namespace Command

/-- The artifact that a command delivers. -/
def delivered (key : Key) (id : String) (metadata : Metadata) (now : Instant) : Artifact :=
  ⟨id, key.dataset, metadata, now⟩

variable {key : Key} {id : String} {metadata : Metadata} {now : Instant}

section Stores

variable {σ : Type} {stores : Stores σ} {s stored added : σ} {e : Error}

theorem runTag_of_refused
    (h : stores (.createArtifact (delivered key id metadata now)) s =
      ((.error e : Except Error Unit), stored)) :
    runTag stores now key id metadata s = (.error e, stored) := by
  unfold delivered at h
  unfold runTag
  rw [h]

theorem runTag_of_untagged
    (h : stores (.createArtifact (delivered key id metadata now)) s =
      ((.ok () : Except Error Unit), stored))
    (h' : stores (.addTag key id now) stored = ((.error e : Except Error Unit), added)) :
    runTag stores now key id metadata s = (.error e, added) := by
  unfold delivered at h
  unfold runTag
  rw [h]
  dsimp only
  rw [h']

theorem runTag_of_tagged
    (h : stores (.createArtifact (delivered key id metadata now)) s =
      ((.ok () : Except Error Unit), stored))
    (h' : stores (.addTag key id now) stored = ((.ok () : Except Error Unit), added)) :
    runTag stores now key id metadata s = (.ok (tagged key id), added) := by
  unfold delivered at h
  unfold runTag
  rw [h]
  dsimp only
  rw [h']

end Stores

variable (d : Dialect) {t : Tables}

theorem runTag_unsound (h : ¬ (delivered key id metadata now).Sound) :
    ∃ e, runTag (.ofTables d) now key id metadata t = (.error e, t) := by
  obtain ⟨e, refused⟩ := perform_createArtifact_unsound d (t := t) h
  exact ⟨e, runTag_of_refused refused⟩

/-- Of a key that is not sound only the artifact is delivered. -/
theorem runTag_invalid (sound : (delivered key id metadata now).Sound) {rows : List ArtifactRow}
    (hrows : t.artifacts = some rows) {e : Error} (invalid : key.validate = .error e) :
    runTag (.ofTables d) now key id metadata t =
      (.error e, if (Tables.findArtifact rows key.dataset id).isSome then t
        else t.withArtifact (delivered key id metadata now)) := by
  have stored := perform_createArtifact_sound d sound hrows
  exact runTag_of_untagged stored (perform_addTag_invalid d invalid id now)

/-- A sound artifact under a sound key is delivered. -/
theorem runTag_sound {ds : List Delivery} (h : t.Delivered ds)
    (sound : (delivered key id metadata now).Sound) (valid : key.validate = .ok ()) :
    ∃ t', runTag (.ofTables d) now key id metadata t = (.ok (tagged key id), t') ∧
      t'.Delivered (ds ++ [.stored (delivered key id metadata now)] ++ [.tagged key id now]) := by
  obtain ⟨rows, hrows, -⟩ := h.artifacts
  have stored := perform_createArtifact_sound d sound hrows
  have kept := h.perform d (.createArtifact (delivered key id metadata now))
  rw [stored] at kept
  have there : (firstStored? (ds ++ [.stored (delivered key id metadata now)])
      key.dataset id).isSome = true :=
    firstStored?_isSome_iff.mpr ⟨_, List.mem_append_right _ (List.mem_singleton_self _), rfl, rfl⟩
  obtain ⟨t', added, delivered'⟩ := kept.add_accepted d valid sound.createdAt there
  exact ⟨t', runTag_of_tagged stored (congrArg (Request.changing _) added), delivered'⟩

end Command

/-! ## How the command ends -/

theorem lastTagged?_append_tagged (ds : List Delivery) (key : Key) (id : String) (now : Instant) :
    lastTagged? (ds ++ [.tagged key id now]) key = some (id, now) := by
  rw [lastTagged?_append, Delivery.tag?, if_pos rfl]
  rfl

/-- How a command that delivers a result ends, and what it leaves. -/
inductive Session.Delivers (s : Session) (ds : List Delivery) (key : Key) (id : String)
    (text : Option String) (now : Instant) : Except Error Json × Session → Prop
  /-- There is no artifact that could be stored: the metadata are the text of no document, or the
  artifact is not sound. -/
  | refused {e : Error} (unsound : ∀ metadata, Metadata.ofArgument text = .ok metadata →
      ¬ (Command.delivered key id metadata now).Sound) :
      Delivers s ds key id text now (.error e, s)
  /-- The key is not sound, and the artifact is nothing new. -/
  | old {e : Error} (invalid : key.validate = .error e) (there : ¬ s.tables.Lacks key.dataset id) :
      Delivers s ds key id text now (.error e, s)
  /-- The key is not sound, but the artifact has been stored. -/
  | stray {metadata : Metadata} {e : Error} (parsed : Metadata.ofArgument text = .ok metadata)
      (sound : (Command.delivered key id metadata now).Sound)
      (invalid : key.validate = .error e) (new : s.tables.Lacks key.dataset id) :
      Delivers s ds key id text now (.error e,
        { s with tables := s.tables.withArtifact (Command.delivered key id metadata now) })
  /-- The artifact has been stored, and the key stands for it. -/
  | tagged {metadata : Metadata} {t : Tables} (parsed : Metadata.ofArgument text = .ok metadata)
      (sound : (Command.delivered key id metadata now).Sound) (valid : key.validate = .ok ())
      (known : t.Delivered
        (ds ++ [.stored (Command.delivered key id metadata now)] ++ [.tagged key id now])) :
      Delivers s ds key id text now (.ok (Command.tagged key id), { s with tables := t })

theorem Session.runCommand_delivers {s : Session} {ds : List Delivery}
    (known : s.tables.Delivered ds) (i : Nat) (now : Instant) (key : Key) (id : String)
    (text : Option String) :
    s.Delivers ds key id text now (s.runCommand i now (.tag key id text)) := by
  obtain ⟨rows, hrows, -⟩ := known.artifacts
  rw [s.runCommand_tag]
  cases parsed : Metadata.ofArgument text with
  | error e =>
    refine .refused fun metadata parsed' => ?_
    rw [parsed] at parsed'
    cases parsed'
  | ok metadata =>
    dsimp only
    by_cases sound : (Command.delivered key id metadata now).Sound
    · cases checked : key.validate with
      | ok _ =>
        obtain ⟨t, ran, known'⟩ := Command.runTag_sound s.dialect known sound checked
        rw [ran]
        exact .tagged parsed sound checked known'
      | error e =>
        rw [Command.runTag_invalid s.dialect sound hrows checked]
        cases found : Tables.findArtifact rows key.dataset id with
        | none => exact .stray parsed sound checked ⟨rows, hrows, found⟩
        | some row =>
          refine .old checked ?_
          rintro ⟨rows', hrows', absent⟩
          rw [hrows] at hrows'
          cases hrows'
          rw [found] at absent
          cases absent
    · obtain ⟨e, ran⟩ := Command.runTag_unsound s.dialect (t := s.tables) sound
      rw [ran]
      refine .refused fun metadata' parsed' => ?_
      rw [parsed] at parsed'
      cases parsed'
      exact sound

namespace Session.Delivers

variable {s : Session} {ds : List Delivery} {key : Key} {id : String} {text : Option String}
  {now : Instant} {ran : Except Error Json × Session}

/-- What is sound is delivered, and nothing else. -/
theorem succeeds_iff (h : s.Delivers ds key id text now ran) :
    (∃ document, ran.1 = .ok document) ↔
      key.validate = .ok () ∧ ∃ metadata, Metadata.ofArgument text = .ok metadata ∧
        (Command.delivered key id metadata now).Sound := by
  cases h with
  | refused unsound =>
    refine ⟨nofun, ?_⟩
    rintro ⟨-, metadata, parsed, sound⟩
    exact absurd sound (unsound metadata parsed)
  | old invalid | stray _ _ invalid =>
    refine ⟨nofun, ?_⟩
    rintro ⟨valid, -⟩
    rw [invalid] at valid
    cases valid
  | tagged parsed sound valid => exact ⟨fun _ => ⟨valid, _, parsed, sound⟩, fun _ => ⟨_, rfl⟩⟩

/-- A key that was tagged stands for its artifact. -/
theorem resolves (h : s.Delivers ds key id text now ran) {document : Json}
    (ok : ran.1 = .ok document) :
    document = Command.tagged key id ∧
      ∃ metadata createdAt, (ran.2.step (.ask (.getTag key))).1 =
        (.ok ⟨key, ⟨id, key.dataset, metadata, createdAt⟩, now.kept⟩ : Except Error Tag) := by
  cases h with
  | refused | old | stray => cases ok
  | tagged _ _ _ known =>
    cases ok
    obtain ⟨a, -, shown⟩ := known.get_tagged s.dialect (lastTagged?_append_tagged _ key id now)
    exact ⟨rfl, _, _, shown⟩

/-- A failure that changes anything is one over the name of the tag, where a sound artifact was
delivered that is new. -/
theorem changes (h : s.Delivers ds key id text now ran) {e : Error} (failed : ran.1 = .error e)
    (changed : ran.2 ≠ s) :
    (∃ fault, fieldFault? key.tag = some fault ∧ e = .invalidField .tag fault) ∧
      s.tables.Lacks key.dataset id ∧
        ∃ metadata, Metadata.ofArgument text = .ok metadata ∧
          (Command.delivered key id metadata now).Sound := by
  cases h with
  | refused | old => exact absurd rfl changed
  | stray parsed sound invalid new =>
    cases failed
    exact ⟨Key.tag_fault sound.dataset invalid, new, _, parsed, sound⟩
  | tagged => cases failed

/-- That artifact is left behind, and nothing else. -/
theorem strays (h : s.Delivers ds key id text now ran) {e : Error} {metadata : Metadata}
    (invalid : key.validate = .error e) (new : s.tables.Lacks key.dataset id)
    (parsed : Metadata.ofArgument text = .ok metadata)
    (sound : (Command.delivered key id metadata now).Sound) :
    ran = (.error e,
      { s with tables := s.tables.withArtifact (Command.delivered key id metadata now) }) := by
  cases h with
  | refused unsound => exact absurd sound (unsound metadata parsed)
  | old _ there => exact absurd new there
  | stray parsed' _ invalid' =>
    rw [parsed] at parsed'
    cases parsed'
    rw [invalid] at invalid'
    cases invalid'
    rfl
  | tagged _ _ valid =>
    rw [valid] at invalid
    cases invalid

end Session.Delivers

namespace Traffic

/-- In any catalog that has been used, the command delivers exactly what is sound, and the key then
stands for the artifact. If it fails, it leaves everything as it was, unless the name of the tag is
all that is wrong and the dataset had no artifact of the name: that artifact it leaves behind. -/
theorem failed_delivery_leaves_artifact (s : Session) (operations : Nat → Nat × Operation)
    (turns : List Turn) (hs : s.tables = .initial) (i : Nat) (now : Instant) (key : Key)
    (id : String) (text : Option String) :
    let before := ((start s operations).run turns).session
    let ran := before.runCommand i now (.tag key id text)
    ((∃ document, ran.1 = .ok document) ↔
      key.validate = .ok () ∧ ∃ metadata, Metadata.ofArgument text = .ok metadata ∧
        (Command.delivered key id metadata now).Sound) ∧
    (∀ document, ran.1 = .ok document → document = Command.tagged key id ∧
      ∃ metadata createdAt, (ran.2.step (.ask (.getTag key))).1 =
        (.ok ⟨key, ⟨id, key.dataset, metadata, createdAt⟩, now.kept⟩ : Except Error Tag)) ∧
    (∀ e, ran.1 = .error e → ran.2 ≠ before →
      (∃ fault, fieldFault? key.tag = some fault ∧ e = .invalidField .tag fault) ∧
        before.tables.Lacks key.dataset id ∧
          ∃ metadata, Metadata.ofArgument text = .ok metadata ∧
            (Command.delivered key id metadata now).Sound) ∧
    ∀ e metadata, key.validate = .error e → before.tables.Lacks key.dataset id →
      Metadata.ofArgument text = .ok metadata → (Command.delivered key id metadata now).Sound →
        ran = (.error e, { before with
          tables := before.tables.withArtifact (Command.delivered key id metadata now) }) := by
  intro before ran
  have known : before.tables.Delivered ((start s operations).deliveries turns) := delivered_run hs
  have ends : before.Delivers _ key id text now ran :=
    Session.runCommand_delivers known i now key id text
  exact ⟨ends.succeeds_iff, fun _ => ends.resolves, fun _ => ends.changes, fun _ _ => ends.strays⟩

/-- A key that lacks nothing but the name of its tag. -/
def namelessKey : Key := ⟨(resultOf none).dataset, ""⟩

theorem nameless_delivery :
    Session.newSession.runCommand 0 .epoch (.tag namelessKey "result" none) =
      (.error (.invalidField .tag .blank), { Session.newSession with
        tables := Tables.initial.withArtifact (resultOf none) }) := by
  obtain ⟨-, -, -, left⟩ := failed_delivery_leaves_artifact Session.newSession
    retaggingOperations [] rfl 0 .epoch namelessKey "result" none
  exact left (.invalidField .tag .blank) none rfl ⟨[], rfl, rfl⟩ rfl ⟨rfl, rfl, by decide⟩

/-- Not every command that fails leaves the tables as they were. -/
theorem delivery_not_all_or_nothing :
    let ran := Session.newSession.runCommand 0 .epoch (.tag namelessKey "result" none)
    ran.1 = .error (.invalidField .tag .blank) ∧
      ran.2.tables ≠ Session.newSession.tables :=
  ⟨rfl, by decide⟩

end Traffic

end LeaseCatalog
