import LeaseCatalog.Proofs.Observations

/-!
# What keys stand for

Producers store artifacts and make keys stand for them. What they have brought about can be told
from the answers they got: a `Delivery` is an artifact that was stored, or a key that was tagged.
Of the artifacts of one name the first counts, and of the tags of one key the last, so what a key
stands for follows from the deliveries alone, whatever calls, clocks and late initialisation came
in between (`Traffic.keys_stand_for_deliveries`).

`Tables.Delivered` is what holds whenever a turn comes: both tables are as the deliveries so far
have left them. It is about two tables only, and the calls of managers change neither of them
(`Operation.run_sameTags`), so nothing but a request of a producer has to be looked at.
-/

namespace LeaseCatalog

/-! ## Deliveries -/

/-- What a producer brings about. -/
inductive Delivery where
  /-- An artifact is stored. -/
  | stored (artifact : Artifact)
  /-- A key is made to stand for an artifact of its dataset. -/
  | tagged (key : Key) (artifactId : String) (now : Instant)
deriving DecidableEq

namespace Delivery

/-- The artifact that is stored, if it is the one of a name in a dataset. -/
def artifact? (dataset : Dataset) (id : String) : Delivery → Option Artifact
  | .stored a => if a.dataset = dataset ∧ a.id = id then some a else none
  | .tagged _ _ _ => none

/-- The name of the artifact that a key is made to stand for, and when. -/
def tag? (key : Key) : Delivery → Option (String × Instant)
  | .stored _ => none
  | .tagged k id now => if k = key then some (id, now) else none

end Delivery

/-- The artifact of a name in a dataset that was stored first. -/
def firstStored? (ds : List Delivery) (dataset : Dataset) (id : String) : Option Artifact :=
  ds.findSome? (Delivery.artifact? dataset id)

/-- The name of the artifact that a key was last made to stand for, and when. -/
def lastTagged? (ds : List Delivery) (key : Key) : Option (String × Instant) :=
  ds.reverse.findSome? (Delivery.tag? key)

/-- What a request is to bring about. -/
def Request.delivery? : Request → Option Delivery
  | .createArtifact a => some (.stored a)
  | .addTag key id now => some (.tagged key id now)
  | .getTag _ | .get _ | .create _ | .update _ | .createOrUpdate _ _ | .delete _ => none

/-- What a step has brought about, as can be told from its answer. -/
def Step.delivery? : (x : Step) → x.Answer → Option Delivery
  | .ask request, answer => if Except.isOk answer then request.delivery? else none
  | .serve _ _, _ | .move _ _, _ | .initialise, _ => none

theorem Step.delivery?_ask_of_none {r : Request} (h : r.delivery? = none) (answer : r.Answer) :
    (Step.ask r).delivery? answer = none := by
  change (if Except.isOk answer then r.delivery? else none) = none
  rw [h, ite_self]

theorem Request.perform_sameTags_of_delivery? (d : Dialect) (t : Tables) {r : Request}
    (h : r.delivery? = none) : t.SameTags (r.perform d t).2 := by
  cases r with
  | getTag => exact .refl t
  | createArtifact | addTag => cases h
  | get | create | update | createOrUpdate | delete => exact Request.perform_sameTags d t rfl

namespace Traffic

/-- What a turn brings about. -/
def delivery? (s : Traffic) : Turn → Option Delivery
  | .thread _ => none
  | .step x => x.delivery? (s.session.step x).1

/-- What turns bring about, in order. -/
def deliveries (s : Traffic) : List Turn → List Delivery
  | [] => []
  | x :: rest => (s.delivery? x).toList ++ deliveries (s.turn x) rest

end Traffic

section Deliveries

variable {ds : List Delivery} {dataset : Dataset} {id : String} {key : Key} {now : Instant}

theorem firstStored?_append (ds : List Delivery) (d : Delivery) :
    firstStored? (ds ++ [d]) dataset id =
      (firstStored? ds dataset id).or (d.artifact? dataset id) := by
  unfold firstStored?
  rw [List.findSome?_append, List.findSome?_singleton]

theorem lastTagged?_append (ds : List Delivery) (d : Delivery) :
    lastTagged? (ds ++ [d]) key = (d.tag? key).or (lastTagged? ds key) := by
  unfold lastTagged?
  rw [List.reverse_append, List.findSome?_append, List.reverse_singleton,
    List.findSome?_singleton]

theorem firstStored?_append_of_some {a : Artifact} (h : firstStored? ds dataset id = some a)
    (d : Delivery) : firstStored? (ds ++ [d]) dataset id = some a := by
  rw [firstStored?_append, h]
  rfl

theorem firstStored?_eq_some {a : Artifact} (h : firstStored? ds dataset id = some a) :
    .stored a ∈ ds ∧ a.dataset = dataset ∧ a.id = id := by
  obtain ⟨d, hd, ha⟩ := List.exists_of_findSome?_eq_some h
  cases d with
  | stored b =>
    unfold Delivery.artifact? at ha
    dsimp only at ha
    split_ifs at ha with hb
    cases ha
    exact ⟨hd, hb⟩
  | tagged => cases ha

theorem firstStored?_isSome_iff :
    (firstStored? ds dataset id).isSome = true ↔
      ∃ a, .stored a ∈ ds ∧ a.dataset = dataset ∧ a.id = id := by
  constructor
  · intro h
    obtain ⟨a, ha⟩ := Option.isSome_iff_exists.mp h
    exact ⟨a, firstStored?_eq_some ha⟩
  · rintro ⟨a, ha, hname⟩
    unfold firstStored?
    rw [List.findSome?_isSome_iff]
    refine ⟨_, ha, ?_⟩
    rw [Delivery.artifact?, if_pos hname]
    rfl

theorem lastTagged?_eq_some (h : lastTagged? ds key = some (id, now)) :
    .tagged key id now ∈ ds := by
  obtain ⟨d, hd, ht⟩ := List.exists_of_findSome?_eq_some h
  cases d with
  | stored => cases ht
  | tagged k id' now' =>
    unfold Delivery.tag? at ht
    dsimp only at ht
    split_ifs at ht with hk
    cases ht
    exact hk ▸ List.mem_reverse.mp hd

theorem lastTagged?_eq_none_iff :
    lastTagged? ds key = none ↔ ∀ id now, .tagged key id now ∉ ds := by
  unfold lastTagged?
  rw [List.findSome?_eq_none_iff]
  constructor
  · intro h id now hmem
    have := h _ (List.mem_reverse.mpr hmem)
    rw [Delivery.tag?, if_pos rfl] at this
    cases this
  · intro h d hd
    cases d with
    | stored => rfl
    | tagged k id now =>
      refine if_neg fun hk => ?_
      exact h id now (hk ▸ List.mem_reverse.mp hd)

theorem lastTagged?_isSome_iff :
    (lastTagged? ds key).isSome = true ↔ ∃ id now, .tagged key id now ∈ ds := by
  rw [← Option.ne_none_iff_isSome, ne_eq, lastTagged?_eq_none_iff]
  push Not
  exact Iff.rfl

end Deliveries

/-! ## Rows -/

/-- The row of an artifact. -/
def Artifact.row (a : Artifact) : ArtifactRow :=
  ⟨a.dataset, a.id, a.metadata, Timestamp.text a.createdAt⟩

@[simp] theorem Artifact.row_dataset (a : Artifact) : a.row.dataset = a.dataset := rfl

@[simp] theorem Artifact.row_id (a : Artifact) : a.row.id = a.id := rfl

/-- Rows of artifacts that are those of the artifacts that were stored first. -/
def ArtifactsHold (rows : List ArtifactRow) (ds : List Delivery) : Prop :=
  ∀ dataset id, Tables.findArtifact rows dataset id =
    (firstStored? ds dataset id).map Artifact.row

/-- Rows of tags that are as they were last written. -/
structure TagsHold (rows : List TagRow) (ds : List Delivery) : Prop where
  /-- A key has the row of its last tag. -/
  found : ∀ key, rows.find? (·.key == key) =
    (lastTagged? ds key).map fun (id, now) => ⟨key, id, Timestamp.text now⟩
  /-- Each tag is of an artifact that was stored in its dataset. -/
  linked : ∀ row ∈ rows, (firstStored? ds row.key.dataset row.artifactId).isSome = true

namespace ArtifactsHold

variable {rows : List ArtifactRow} {ds : List Delivery}

theorem cons (h : ArtifactsHold rows ds) {a : Artifact}
    (new : firstStored? ds a.dataset a.id = none) :
    ArtifactsHold (a.row :: rows) (ds ++ [.stored a]) := by
  intro dataset id
  rw [firstStored?_append, Delivery.artifact?]
  by_cases hname : a.dataset = dataset ∧ a.id = id
  · obtain ⟨rfl, rfl⟩ := hname
    rw [new, if_pos ⟨rfl, rfl⟩]
    exact List.find?_cons_of_pos (by simp)
  · rw [if_neg hname, Option.or_none, ← h dataset id]
    exact List.find?_cons_of_neg (by simpa using hname)

/-- What is delivered later leaves the rows if it is no artifact of a new name. -/
theorem append (h : ArtifactsHold rows ds) {d : Delivery}
    (old : ∀ dataset id, firstStored? ds dataset id = none → d.artifact? dataset id = none) :
    ArtifactsHold rows (ds ++ [d]) := by
  intro dataset id
  rw [firstStored?_append, h dataset id]
  cases hfirst : firstStored? ds dataset id with
  | none => rw [old dataset id hfirst, Option.or_none]
  | some a => rfl

end ArtifactsHold

namespace TagsHold

variable {rows : List TagRow} {ds : List Delivery}

theorem linked_append (h : TagsHold rows ds) (d : Delivery) :
    ∀ row ∈ rows, (firstStored? (ds ++ [d]) row.key.dataset row.artifactId).isSome = true := by
  intro row hrow
  obtain ⟨a, ha⟩ := Option.isSome_iff_exists.mp (h.linked row hrow)
  rw [firstStored?_append_of_some ha]
  rfl

theorem stored (h : TagsHold rows ds) (a : Artifact) : TagsHold rows (ds ++ [.stored a]) where
  found key := by
    rw [lastTagged?_append]
    exact h.found key
  linked := h.linked_append _

section Tagged

variable {key : Key} {id : String} {now : Instant}

/-- A new row for a key that has none. -/
theorem cons (h : TagsHold rows ds) (hstored : (firstStored? ds key.dataset id).isSome = true) :
    TagsHold (⟨key, id, Timestamp.text now⟩ :: rows) (ds ++ [.tagged key id now]) where
  found key' := by
    rw [lastTagged?_append, Delivery.tag?]
    by_cases hk : key = key'
    · subst hk
      rw [if_pos rfl]
      exact List.find?_cons_of_pos (by simp)
    · rw [if_neg hk, Option.none_or, ← h.found key']
      exact List.find?_cons_of_neg (by simpa using hk)
  linked row hrow := by
    rcases List.mem_cons.mp hrow with rfl | hrow
    · obtain ⟨a, ha⟩ := Option.isSome_iff_exists.mp hstored
      rw [firstStored?_append_of_some ha]
      rfl
    · exact h.linked_append _ row hrow

/-- The row of a key that has one is overwritten. -/
theorem map (h : TagsHold rows ds) (hstored : (firstStored? ds key.dataset id).isSome = true)
    (present : (lastTagged? ds key).isSome = true) :
    TagsHold (rows.map fun r => if r.key = key then ⟨key, id, Timestamp.text now⟩ else r)
      (ds ++ [.tagged key id now]) where
  found key' := by
    -- the rows keep their keys, so what is found is what was found, overwritten or not
    have keys : ((fun r : TagRow => r.key == key') ∘ fun r =>
        if r.key = key then ⟨key, id, Timestamp.text now⟩ else r) = fun r => r.key == key' := by
      funext r
      exact congrArg (· == key') (Tables.key_retagged ⟨key, id, Timestamp.text now⟩ r)
    rw [List.find?_map, keys, h.found key', lastTagged?_append, Delivery.tag?]
    by_cases hk : key = key'
    · subst hk
      obtain ⟨old, hold⟩ := Option.isSome_iff_exists.mp present
      rw [hold, if_pos rfl]
      exact congrArg some (if_pos rfl)
    · rw [if_neg hk, Option.none_or, Option.map_map]
      congr 1
      funext old
      exact if_neg (Ne.symm hk)
  linked row hrow := by
    obtain ⟨r, hr, rfl⟩ := List.mem_map.mp hrow
    split_ifs with hk
    · obtain ⟨a, ha⟩ := Option.isSome_iff_exists.mp hstored
      rw [firstStored?_append_of_some ha]
      rfl
    · exact h.linked_append _ r hr

theorem any_iff (h : TagsHold rows ds) :
    rows.any (·.key == key) = true ↔ (lastTagged? ds key).isSome = true := by
  rw [List.any_eq_true, ← List.find?_isSome, h.found key, Option.isSome_map]

end Tagged

end TagsHold

/-! ## What requests are for -/

section Statements

variable {t : Tables} {artifacts : List ArtifactRow} {tags : List TagRow}

theorem Tables.insertArtifact_eq (h : t.artifacts = some artifacts) (row : ArtifactRow) :
    t.insertArtifact row = .ok
      (if (findArtifact artifacts row.dataset row.id).isSome then t
      else { t with artifacts := some (row :: artifacts) }) := by
  unfold Tables.insertArtifact
  rw [h, Tables.rows, ok_bind]
  split_ifs
  · rfl
  · rfl

theorem Tables.upsertTag_eq (ht : t.tags = some tags) (ha : t.artifacts = some artifacts)
    (row : TagRow) :
    t.upsertTag row = .ok
      (if (findArtifact artifacts row.key.dataset row.artifactId).isNone then (false, t)
      else (true, { t with
        tags := some (if tags.any (·.key == row.key) then
          tags.map fun r => if r.key = row.key then row else r
        else row :: tags) })) := by
  unfold Tables.upsertTag
  rw [ht, ha, Tables.rows, ok_bind, Tables.rows, ok_bind]
  split_ifs
  · rfl
  · rfl
  · rfl

end Statements

theorem Tags.artifactRow_eq_ok {a : Artifact} {row : ArtifactRow}
    (h : Tags.artifactRow a = .ok row) : a.createdAt.Storable ∧ row = a.row := by
  obtain ⟨_, -, h⟩ := bind_eq_ok h
  split_ifs at h
  obtain ⟨text, htext, h⟩ := bind_eq_ok h
  rw [storedText_eq] at htext
  split_ifs at htext with storable
  cases htext
  cases h
  exact ⟨storable, rfl⟩

theorem Tags.tagRow_eq_ok_iff {key : Key} {id : String} {now : Instant} {row : TagRow} :
    Tags.tagRow key id now = .ok row ↔
      key.validate = .ok () ∧ now.Storable ∧ row = ⟨key, id, Timestamp.text now⟩ := by
  unfold Tags.tagRow
  rw [storedText_eq]
  constructor
  · intro h
    obtain ⟨_, valid, h⟩ := bind_eq_ok h
    split_ifs at h with storable
    · cases h
      exact ⟨valid, storable, rfl⟩
    · cases h
  · rintro ⟨valid, storable, rfl⟩
    rw [valid, if_pos storable]
    rfl

/-! ## Tables -/

/-- Tables in which artifacts and tags are as deliveries have left them. -/
structure Tables.Delivered (t : Tables) (ds : List Delivery) : Prop where
  /-- The artifacts are those that were stored first. -/
  artifacts : ∃ rows, t.artifacts = some rows ∧ ArtifactsHold rows ds
  /-- The tags are as they were last written. -/
  tags : ∃ rows, t.tags = some rows ∧ TagsHold rows ds
  /-- Rows can hold when an artifact was stored. -/
  stored_storable : ∀ a, .stored a ∈ ds → a.createdAt.Storable
  /-- A key that was tagged is sound, and rows can hold when it was. -/
  tagged_sound : ∀ key id now, .tagged key id now ∈ ds → key.validate = .ok () ∧ now.Storable
  /-- What a key was made to stand for had been stored. -/
  tagged_stored : ∀ key id now, .tagged key id now ∈ ds →
    (firstStored? ds key.dataset id).isSome = true

theorem Tables.delivered_initial : Tables.initial.Delivered [] where
  artifacts := ⟨[], rfl, fun _ _ => rfl⟩
  tags := ⟨[], rfl, fun _ => rfl, fun _ h => nomatch h⟩
  stored_storable _ h := nomatch h
  tagged_sound _ _ _ h := nomatch h
  tagged_stored _ _ _ h := nomatch h

namespace Tables.Delivered

variable {t : Tables} {ds : List Delivery} (d : Dialect)

theorem sameTags {t' : Tables} (h : t.Delivered ds) (same : t.SameTags t') : t'.Delivered ds :=
  { h with
    artifacts := by
      rw [same.2]
      exact h.artifacts
    tags := by
      rw [same.1]
      exact h.tags }

theorem create (h : t.Delivered ds) : t.create.Delivered ds := by
  obtain ⟨artifacts, hartifacts, -⟩ := h.artifacts
  obtain ⟨tags, htags, -⟩ := h.tags
  refine h.sameTags ⟨?_, ?_⟩
  · rw [Tables.create, htags]
    rfl
  · rw [Tables.create, hartifacts]
    rfl

/-- A later delivery is sound if it is so by itself. -/
theorem append (h : t.Delivered ds) {t' : Tables} {x : Delivery}
    (artifacts : ∃ rows, t'.artifacts = some rows ∧ ArtifactsHold rows (ds ++ [x]))
    (tags : ∃ rows, t'.tags = some rows ∧ TagsHold rows (ds ++ [x]))
    (stored : ∀ a, x = .stored a → a.createdAt.Storable)
    (tagged : ∀ key id now, x = .tagged key id now →
      key.validate = .ok () ∧ now.Storable ∧ (firstStored? ds key.dataset id).isSome = true) :
    t'.Delivered (ds ++ [x]) where
  artifacts := artifacts
  tags := tags
  stored_storable a ha := by
    rcases List.mem_append.mp ha with ha | ha
    · exact h.stored_storable a ha
    · exact stored a (List.mem_singleton.mp ha).symm
  tagged_sound key id now hk := by
    rcases List.mem_append.mp hk with hk | hk
    · exact h.tagged_sound key id now hk
    · obtain ⟨valid, storable, -⟩ := tagged key id now (List.mem_singleton.mp hk).symm
      exact ⟨valid, storable⟩
  tagged_stored key id now hk := by
    have earlier : (firstStored? ds key.dataset id).isSome = true := by
      rcases List.mem_append.mp hk with hk | hk
      · exact h.tagged_stored key id now hk
      · exact (tagged key id now (List.mem_singleton.mp hk).symm).2.2
    obtain ⟨a, ha⟩ := Option.isSome_iff_exists.mp earlier
    rw [firstStored?_append_of_some ha]
    rfl

theorem createArtifact (h : t.Delivered ds) {a : Artifact} {t' : Tables}
    (ht : Tags.createArtifact d t a = .ok t') : t'.Delivered (ds ++ [.stored a]) := by
  obtain ⟨row, hrow, ht⟩ := bind_eq_ok ht
  obtain ⟨storable, rfl⟩ := Tags.artifactRow_eq_ok hrow
  obtain ⟨artifacts, hartifacts, hold⟩ := h.artifacts
  obtain ⟨tags, htags, tagsHold⟩ := h.tags
  have ht := Dialect.executed_eq_ok ht
  rw [Tables.insertArtifact_eq hartifacts, a.row_dataset, a.row_id, hold, Option.isSome_map] at ht
  obtain rfl := Except.ok.inj ht
  have sound : ∀ b, Delivery.stored a = .stored b → b.createdAt.Storable := by
    intro b hb
    cases hb
    exact storable
  -- a dataset that has an artifact of the name keeps it
  cases hfirst : firstStored? ds a.dataset a.id with
  | none =>
    exact h.append ⟨_, rfl, hold.cons hfirst⟩ ⟨tags, htags, tagsHold.stored a⟩ sound
      fun _ _ _ h => nomatch h
  | some b =>
    refine h.append ⟨artifacts, hartifacts, hold.append ?_⟩ ⟨tags, htags, tagsHold.stored a⟩
      sound fun _ _ _ h => nomatch h
    intro dataset id hnone
    refine if_neg fun hname => ?_
    rw [← hname.1, ← hname.2, hfirst] at hnone
    cases hnone

/-- A key can be made to stand for an artifact only if both are sound and the artifact is in the
key's dataset. -/
theorem add_sound (h : t.Delivered ds) {key : Key} {id : String} {now : Instant} {t' : Tables}
    (ht : Tags.add d t key id now = .ok t') :
    key.validate = .ok () ∧ now.Storable ∧ (firstStored? ds key.dataset id).isSome = true := by
  obtain ⟨row, hrow, ht⟩ := bind_eq_ok ht
  obtain ⟨valid, storable, rfl⟩ := Tags.tagRow_eq_ok_iff.mp hrow
  refine ⟨valid, storable, ?_⟩
  obtain ⟨artifacts, hartifacts, hold⟩ := h.artifacts
  obtain ⟨tags, htags, -⟩ := h.tags
  obtain ⟨⟨written, after⟩, hupsert, ht⟩ := bind_eq_ok ht
  have hupsert := Dialect.executed_eq_ok hupsert
  rw [Tables.upsertTag_eq htags hartifacts, hold, Option.isNone_map] at hupsert
  cases hfirst : firstStored? ds key.dataset id with
  | some a => rfl
  | none =>
    rw [hfirst] at hupsert
    cases hupsert
    cases ht

/-- A key that is made to stand for an artifact so, does. It is delivered then. -/
theorem add_accepted (h : t.Delivered ds) {key : Key} {id : String} {now : Instant}
    (valid : key.validate = .ok ()) (storable : now.Storable)
    (hstored : (firstStored? ds key.dataset id).isSome = true) :
    ∃ t', Tags.add d t key id now = .ok t' ∧ t'.Delivered (ds ++ [.tagged key id now]) := by
  obtain ⟨artifacts, hartifacts, hold⟩ := h.artifacts
  obtain ⟨tags, htags, tagsHold⟩ := h.tags
  have row : Tags.tagRow key id now = .ok ⟨key, id, Timestamp.text now⟩ :=
    Tags.tagRow_eq_ok_iff.mpr ⟨valid, storable, rfl⟩
  have there : ¬ (firstStored? ds key.dataset id).isNone = true := by
    rw [Option.isNone_eq_false_iff.mpr hstored]
    exact Bool.false_ne_true
  have sound : ∀ key' id' now', Delivery.tagged key id now = .tagged key' id' now' →
      key'.validate = .ok () ∧ now'.Storable ∧
        (firstStored? ds key'.dataset id').isSome = true := by
    intro key' id' now' heq
    cases heq
    exact ⟨valid, storable, hstored⟩
  unfold Tags.add
  rw [row, ok_bind, Tables.upsertTag_eq htags hartifacts, hold, Option.isNone_map, if_neg there]
  refine ⟨_, rfl, h.append ⟨artifacts, hartifacts, hold.append fun _ _ _ => rfl⟩ ⟨_, rfl, ?_⟩
    (fun _ h => nomatch h) sound⟩
  split_ifs with present
  · exact tagsHold.map hstored (tagsHold.any_iff.mp present)
  · exact tagsHold.cons hstored

theorem changing (h : t.Delivered ds) {x : Except Error Tables} {y : Delivery}
    (ok : ∀ t', x = .ok t' → t'.Delivered (ds ++ [y])) :
    (Request.changing t x).2.Delivered
      (ds ++ (if Except.isOk (Request.changing t x).1 then some y else none).toList) := by
  cases x with
  | error e =>
    change t.Delivered (ds ++ [])
    rwa [List.append_nil]
  | ok t' => exact ok t' rfl

/-- After a request the tables are as the deliveries so far and its own have left them. -/
theorem perform (h : t.Delivered ds) (r : Request) :
    (r.perform d t).2.Delivered
      (ds ++ ((Step.ask r).delivery? (r.perform d t).1).toList) := by
  by_cases nothing : r.delivery? = none
  · rw [Step.delivery?_ask_of_none nothing, Option.toList_none, List.append_nil]
    exact h.sameTags (Request.perform_sameTags_of_delivery? d t nothing)
  · cases r with
    | createArtifact a => exact h.changing fun _ => h.createArtifact d
    | addTag key id now =>
      refine h.changing fun t' ht => ?_
      obtain ⟨valid, storable, hstored⟩ := h.add_sound d ht
      obtain ⟨t'', ht', delivered⟩ := h.add_accepted d valid storable hstored
      rw [ht] at ht'
      obtain rfl := Except.ok.inj ht'
      exact delivered
    | getTag | get | create | update | createOrUpdate | delete => exact (nothing rfl).elim

theorem selectTag_untagged (h : t.Delivered ds) {key : Key} (hkey : lastTagged? ds key = none) :
    t.selectTag key = .error .rowNotFound := by
  obtain ⟨artifacts, hartifacts, -⟩ := h.artifacts
  obtain ⟨tags, htags, tagsHold⟩ := h.tags
  unfold Tables.selectTag
  rw [htags, hartifacts, Tables.rows, ok_bind, Tables.rows, ok_bind, tagsHold.found key, hkey]
  rfl

/-- The rows of a key that was tagged are that of its last tag and that of the artifact of this
name. -/
theorem selectTag_tagged (h : t.Delivered ds) {key : Key} {id : String} {now : Instant}
    (hkey : lastTagged? ds key = some (id, now)) :
    ∃ a, firstStored? ds key.dataset id = some a ∧
      t.selectTag key = .ok (⟨key, id, Timestamp.text now⟩, a.row) := by
  obtain ⟨a, ha⟩ :=
    Option.isSome_iff_exists.mp (h.tagged_stored key id now (lastTagged?_eq_some hkey))
  obtain ⟨artifacts, hartifacts, hold⟩ := h.artifacts
  obtain ⟨tags, htags, tagsHold⟩ := h.tags
  refine ⟨a, ha, ?_⟩
  unfold Tables.selectTag
  rw [htags, hartifacts, Tables.rows, ok_bind, Tables.rows, ok_bind, tagsHold.found key, hkey,
    Option.map_some]
  dsimp only
  rw [hold key.dataset id, ha]
  rfl

/-- A key that was tagged stands for the artifact of the name that was given last, and for this as
it was first stored. -/
theorem get_tagged (h : t.Delivered ds) {key : Key} {id : String} {now : Instant}
    (hkey : lastTagged? ds key = some (id, now)) :
    ∃ a, firstStored? ds key.dataset id = some a ∧
      Tags.get d t key =
        .ok ⟨key, ⟨id, key.dataset, a.metadata, a.createdAt.kept⟩, now.kept⟩ := by
  obtain ⟨a, ha, select⟩ := h.selectTag_tagged hkey
  refine ⟨a, ha, ?_⟩
  have stored := h.stored_storable a (firstStored?_eq_some ha).1
  have tagged := (h.tagged_sound key id now (lastTagged?_eq_some hkey)).2
  unfold Tags.get
  rw [select, Dialect.executed_ok, ok_bind]
  unfold Tags.ofRows Artifact.row
  dsimp only
  rw [storedInstant_of_storable _ stored, ok_bind, storedInstant_of_storable _ tagged, ok_bind]

end Tables.Delivered

/-! ## Steps -/

theorem Operation.MayAsk.delivers_nothing {timing : LeaseTiming} {operation : Operation}
    {reading : Option Instant} {r : Request} (h : operation.MayAsk timing reading r) :
    r.delivery? = none := by
  cases r with
  | createArtifact | addTag => exact h.elim
  | getTag | get | create | update | createOrUpdate | delete => rfl

/-- Serving a call leaves what keys stand for. -/
theorem Operation.run_sameTags (operation : Operation) (timing : LeaseTiming) (d : Dialect)
    (now : Instant) (t : Tables) (c : Counters) :
    t.SameTags ((operation.call timing).run (.ofTables d) now t c).state := by
  refine (operation.call_obeys timing).run_induction (P := t.SameTags) ?_ now (.refl t) c
  intro reading r t' may same
  exact same.trans (Request.perform_sameTags_of_delivery? d t' may.delivers_nothing)

/-- After a step the tables are as the deliveries so far and its own have left them. -/
theorem Session.step_delivered {s : Session} {ds : List Delivery} (h : s.tables.Delivered ds)
    (x : Step) : (s.step x).2.tables.Delivered (ds ++ (x.delivery? (s.step x).1).toList) := by
  cases x with
  | ask request => exact h.perform s.dialect request
  | serve i operation =>
    change Tables.Delivered _ (ds ++ [])
    rw [List.append_nil]
    exact h.sameTags (operation.run_sameTags _ s.dialect _ s.tables _)
  | move i how =>
    change s.tables.Delivered (ds ++ [])
    rwa [List.append_nil]
  | initialise =>
    change s.tables.create.Delivered (ds ++ [])
    rw [List.append_nil]
    exact h.create

/-! ## Turns -/

namespace Traffic

/-- At turn `n` something is delivered. -/
def DeliversAt (start : Traffic) (turns : List Turn) (n : Nat) (d : Delivery) : Prop :=
  ∃ x, turns[n]? = some x ∧ (start.before turns n).delivery? x = some d

section DeliversAt

variable {start : Traffic} {turns : List Turn} {n : Nat} {d : Delivery}

/-- What is delivered, is delivered at some turn. -/
theorem mem_deliveries_iff : d ∈ start.deliveries turns ↔ ∃ n, start.DeliversAt turns n d := by
  induction turns generalizing start with
  | nil => simp [deliveries, DeliversAt]
  | cons x rest ih =>
    rw [deliveries, List.mem_append, ih, Option.mem_toList]
    constructor
    · rintro (hd | ⟨n, hd⟩)
      · exact ⟨0, x, rfl, hd⟩
      · exact ⟨n + 1, hd⟩
    · rintro ⟨n, hd⟩
      cases n with
      | zero =>
        obtain ⟨y, hy, hd⟩ := hd
        cases hy
        exact .inl hd
      | succ n => exact .inr ⟨n, hd⟩

theorem DeliversAt.lt (h : start.DeliversAt turns n d) : n < turns.length := by
  obtain ⟨x, hx, -⟩ := h
  exact (List.getElem?_eq_some_iff.mp hx).1

/-- What is delivered in the course of the first turns is delivered at one of them. -/
theorem mem_deliveries_take_iff :
    d ∈ start.deliveries (turns.take n) ↔ ∃ m < n, start.DeliversAt turns m d := by
  rw [mem_deliveries_iff]
  have same : ∀ m < n, start.DeliversAt (turns.take n) m d ↔ start.DeliversAt turns m d := by
    intro m hm
    unfold DeliversAt before
    rw [List.getElem?_take_of_lt hm, List.take_take, min_eq_left (Nat.le_of_lt hm)]
  constructor
  · rintro ⟨m, hd⟩
    have hm : m < n := by
      have := hd.lt
      rw [List.length_take] at this
      omega
    exact ⟨m, hm, (same m hm).mp hd⟩
  · rintro ⟨m, hm, hd⟩
    exact ⟨m, (same m hm).mpr hd⟩

theorem deliveries_append (start : Traffic) (turns more : List Turn) :
    start.deliveries (turns ++ more) =
      start.deliveries turns ++ (start.run turns).deliveries more := by
  induction turns generalizing start with
  | nil => rfl
  | cons x rest ih =>
    rw [List.cons_append, deliveries, ih, deliveries, List.append_assoc]
    rfl

theorem deliveries_take_succ {x : Turn} (h : turns[n]? = some x) :
    start.deliveries (turns.take (n + 1)) =
      start.deliveries (turns.take n) ++ ((start.before turns n).delivery? x).toList := by
  rw [List.take_add_one, h, Option.toList_some, deliveries_append]
  exact congrArg (_ ++ ·) (List.append_nil _)

end DeliversAt

section Runs

variable {s : Session} {operations : Nat → Nat × Operation} {turns : List Turn}

theorem sameTags_before_succ {n i : Nat} (hi : turns[n]? = some (.thread i)) :
    ((start s operations).before turns n).session.tables.SameTags
      ((start s operations).before turns (n + 1)).session.tables := by
  rcases tables_before_succ hi with ⟨r, now, ⟨next, hstep⟩, -⟩ | ⟨key, ⟨next, hstep⟩, -⟩ | same
  · rw [hstep.tables_succ]
    exact Request.perform_sameTags _ _ rfl
  · rw [hstep.tables_succ]
    exact Request.perform_sameTags _ _ rfl
  · rw [same]
    exact .refl _

/-- Whenever a turn comes, the tables are as the deliveries so far have left them. -/
theorem delivered_before (hs : s.tables = .initial) :
    ∀ n ≤ turns.length, ((start s operations).before turns n).session.tables.Delivered
      ((start s operations).deliveries (turns.take n)) := by
  refine before_induction (P := fun n s' => s'.session.tables.Delivered
    ((start s operations).deliveries (turns.take n))) ?_ ?_
  · change s.tables.Delivered []
    rw [hs]
    exact Tables.delivered_initial
  · intro n x hx h
    rw [deliveries_take_succ hx]
    cases x with
    | step x => exact Session.step_delivered h x
    | thread i =>
      have same : ((start s operations).before turns n).session.tables.SameTags
          ((start s operations).before turns (n + 1)).session.tables := sameTags_before_succ hx
      rw [before_succ hx] at same
      change Tables.Delivered _ (_ ++ [])
      rw [List.append_nil]
      exact h.sameTags same

theorem delivered_run (hs : s.tables = .initial) :
    ((start s operations).run turns).session.tables.Delivered
      ((start s operations).deliveries turns) := by
  have delivered : ((start s operations).before turns turns.length).session.tables.Delivered
      ((start s operations).deliveries (turns.take turns.length)) :=
    delivered_before hs turns.length le_rfl
  rwa [before_length, List.take_length] at delivered

end Runs

end Traffic

/-! ## What producers find -/

namespace Traffic

/-- A result, and what its producer keeps with it. -/
def resultOf (metadata : Metadata) : Artifact :=
  ⟨"result", ⟨"project", "domain", "name", "version"⟩, metadata, .epoch⟩

/-- A caller asks for a lease while the result is stored twice. Its key is tagged, tagged with
something that was never stored, and tagged again. -/
def retaggingTurns : List Turn :=
  let key : Key := ⟨(resultOf none).dataset, "tag"⟩
  [.thread 0, .step (.ask (.createArtifact (resultOf none))), .thread 0,
    .step (.ask (.createArtifact (resultOf (some ⟨#[1]⟩)))), .thread 0,
    .step (.ask (.addTag key "result" .epoch)), .step (.ask (.addTag key "other" .first)),
    .step (.ask (.addTag key "result" ((Instant.ofParts? 15 1500).getD .epoch))), .thread 0]

/-- Everybody asks for the same lease. -/
def retaggingOperations (_ : Nat) : Nat × Operation := (0, .reserve (Session.claimOf "first"))

end Traffic

end LeaseCatalog
