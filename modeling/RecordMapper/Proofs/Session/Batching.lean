import RecordMapper.Proofs.Session.Gallery
import RecordMapper.Proofs.Session.Loading

/-!
# One selection for all owners

Embedding a tie sends one selection for all owners together, with one value for each of their keys,
and attaches to each owner those of the fetched entities that have its key.
-/

namespace RecordMapper

/-! ## The keys of owners -/

/-- One value of a field for each key that owners have in it, in the order of the owners. -/
structure ListsKeys (owners : List Entity) (field : String) (values : List Value) : Prop where
  keys : values.map Value.key? =
    (owners.filterMap fun owner => owner.fieldKey? field).eraseDups.map some
  ofOwners : ∀ value ∈ values, ∃ owner ∈ owners, owner.get? field = some value

theorem map_fst_keyedValues (owners : List Entity) (field : String) :
    (keyedValues owners field).map Prod.fst =
      owners.filterMap fun owner => owner.fieldKey? field := by
  rw [keyedValues, List.map_filterMap]
  refine List.filterMap_congr fun owner _ => ?_
  rw [Entity.fieldKey?]
  cases owner.get? field with
  | none => rfl
  | some value =>
      cases hkey : value.key? <;> simp [hkey]

theorem listsKeys_distinctValues (owners : List Entity) (field : String) :
    ListsKeys owners field (distinctValues owners field) := by
  constructor
  case keys =>
    rw [← map_fst_keyedValues, ← map_eraseDupsBy, distinctValues, List.map_map, List.map_map]
    exact List.map_congr_left fun pair hpair =>
      (keyedValues_spec (mem_of_mem_eraseDupsBy _ hpair)).1
  case ofOwners =>
    intro value hvalue
    obtain ⟨pair, hpair, rfl⟩ := List.mem_map.mp hvalue
    exact (keyedValues_spec (mem_of_mem_eraseDupsBy _ hpair)).2

theorem distinctValues_eq_nil_iff {owners : List Entity} {field : String} :
    distinctValues owners field = [] ↔ ∀ owner ∈ owners, owner.fieldKey? field = none := by
  constructor
  · intro h owner howner
    cases hkey : owner.fieldKey? field with
    | none => rfl
    | some key =>
        obtain ⟨value, hvalue, -⟩ := exists_distinctValue howner hkey
        rw [h] at hvalue
        cases hvalue
  · intro h
    have hkeys := (listsKeys_distinctValues owners field).keys
    rw [List.filterMap_eq_nil_iff.mpr h] at hkeys
    exact List.map_eq_nil_iff.mp hkeys

/-! ## The selection -/

namespace Tie

/-- What a tie fetches for some owners, and the statements sent by then.  Nothing is sent when no
owner has a key. -/
inductive Fetched (db : Database) (tie : Tie) (below : EmbedTree) (owners : List Entity) (log : Log) :
    List Entity → Log → Prop
  | nothing (keyless : ∀ owner ∈ owners, owner.fieldKey? tie.sourceKey = none) :
      Fetched db tie below owners log [] log
  | selected {owner : Entity} {values : List Value} {target : Schema} {sql : String}
      {rows : List Row} {hydrated fetched : List Entity} {log' : Log}
      (keyed : owner ∈ owners ∧ owner.fieldKey? tie.sourceKey ≠ none)
      (lists : ListsKeys owners tie.sourceKey values)
      (schema : db.registry.schema tie.target = .ok target)
      (render : (tie.fetchSelect target values).render db.dialect = .ok sql)
      (answer : db.connection.answer log sql = .ok rows)
      (hydrate : target.hydrateAll rows = .ok hydrated)
      (nested : db.embed tie.target below hydrated (log ++ [sql]) = ⟨.ok (), fetched, log'⟩)
      (read : List.Forall₂ (fun row related => target.castRow row = .ok related.fields) rows
        fetched) : Fetched db tie below owners log fetched log'

variable {db : Database} {tie : Tie} {below : EmbedTree} {owners owners' : List Entity}
  {log log' : Log}

theorem fetched_of_run {fetched : List Entity}
    (h : tie.fetch db (db.embed tie.target below) owners owners log = ⟨.ok fetched, owners', log'⟩) :
    tie.Fetched db below owners log fetched log' := by
  obtain ⟨-, ⟨hempty, rfl, rfl⟩ | ⟨hkeys, target, sql, rows, hydrated, htarget, hsql, hrows,
    hhydrated, hnested⟩⟩ := cases_of_run_fetch h
  · exact .nothing (distinctValues_eq_nil_iff.mp hempty)
  · have hfinish : (db.embed tie.target below).Embeds db target.model := by
      rw [Registry.model_of_schema htarget]
      exact Database.embeds_embed below tie.target
    have hread := Database.read_of_hydrateAll hfinish hhydrated hnested
    have hkeyed : ∃ owner ∈ owners, owner.fieldKey? tie.sourceKey ≠ none := by
      rw [ne_eq, distinctValues_eq_nil_iff] at hkeys
      push Not at hkeys
      exact hkeys
    obtain ⟨owner, howner⟩ := hkeyed
    exact .selected howner (listsKeys_distinctValues _ _) htarget hsql hrows hhydrated hnested
      (hread.imp fun _ _ h => h.1)

/-- Whether an entity has the key of an owner. -/
def relates (tie : Tie) (owner related : Entity) : Bool :=
  (owner.fieldKey? tie.sourceKey).isSome &&
    related.fieldKey? tie.targetKey == owner.fieldKey? tie.sourceKey

theorem relatedTo_eq_filter (tie : Tie) (fetched : List Entity) (owner : Entity) :
    tie.relatedTo fetched owner = fetched.filter (tie.relates owner) := by
  unfold relatedTo relates
  cases owner.fieldKey? tie.sourceKey with
  | none => simp
  | some key => simp [entitiesWithKey]

theorem attachAll_of_hasMany (h : tie.kind = .hasMany) (fetched owners : List Entity) :
    tie.attachAll fetched owners = owners.map fun owner =>
      owner.setRelation tie.name (.many ⟨tie.target, fetched.filter (tie.relates owner)⟩) := by
  rw [attachAll, h]
  simp only [attachMany_eq, relatedTo_eq_filter]

theorem attachAll_of_ne_hasMany (h : tie.kind ≠ .hasMany) (fetched owners : List Entity) :
    tie.attachAll fetched owners = owners.map fun owner =>
      owner.setRelation tie.name (.one (fetched.find? (tie.relates owner))) := by
  have hone : tie.attachAll fetched owners = tie.attachOne fetched owners := by
    unfold attachAll
    cases hkind : tie.kind with
    | belongsTo => rfl
    | hasOne => rfl
    | hasMany => exact absurd hkind h
  simp only [hone, attachOne_eq, relatedTo_eq_filter, List.head?_filter]

/-- All owners get what is related to them by one selection: to many, all fetched entities with
their key in the order of the rows; to one, the first of these. -/
theorem embed_attaches_related
    (h : tie.embed db (db.embed tie.target below) owners log = ⟨.ok (), owners', log'⟩) :
    ∃ fetched, tie.Fetched db below owners log fetched log' ∧
      (∀ owner' ∈ owners', owner'.isLoaded tie.name = true) ∧
      (tie.kind = .hasMany → owners' = owners.map fun owner =>
        owner.setRelation tie.name (.many ⟨tie.target, fetched.filter (tie.relates owner)⟩)) ∧
      (tie.kind ≠ .hasMany → owners' = owners.map fun owner =>
        owner.setRelation tie.name (.one (fetched.find? (tie.relates owner)))) := by
  obtain ⟨fetched, hfetch, rfl⟩ := exists_of_run_embed h
  refine ⟨fetched, fetched_of_run hfetch, ?_, fun hkind => attachAll_of_hasMany hkind fetched _,
    fun hkind => attachAll_of_ne_hasMany hkind fetched _⟩
  intro owner' howner'
  rw [attachAll_eq] at howner'
  obtain ⟨owner, -, rfl⟩ := List.mem_map.mp howner'
  simp [attach, Entity.isLoaded]

end Tie

namespace Gallery

/-- Galleries of which two share a key in different forms, one has none and one has null. -/
def sharedGalleries : List Entity :=
  [.hydrated "Gallery" (.ofPairs [("id", .integer 1)]), .new "Gallery",
    .hydrated "Gallery" (.ofPairs [("id", .null)]), .hydrated "Gallery" (.ofPairs [("id", .bool true)])]

end Gallery

open Gallery in
/-- Four galleries with one key among them: one selection of one value, and two of them get the
image. -/
theorem embed_attaches_shared_image :
    images.embed (database [imageRow]) ((database [imageRow]).embed "Image" .nil) sharedGalleries
        [] =
      ⟨.ok (), (sharedGalleries.map fun owner => owner.setRelation "images"
        (.many ⟨"Image", [storedImage 1].filter (images.relates owner)⟩)),
        ["SELECT * FROM \"image\" WHERE \"gallery_id\" IN (1)"]⟩ ∧
    ∃ fetched, images.Fetched (database [imageRow]) .nil sharedGalleries [] fetched
      ["SELECT * FROM \"image\" WHERE \"gallery_id\" IN (1)"] := by
  have h : images.embed (database [imageRow]) ((database [imageRow]).embed "Image" .nil)
      sharedGalleries [] =
    ⟨.ok (), (sharedGalleries.map fun owner => owner.setRelation "images"
      (.many ⟨"Image", [storedImage 1].filter (images.relates owner)⟩)),
      ["SELECT * FROM \"image\" WHERE \"gallery_id\" IN (1)"]⟩ := by rfl
  obtain ⟨fetched, hfetched, -⟩ := Tie.embed_attaches_related h
  exact ⟨h, fetched, hfetched⟩

end RecordMapper
