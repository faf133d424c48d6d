import RecordMapper.Proofs.Entity.Covering
import RecordMapper.Proofs.Session.Pivots
import RecordMapper.Proofs.Session.Reloading
import RecordMapper.Proofs.Statement.Clause

/-!
# What pivots write over the rows that they take over

A pivot that takes over a row keeps all its values in memory but the key, those that were changed and
those that were only read.  `overwrites` gives the values that are written over the row.  They are
changes of the pivot if and only if the row has the value of every other column of the pivot; a row
other than the one that was read may have another one, and then it is lost.
-/

namespace RecordMapper

/-! ## Values that are written -/

namespace Schema

def overwritten (s : Schema) (pivot : Entity) (row : Row) : List (String × Value) :=
  s.changedValues (pivot.adopt row s.declaredKey?)

theorem mem_changedValues {s : Schema} {entity : Entity} {name : String} {value : Value} :
    (name, value) ∈ s.changedValues entity ↔
      entity.get? name = some value ∧ s.hasField name = true ∧ entity.isModified name = true := by
  rw [changedValues, List.mem_filter, Bool.and_eq_true, ← Row.get?_eq_some_iff]
  rfl

end Schema

namespace Entity

variable {s : Schema} {pivot : Entity} {row : Row} {name : String} {value : Value}

/-- The pivot and the row have equal values in all columns of the pivot that were not changed. -/
def AgreesWith (s : Schema) (pivot : Entity) (row : Row) : Prop :=
  ∀ name value, s.hasField name = true → s.declaredKey? ≠ some name →
    pivot.get? name = some value → pivot.isModified name = false →
    ∃ stored, row.get? name = some stored ∧ value.equals stored = true

theorem equalsOption_some_iff {stored? : Option Value} :
    Value.equalsOption (some value) stored? = true ↔
      ∃ stored, stored? = some stored ∧ value.equals stored = true := by
  cases stored? with
  | none => simp [Value.equalsOption]
  | some stored => simp [Value.equalsOption]

theorem agreesWith_of_new (h : pivot.isStored = false) : pivot.AgreesWith s row := by
  intro name value _ _ hvalue hunchanged
  have hsnapshot : pivot.snapshot = none := by simpa [isStored] using h
  have hmodified : pivot.isModified name = true := by
    rw [isModified, hsnapshot]
    exact Option.isSome_iff_exists.mpr ⟨value, hvalue⟩
  rw [hmodified] at hunchanged
  cases hunchanged

theorem agreesWith_of_read (h : ∀ name read, s.hasField name = true →
    pivot.stored? name = some read → ∃ stored, row.get? name = some stored ∧
      read.equals stored = true) : pivot.AgreesWith s row := by
  intro name value hfield _ hvalue hunchanged
  cases hsnapshot : pivot.snapshot with
  | none =>
      have hnew : pivot.isStored = false := by rw [isStored, hsnapshot]; rfl
      exact agreesWith_of_new hnew name value hfield ‹_› hvalue hunchanged
  | some own =>
      rw [isModified, hsnapshot, hvalue, Bool.not_eq_false', equalsOption_some_iff] at hunchanged
      obtain ⟨read, hread, hequals⟩ := hunchanged
      have hstored : pivot.stored? name = some read := by rw [stored?, hsnapshot]; exact hread
      obtain ⟨stored, hrow, hsame⟩ := h name read hfield hstored
      exact ⟨stored, hrow, Value.equals_trans value read stored hequals hsame⟩

/-- What a pivot writes over a row, and when these are changes of the pivot. -/
structure Overwrites (s : Schema) (pivot : Entity) (row : Row) : Prop where
  /-- The values in memory that differ from the row, and the numbers of the row that are undefined,
  which differ from themselves. -/
  values : ∀ name value, (name, value) ∈ s.overwritten pivot row ↔ s.hasField name = true ∧
    ((s.declaredKey? ≠ some name ∧ pivot.get? name = some value ∧
        Value.equalsOption (some value) (row.get? name) = false) ∨
      ((s.declaredKey? = some name ∨ pivot.get? name = none) ∧ row.get? name = some value ∧
        value.equals value = false))
  onlyChanges : row.IsDefined s →
    ((∀ change ∈ s.overwritten pivot row, pivot.isModified change.1 = true) ↔
      pivot.AgreesWith s row)
  /-- Every value of a new pivot is a change. -/
  new : pivot.isStored = false → pivot.AgreesWith s row
  /-- A row has nothing to lose if it has the values that were read of the pivot, as its own row has
  them unless it was changed since. -/
  read : (∀ name read, s.hasField name = true → pivot.stored? name = some read →
    ∃ stored, row.get? name = some stored ∧ read.equals stored = true) → pivot.AgreesWith s row

theorem get?_adopt_eq_some_iff {key : Option String} :
    (pivot.adopt row key).get? name = some value ↔
      (key ≠ some name ∧ pivot.get? name = some value) ∨
      ((key = some name ∨ pivot.get? name = none) ∧ row.get? name = some value) := by
  rw [get?_adopt]
  by_cases hkey : key = some name
  · simp [hkey]
  · rw [if_neg (Ne.symm hkey)]
    cases pivot.get? name <;> simp [hkey]

theorem mem_overwritten : (name, value) ∈ s.overwritten pivot row ↔ s.hasField name = true ∧
    ((s.declaredKey? ≠ some name ∧ pivot.get? name = some value ∧
        Value.equalsOption (some value) (row.get? name) = false) ∨
      ((s.declaredKey? = some name ∨ pivot.get? name = none) ∧ row.get? name = some value ∧
        value.equals value = false)) := by
  have hmodified : (pivot.adopt row s.declaredKey?).isModified name =
      !Value.equalsOption ((pivot.adopt row s.declaredKey?).get? name) (row.get? name) := rfl
  have hown : Value.equalsOption (some value) (some value) = value.equals value := rfl
  rw [Schema.overwritten, Schema.mem_changedValues, hmodified]
  constructor
  · rintro ⟨hvalue, hfield, hdiffers⟩
    rw [hvalue, Bool.not_eq_true'] at hdiffers
    refine ⟨hfield, ?_⟩
    rcases get?_adopt_eq_some_iff.mp hvalue with ⟨hkey, hpivot⟩ | ⟨hother, hrow⟩
    · exact .inl ⟨hkey, hpivot, hdiffers⟩
    · rw [hrow, hown] at hdiffers
      exact .inr ⟨hother, hrow, hdiffers⟩
  · rintro ⟨hfield, ⟨hkey, hpivot, hdiffers⟩ | ⟨hother, hrow, hdiffers⟩⟩
    · have hvalue : (pivot.adopt row s.declaredKey?).get? name = some value :=
        get?_adopt_eq_some_iff.mpr (.inl ⟨hkey, hpivot⟩)
      exact ⟨hvalue, hfield, by rw [hvalue, hdiffers]; rfl⟩
    · have hvalue : (pivot.adopt row s.declaredKey?).get? name = some value :=
        get?_adopt_eq_some_iff.mpr (.inr ⟨hother, hrow⟩)
      exact ⟨hvalue, hfield, by rw [hvalue, hrow, hown, hdiffers]; rfl⟩

theorem onlyChanges_iff_agreesWith (hdefined : row.IsDefined s) :
    (∀ change ∈ s.overwritten pivot row, pivot.isModified change.1 = true) ↔
      pivot.AgreesWith s row := by
  constructor
  · intro h name value hfield hkey hvalue hunchanged
    rw [← equalsOption_some_iff]
    by_contra hdiffers
    have hchange : (name, value) ∈ s.overwritten pivot row :=
      mem_overwritten.mpr ⟨hfield, .inl ⟨hkey, hvalue, by simpa using hdiffers⟩⟩
    rw [h _ hchange] at hunchanged
    cases hunchanged
  · rintro h ⟨name, value⟩ hchange
    obtain ⟨hfield, ⟨hkey, hvalue, hdiffers⟩ | ⟨-, hvalue, hdiffers⟩⟩ := mem_overwritten.mp hchange
    · by_contra hunchanged
      have hagrees := equalsOption_some_iff.mpr
        (h name value hfield hkey hvalue (by simpa using hunchanged))
      rw [hagrees] at hdiffers
      cases hdiffers
    · rw [hdefined name value hfield hvalue] at hdiffers
      cases hdiffers

theorem overwrites (s : Schema) (pivot : Entity) (row : Row) : pivot.Overwrites s row where
  values _ _ := mem_overwritten
  onlyChanges := onlyChanges_iff_agreesWith
  new := agreesWith_of_new
  read := agreesWith_of_read

/-! ## Pivots before they are written -/

/-- The pivot has its far entity saved, and the keys of the owner and of the far entity.  Nothing
else of it has changed. -/
structure IsPrepared (route : Tie) (far : Relation) (ownerKey : Value) (pivot prepared : Entity) :
    Prop where
  after : pivot.IsAfter prepared
  owner : prepared.get? route.targetKey = some ownerKey
  others : ∀ name, name ≠ far.sourceKey → name ≠ route.targetKey →
    prepared.get? name = pivot.get? name ∧ prepared.isModified name = pivot.isModified name

theorem isModified_eq_of_get?_eq {entity entity' : Entity} (hafter : entity.IsAfter entity')
    (h : entity'.get? name = entity.get? name) :
    entity'.isModified name = entity.isModified name := by
  have hfields : entity'.fields.get? name = entity.fields.get? name := h
  rw [isModified, isModified, hafter.2, h, Row.contains, Row.contains, hfields]

end Entity

namespace Edit

theorem run_preparePivot_isPrepared {route : Tie} {far : Relation} {ownerKey : Value}
    {saveFar : Edit Entity Unit} {pivot prepared : Entity} {log log' : Log}
    (h : preparePivot route far ownerKey saveFar pivot log = ⟨.ok (), prepared, log'⟩) :
    pivot.IsPrepared route far ownerKey prepared := by
  have hafter := run_preparePivot h
  have hfields : prepared.get? route.targetKey = some ownerKey ∧
      ∀ name, name ≠ far.sourceKey → name ≠ route.targetKey →
        prepared.get? name = pivot.get? name := by
    rcases run_preparePivot_cases h with ⟨-, rfl, -⟩ | ⟨_, _, _, -, -, -, -, rfl⟩
    · refine ⟨by simp, fun name _ howner => ?_⟩
      rw [Entity.get?_set, if_neg howner]
    · refine ⟨by simp, fun name hfarKey howner => ?_⟩
      rw [Entity.get?_set, if_neg howner, Entity.get?_set, if_neg hfarKey]
      rfl
  refine ⟨hafter, hfields.1, fun name hfarKey howner => ?_⟩
  have hsame := hfields.2 name hfarKey howner
  exact ⟨hsame, Entity.isModified_eq_of_get?_eq hafter hsame⟩

end Edit

/-! ## Writes of rows -/

/-- The statement that writes a pivot: the insertion of a new row, or one update of the row that it
takes over, which sets the values that are overwritten and no others. -/
inductive RowWrite (d : Dialect) (s : Schema) : Entity × Option Row → List String → Prop
  | insert {pivot : Entity} {sql : String}
      (h : (s.insertOf (pivot.withoutRow s.declaredKey?)).render d = .ok sql) :
      RowWrite d s (pivot, none) [sql]
  | unchanged {pivot : Entity} {row : Row} (h : s.overwritten pivot row = []) :
      RowWrite d s (pivot, some row) []
  | update {pivot : Entity} {row : Row} {id : Value} {sql : String}
      (h : s.overwritten pivot row ≠ [])
      (key : s.hasField s.keyName = true → row.get? s.keyName = some id)
      (text : d.Narrows (.eq (.ofPath s.keyName) (.value id))
        (s.updateHead d (s.overwritten pivot row)) sql) :
      RowWrite d s (pivot, some row) [sql]

theorem get?_of_storedKey_adopt {s : Schema} {pivot : Entity} {row : Row} {id : Value}
    (hfield : s.hasField s.keyName = true)
    (h : (pivot.adopt row s.declaredKey?).storedKey s.keyName s.model = .ok id) :
    row.get? s.keyName = some id := by
  have hkey : s.declaredKey? = some s.keyName := by rw [Schema.declaredKey?, if_pos hfield]
  have hstored : (pivot.adopt row s.declaredKey?).stored? s.keyName = row.get? s.keyName := rfl
  rw [Entity.storedKey, hstored, Entity.get?_adopt, hkey, if_pos rfl] at h
  cases hrow : row.get? s.keyName with
  | none =>
      rw [hrow] at h
      cases h
  | some value =>
      rw [hrow] at h
      change (if value.isNull then _ else _) = Except.ok id at h
      split at h
      · cases h
      · rw [Except.ok.inj h]

theorem run_settlePivot_rowWrite {db : Database} {s : Schema} {row? : Option Row}
    {pivot pivot' : Entity} {log log' : Log} (hschema : db.registry.schema pivot.model = .ok s)
    (h : Edit.settlePivot db s.declaredKey? row? pivot log = ⟨.ok (), pivot', log'⟩) :
    ∃ sent, log' = log ++ sent ∧ RowWrite db.dialect s (pivot, row?) sent := by
  cases row? with
  | none =>
      obtain ⟨sent, hlog, hwrite⟩ := Edit.run_settlePivot hschema h
      cases hwrite with
      | insert hsql => exact ⟨_, hlog, .insert hsql⟩
  | some row =>
      unfold Edit.settlePivot at h
      have hstored : (pivot.adopt row s.declaredKey?).isStored = true := rfl
      rcases Database.run_persist_stored hstored hschema (Edit.run_modify_bind h) with
        ⟨hunchanged, rfl⟩ | ⟨id, sql, hchanged, hid, hsql, rfl⟩
      · exact ⟨[], (List.append_nil _).symm, .unchanged (List.isEmpty_iff.mp hunchanged)⟩
      · refine ⟨[sql], rfl, .update ?_ (fun hfield => get?_of_storedKey_adopt hfield hid)
          (Schema.narrows_updateOf hsql)⟩
        simpa [Schema.overwritten] using hchanged

namespace Gallery

def rank : Schema :=
  model "Rank" "ranks" [serial "id", integer "image_id", integer "tag_id", integer "position"]
    [belongsTo "tag" "Tag" ("tag_id", "id")]

def rankRow (id tag position : Int64) : Row :=
  .ofPairs [("id", .integer id), ("image_id", .integer 1), ("tag_id", .integer tag),
    ("position", .integer position)]

/-- A database with two pivots of the first image. -/
def ranked : Database :=
  ⟨answering [rankRow 1 1 10, rankRow 9 2 20], ⟨.standard, [rank, tag]⟩⟩

/-- The first pivot as it was read, with the second tag in the place of the first. -/
def movedRank : Entity :=
  (Entity.hydrated "Rank" (rankRow 1 1 10)).setRelation "tag"
    (.one (some (.hydrated "Tag" (.ofPairs [("id", .integer 2)]))))

/-- The second pivot with another position. -/
def changedRank : Entity :=
  (Entity.hydrated "Rank" (rankRow 9 2 20)).set "position" (.integer 30)

end Gallery

/-- Of a row that a pivot takes over, a save writes the values of the pivot that differ from the row.
No value is written that was only read of the pivot if and only if the row has all of these. -/
theorem saveThrough_overwrites {db : Database} {route : Tie} {far : Relation} {below : EmbedTree}
    {owner owner' : Entity} {log log' : Log} (hloaded : owner.isLoaded route.name = true)
    (hmodels : ∀ pivots, owner.many route.name = .ok pivots →
      ∀ pivot ∈ pivots.entities, pivot.model = route.target)
    (h : Relation.saveThrough db route far .diff (db.save below) owner log =
      ⟨.ok (), owner', log'⟩) :
    ∃ run : PivotsRun db route far (db.save below) owner log owner' log',
      List.Forall₂ (Entity.IsPrepared route far run.ownerKey) run.before.entities run.prepared ∧
      (∃ writes deletion, log' = run.cascade ++ ([run.select] ++ writes.flatten ++ deletion) ∧
        List.Forall₂ (RowWrite db.dialect run.pivot) (run.prepared.zip run.taken) writes ∧
        ((run.stale = [] ∧ deletion = []) ∨ (run.stale ≠ [] ∧ ∃ sql, deletion = [sql] ∧
          (run.pivot.deleteOf (staleCondition run.pivot.declaredKey? run.stale)).render db.dialect =
            .ok sql))) ∧
      ∀ pivot row, (pivot, some row) ∈ run.prepared.zip run.taken →
        pivot.Overwrites run.pivot row := by
  obtain ⟨run⟩ := PivotsRun.exists_of_run hloaded h
  refine ⟨run, ?_, ?_, fun pivot row _ => pivot.overwrites run.pivot row⟩
  · exact Edit.run_forEach_forall₂ (Entity.IsPrepared route far run.ownerKey)
      (fun _ _ _ _ _ hpivot => Edit.run_preparePivot_isPrepared hpivot) run.prepare
  · exact run.log_eq_of_writes (hmodels run.before run.many) fun _ _ _ _ _ => run_settlePivot_rowWrite

open Gallery in
/-- A changed position is written, and nothing else of the row that the pivot was read from. -/
theorem saveThrough_overwrites_changed_position :
    ∃ owner' log', ∃ run : PivotsRun ranked (pivots "Rank" "ranks") (tagOf "Rank" "rank")
        (ranked.save .nil) (imageWith "ranks" "Rank" [changedRank]) [] owner' log',
      log' = ["SELECT * FROM \"ranks\" WHERE \"image_id\" = 1",
        "UPDATE \"ranks\" SET \"position\" = 30 WHERE \"id\" = 9",
        "DELETE FROM \"ranks\" WHERE \"id\" IN (1)"] ∧
      ∀ pivot row, (pivot, some row) ∈ run.prepared.zip run.taken →
        pivot.Overwrites run.pivot row := by
  have hmodels : ∀ pivots, (imageWith "ranks" "Rank" [changedRank]).many "ranks" = .ok pivots →
      ∀ pivot ∈ pivots.entities, pivot.model = "Rank" := by
    intro pivots hpivots pivot hpivot
    cases hpivots
    rw [List.mem_singleton.mp hpivot]
    rfl
  have h : Relation.saveThrough ranked (pivots "Rank" "ranks") (tagOf "Rank" "rank") .diff
      (ranked.save .nil) (imageWith "ranks" "Rank" [changedRank]) [] =
      ⟨.ok (), (Relation.saveThrough ranked (pivots "Rank" "ranks") (tagOf "Rank" "rank") .diff
        (ranked.save .nil) (imageWith "ranks" "Rank" [changedRank]) []).subject,
        ["SELECT * FROM \"ranks\" WHERE \"image_id\" = 1",
          "UPDATE \"ranks\" SET \"position\" = 30 WHERE \"id\" = 9",
          "DELETE FROM \"ranks\" WHERE \"id\" IN (1)"]⟩ := by rfl
  obtain ⟨run, -, -, hrows⟩ := saveThrough_overwrites rfl hmodels h
  exact ⟨_, _, run, rfl, hrows⟩

open Gallery in
/-- A pivot that was read with the position 10 and never changed takes over a row with the position
20, because its tag was replaced.  The position of the row is lost. -/
theorem saveThrough_loses_position :
    movedRank.isModified "position" = false ∧
      (rankRow 9 2 20).get? "position" = some (.integer 20) ∧
      (Relation.saveThrough ranked (pivots "Rank" "ranks") (tagOf "Rank" "rank") .diff
          (ranked.save .nil) (imageWith "ranks" "Rank" [movedRank]) []).log =
        ["SELECT * FROM \"ranks\" WHERE \"image_id\" = 1",
          "UPDATE \"ranks\" SET \"position\" = 10 WHERE \"id\" = 9",
          "DELETE FROM \"ranks\" WHERE \"id\" IN (1)"] := by
  refine ⟨by decide, rfl, ?_⟩
  rfl

end RecordMapper
