import RecordMapper.Proofs.Schema.CastRows
import RecordMapper.Proofs.Session.Clean
import RecordMapper.Proofs.Session.Loading

/-!
# Loaded graphs over rows that do not change

A graph that was loaded has nothing to write if the stored rows do not change, their values keep
their form, and everything was read with the keys that a save looks for.
-/

namespace RecordMapper

/-! ## Rows that do not change -/

namespace Row

/-- The answer holds the asked columns of a stored row, all columns if none is named. -/
def Shows (columns : List String) (stored answered : Row) : Prop :=
  (columns = [] → answered = stored) ∧
    ∀ column ∈ columns, answered.get? column = stored.get? column

def ShowsOnly (columns : List String) (stored answered : Row) : Prop :=
  stored.Shows columns answered ∧ (columns ≠ [] → ∀ column, column ∉ columns →
    answered.get? column = none)

/-- No value of a field is an undefined number, which is equal to nothing. -/
def IsDefined (schema : Schema) (row : Row) : Prop :=
  ∀ field value, schema.hasField field = true → row.get? field = some value →
    value.equals value = true

end Row

namespace Tie

def Asks (tie : Tie) (column : String) : Prop :=
  tie.fetchedFields = [] ∨ column ∈ tie.fetchedFields

instance (tie : Tie) (column : String) : Decidable (tie.Asks column) :=
  inferInstanceAs (Decidable (_ ∨ _))

variable (db : Database)

/-- There are stored rows that lead to an entity, and whatever is selected of them for the entity
is answered by these rows. -/
def Unchanged (tie : Tie) (columns : Schema → List String) (entity : Entity) : Prop :=
  ∀ target key rows, db.registry.schema tie.target = .ok target →
    entity.fieldKey? tie.sourceKey = some key → tie.Fetches db target key rows → ∃ stored,
      List.Forall₂ (Row.ShowsOnly tie.fetchedFields) stored
        (rows.filter (tie.leadsTo target key)) ∧
      ∀ answered, tie.Answers db target (columns target) entity answered →
        List.Forall₂ (Row.Shows (columns target)) stored answered

def HasSource (tie : Tie) (entity : Entity) : Prop :=
  ∃ own, entity.get? tie.sourceKey = some own ∧ (own.isNull = false → own.key?.isSome = true)

/-- The stored ids have the same keys when they are cast. -/
def KeepsIds (tie : Tie) (entity : Entity) : Prop :=
  ∀ target rows, db.registry.schema tie.target = .ok target →
    tie.Answers db target [target.keyName] entity rows → ∀ row ∈ rows, ∀ id read,
      row.get? target.keyName = some id → target.cast target.keyName id = .ok read →
        read.key? = id.key?

/-- The stored children were read with their ids, or they have none. -/
def KnowsIds (tie : Tie) (entity : Entity) : Prop :=
  ∀ target, db.registry.schema tie.target = .ok target → tie.Asks target.keyName ∨
    ∀ rows, tie.Answers db target [target.keyName] entity rows → ∀ row ∈ rows,
      row.id? (some target.keyName) = none

end Tie

namespace Terms

variable (db : Database)

/-- The rows that a save selects are those that were loaded. -/
def unchanged : Terms where
  own _ := True
  tie tie entity := tie.kind = .hasMany → tie.Unchanged db (fun target => [target.keyName]) entity
  mark _ _ := True
  route route _ _ entity := route.Unchanged db (fun _ => []) entity

/-- Values are equal to themselves, keys of a tie have the same form, and ids keep theirs. -/
def plain : Terms where
  own entity := ∀ schema, db.registry.schema entity.model = .ok schema →
    entity.fields.IsDefined schema
  tie tie entity :=
    (∀ related ∈ entity.attached tie.name, entity.Joined tie.sourceKey related tie.targetKey) ∧
      (tie.kind = .hasMany → tie.HasSource entity ∧ tie.KeepsIds db entity)
  mark _ _ := True
  route route _ _ entity :=
    (∀ pivot ∈ entity.attached route.name, entity.Joined route.sourceKey pivot route.targetKey) ∧
      route.HasSource entity ∧ ∀ pivot rows casts, db.registry.schema route.target = .ok pivot →
        route.Answers db pivot [] entity rows → rows.mapM pivot.castRow = .ok casts →
          ∀ row ∈ casts, row.IsDefined pivot

/-- Children were read with their ids, and pivots with keys of what they lead to. -/
def keyed : Terms where
  own _ := True
  tie tie entity := tie.kind = .hasMany → tie.KnowsIds db entity
  mark _ _ := True
  route route far _ entity := ∀ pivot ∈ entity.attached route.name,
    (pivot.fieldKey? far.sourceKey).isSome = true

def both (terms terms' : Terms) : Terms where
  own entity := terms.own entity ∧ terms'.own entity
  tie tie entity := terms.tie tie entity ∧ terms'.tie tie entity
  mark name entity := terms.mark name entity ∧ terms'.mark name entity
  route route far mode entity := terms.route route far mode entity ∧
    terms'.route route far mode entity

end Terms

/-! ## Terms of loaded graphs -/

structure Terms.Imply (db : Database) (terms terms' : Terms) : Prop where
  own : ∀ entity : Entity, entity.Loaded db → terms.own entity → terms'.own entity
  tie : ∀ (tie : Tie) (entity : Entity), entity.Loaded db →
    db.registry.relation entity.model tie.name = .ok (.tie tie) →
      entity.isLoaded tie.name = true → terms.tie tie entity → terms'.tie tie entity
  mark : ∀ name correlate route far mode (entity : Entity), entity.Loaded db →
    db.registry.relation entity.model name = .ok (.through name correlate route far mode) →
      terms.mark name entity → terms'.mark name entity
  route : ∀ name correlate route far mode (entity : Entity) collection, entity.Loaded db →
    db.registry.relation entity.model name = .ok (.through name correlate route far mode) →
      entity.relation? route.name = some (.many collection) →
        terms.route route far mode entity → terms'.route route far mode entity

section

variable {db : Database} {terms terms' : Terms}

theorem Relation.everywhere_both {below below' both : Entity → Prop}
    (hboth : ∀ related, below related → below' related → both related) {relation : Relation}
    {entity : Entity} (h : relation.Everywhere terms below entity)
    (h' : relation.Everywhere terms' below' entity) :
    relation.Everywhere (terms.both terms') both entity := by
  induction relation generalizing entity with
  | tie t =>
      intro hloaded
      obtain ⟨htie, hbelow⟩ := h hloaded
      obtain ⟨htie', hbelow'⟩ := h' hloaded
      exact ⟨⟨htie, htie'⟩, fun related hrelated =>
        hboth related (hbelow related hrelated) (hbelow' related hrelated)⟩
  | through name correlate route far mode ih =>
      intro hloaded
      obtain ⟨hmark, hroute⟩ := h hloaded
      obtain ⟨hmark', hroute'⟩ := h' hloaded
      refine ⟨⟨hmark, hmark'⟩, fun collection hcollection => ?_⟩
      obtain ⟨hterms, hpivots⟩ := hroute collection hcollection
      obtain ⟨hterms', hpivots'⟩ := hroute' collection hcollection
      refine ⟨⟨hterms, hterms'⟩, fun pivot hpivot => ?_⟩
      obtain ⟨hown, hfar⟩ := hpivots pivot hpivot
      obtain ⟨hown', hfar'⟩ := hpivots' pivot hpivot
      exact ⟨⟨hown, hown'⟩, ih hfar hfar'⟩

theorem Relation.everywhere_of_imply (himply : terms.Imply db terms') {below below' : Entity → Prop}
    (hbelow : ∀ related : Entity, related.Loaded db → below related → below' related)
    {relation : Relation} {entity : Entity} (hloaded : entity.Loaded db)
    (hrelation : db.registry.relation entity.model relation.name = .ok relation)
    (h : relation.Everywhere terms below entity) : relation.Everywhere terms' below' entity := by
  obtain ⟨-, -, hties, hattached⟩ := id hloaded
  induction relation generalizing entity with
  | tie t =>
      intro hisLoaded
      obtain ⟨htie, hrelated⟩ := h hisLoaded
      refine ⟨himply.tie t entity hloaded hrelation hisLoaded htie, fun related hmem => ?_⟩
      exact hbelow related (hattached t.name related hmem) (hrelated related hmem)
  | through name correlate route far mode ih =>
      intro hisLoaded
      obtain ⟨hmark, hroute⟩ := h hisLoaded
      obtain ⟨hrouteRelation, hfarRelation⟩ := Registry.parts_of_relation hrelation
      refine ⟨himply.mark name correlate route far mode entity hloaded hrelation hmark,
        fun collection hcollection => ?_⟩
      obtain ⟨hterms, hpivots⟩ := hroute collection hcollection
      refine ⟨himply.route name correlate route far mode entity collection hloaded hrelation
        hcollection hterms, fun pivot hpivot => ?_⟩
      obtain ⟨hown, hfar⟩ := hpivots pivot hpivot
      have hpivotLoaded : pivot.Loaded db := hattached route.name pivot hpivot
      have hmodel : pivot.model = route.target := (hties route hrouteRelation).models pivot hpivot
      rw [← hmodel] at hfarRelation
      obtain ⟨-, -, hpivotTies, hpivotAttached⟩ := id hpivotLoaded
      exact ⟨himply.own pivot hpivotLoaded hown,
        ih hpivotLoaded hfarRelation hfar hpivotTies hpivotAttached⟩

namespace Entity

theorem everywhere_of_imply (himply : terms.Imply db terms') {tree : EmbedTree} {entity : Entity}
    (hloaded : entity.Loaded db) (h : entity.Everywhere db terms tree) :
    entity.Everywhere db terms' tree := by
  induction tree generalizing entity with
  | nil => exact himply.own entity hloaded h
  | cons name below rest ihBelow ihRest =>
      refine ⟨fun relation hrelation => ?_, ihRest hloaded h.2⟩
      have hname : relation.name = name := Registry.name_of_relation hrelation
      refine Relation.everywhere_of_imply himply (fun related => ihBelow) hloaded
        (hname.symm ▸ hrelation) (h.1 relation hrelation)

theorem everywhere_both {tree : EmbedTree} {entity : Entity}
    (h : entity.Everywhere db terms tree) (h' : entity.Everywhere db terms' tree) :
    entity.Everywhere db (terms.both terms') tree := by
  induction tree generalizing entity with
  | nil => exact ⟨h, h'⟩
  | cons name below rest ihBelow ihRest =>
      refine ⟨fun relation hrelation => ?_, ihRest h.2 h'.2⟩
      exact Relation.everywhere_both (fun related => ihBelow) (h.1 relation hrelation)
        (h'.1 relation hrelation)

end Entity

end

/-! ## What a save finds -/

namespace Row

variable {columns : List String} {stored answered : Row} {column : String} {value : Value}

theorem get?_of_showsOnly (h : stored.ShowsOnly columns answered)
    (hvalue : answered.get? column = some value) : stored.get? column = some value := by
  obtain ⟨⟨hall, hasked⟩, hother⟩ := h
  cases columns with
  | nil =>
      rw [← hall rfl]
      exact hvalue
  | cons first rest =>
      by_cases hmem : column ∈ first :: rest
      · rw [← hasked column hmem]
        exact hvalue
      · rw [hother (List.cons_ne_nil first rest) column hmem] at hvalue
        cases hvalue

end Row

namespace Tie

variable {db : Database} {tie : Tie} {entity : Entity} {target : Schema}

theorem get?_of_asks {column : String} {stored answered : Row} (hasks : tie.Asks column)
    (h : stored.ShowsOnly tie.fetchedFields answered) :
    answered.get? column = stored.get? column := by
  cases hasks with
  | inl hall => rw [h.1.1 hall]
  | inr hmem => exact h.1.2 column hmem

theorem get?_of_not_asks {column : String} {stored answered : Row} (hasks : ¬ tie.Asks column)
    (h : stored.ShowsOnly tie.fetchedFields answered) : answered.get? column = none := by
  unfold Asks at hasks
  rw [not_or] at hasks
  exact h.2 hasks.1 column hasks.2

theorem fieldKey?_of_answers {columns : List String} {rows : List Row}
    (hsource : tie.HasSource entity) (h : tie.Answers db target columns entity rows) :
    ∃ key, entity.fieldKey? tie.sourceKey = some key := by
  obtain ⟨own, hown, hkey⟩ := hsource
  obtain ⟨found, value, log, sql, hfound, hsame, hnull, -⟩ := h
  rw [hown] at hfound
  cases hfound
  have hownNull : own.isNull = false := by rw [Value.isNull_eq_of_same hsame, hnull]
  obtain ⟨key, hownKey⟩ := Option.isSome_iff_exists.mp (hkey hownNull)
  exact ⟨key, by rw [Entity.fieldKey?, hown]; exact hownKey⟩

/-- Behind the rows that answer for an entity, and behind what was attached to it, are the same
stored rows. -/
theorem exists_stored (columns : Schema → List String) {rows : List Row}
    (hloads : tie.Loads db entity) (hkind : tie.kind = .hasMany)
    (hisLoaded : entity.isLoaded tie.name = true) (hsource : tie.HasSource entity)
    (hunchanged : tie.Unchanged db columns entity)
    (htarget : db.registry.schema tie.target = .ok target)
    (hrows : tie.Answers db target (columns target) entity rows) :
    ∃ stored, List.Forall₂ (fun row related => ∃ fetched, row.ShowsOnly tie.fetchedFields fetched ∧
        target.castRow fetched = .ok related.fields) stored (entity.attached tie.name) ∧
      ∀ answered, tie.Answers db target (columns target) entity answered →
        List.Forall₂ (Row.Shows (columns target)) stored answered := by
  obtain ⟨key, hkey⟩ := fieldKey?_of_answers hsource hrows
  obtain ⟨fetched, hfetches, hread⟩ := hloads.rows hkind hisLoaded key target hkey htarget
  obtain ⟨stored, hshown, hanswers⟩ := hunchanged target key fetched htarget hkey hfetches
  refine ⟨stored, forall₂_comp hshown hread ?_, hanswers⟩
  exact fun row fetched related hshows hcast => ⟨fetched, hshows, hcast⟩

theorem keepsChildren_of_loads (hloads : tie.Loads db entity) (hkind : tie.kind = .hasMany)
    (hisLoaded : entity.isLoaded tie.name = true) (hsource : tie.HasSource entity)
    (hunchanged : tie.Unchanged db (fun target => [target.keyName]) entity)
    (hids : tie.KeepsIds db entity) (hknows : tie.KnowsIds db entity) :
    tie.KeepsChildren db entity := by
  intro target rows htarget hrows row hrow id hid hsome
  cases hknows target htarget with
  | inr hnone =>
      have hnoId : row.id? (some target.keyName) = none := hnone rows hrows row hrow
      rw [Row.id?, Option.bind_some, hid, Option.bind_some] at hnoId
      rw [hnoId] at hsome
      cases hsome
  | inl hasks =>
      obtain ⟨stored, hattached, hanswers⟩ := exists_stored (fun target => [target.keyName])
        hloads hkind hisLoaded hsource hunchanged htarget hrows
      obtain ⟨storedRow, hstored, hshows⟩ := exists_of_mem_right (hanswers rows hrows) hrow
      obtain ⟨child, hchild, fetched, honly, hcast⟩ := exists_of_mem_left hattached hstored
      have hfetched : fetched.get? target.keyName = some id := by
        rw [get?_of_asks hasks honly, ← hid]
        exact (hshows.2 target.keyName (List.mem_singleton_self _)).symm
      obtain ⟨read, hread, hchildId⟩ := Schema.get?_castRow_of_some hcast hfetched
      refine ⟨child, hchild, ?_⟩
      rw [← hids target rows htarget hrows row hrow id read hid hread]
      exact congrArg (fun value? => value?.bind Value.key?) hchildId

theorem clean_of_loads (hloads : tie.Loads db entity)
    (hisLoaded : entity.isLoaded tie.name = true)
    (hunchanged : (Terms.unchanged db).tie tie entity) (hplain : (Terms.plain db).tie tie entity)
    (hkeyed : (Terms.keyed db).tie tie entity) : tie.Clean db entity := by
  refine ⟨hplain.1, fun hkind => ?_, fun hkind => ?_⟩
  · obtain ⟨own, hown, -⟩ := (hplain.2 hkind).1
    rw [hown]
    rfl
  · obtain ⟨hsource, hids⟩ := hplain.2 hkind
    exact keepsChildren_of_loads hloads hkind hisLoaded hsource (hunchanged hkind) hids
      (hkeyed hkind)

/-- A pivot was read from the row, perhaps from some of its columns only. -/
def ReadsPivot (tie : Tie) (schema : Schema) (cast : Row) (pivot : Entity) : Prop :=
  ∃ row fetched, schema.castRow row = .ok cast ∧ row.ShowsOnly tie.fetchedFields fetched ∧
    schema.castRow fetched = .ok pivot.fields

theorem get?_of_readsPivot {cast : Row} {pivot : Entity} {column : String} {value : Value}
    (h : tie.ReadsPivot target cast pivot) (hvalue : pivot.get? column = some value) :
    cast.get? column = some value := by
  obtain ⟨row, fetched, hcast, hshows, hfetched⟩ := h
  cases hread : fetched.get? column with
  | none =>
      have hnone : pivot.get? column = none := Schema.get?_castRow_of_none hfetched hread
      rw [hnone] at hvalue
      cases hvalue
  | some stored =>
      have hrow : row.get? column = fetched.get? column := by
        rw [hread]
        exact Row.get?_of_showsOnly hshows hread
      have hsame : cast.get? column = pivot.get? column :=
        Schema.get?_castRow_eq hfetched hcast hrow
      rw [hsame, hvalue]

theorem fits_of_readsPivot {farKey : String} {cast : Row} {pivot : Entity}
    (h : tie.ReadsPivot target cast pivot) (hdefined : cast.IsDefined target)
    (hfar : (pivot.fieldKey? farKey).isSome = true) : pivot.Fits target farKey cast := by
  refine ⟨fun field value hfield hvalue => ?_, hdefined, ?_⟩
  · have hcast : cast.get? field = some value := get?_of_readsPivot h hvalue
    exact ⟨value, hcast, hdefined field value hfield hcast⟩
  · obtain ⟨far, hfar⟩ := Option.isSome_iff_exists.mp hfar
    obtain ⟨value, hvalue, hkey⟩ := Option.bind_eq_some_iff.mp hfar
    refine Entity.sharesFar_iff.mpr ⟨far, hfar, Row.hasKey_iff.mpr ?_⟩
    rw [get?_of_readsPivot h hvalue]
    exact hkey

/-- Either the key of the pivots was fetched with them, or none of them was read with an id. -/
theorem haveIds_of_readsPivot {key : Option String} {casts : List Row} {pivots : List Entity}
    (hread : List.Forall₂ (tie.ReadsPivot target) casts pivots)
    (hsnapshot : ∀ pivot ∈ pivots, pivot.snapshot = some pivot.fields) :
    Entity.HaveIds key casts pivots := by
  have hid : ∀ column, ∀ pivot ∈ pivots, pivot.storedId? (some column) = pivot.fieldKey? column := by
    intro column pivot hpivot
    have hstored : pivot.stored? column = pivot.get? column := by
      rw [Entity.stored?, hsnapshot pivot hpivot]
      rfl
    rw [Entity.storedId?, Option.bind_some, hstored]
    rfl
  cases key with
  | none => exact .inl fun pivot _ => rfl
  | some column =>
      by_cases hasks : tie.Asks column
      · refine .inr (List.forall₂_iff_zip.mpr ⟨hread.length_eq, fun {cast pivot} hpair => ?_⟩)
        obtain ⟨row, fetched, hcast, hshows, hfetched⟩ := List.forall₂_zip hread hpair
        have hsame : cast.get? column = pivot.get? column :=
          Schema.get?_castRow_eq hfetched hcast (get?_of_asks hasks hshows).symm
        rw [hid column pivot (List.of_mem_zip hpair).2, Row.id?, Option.bind_some, hsame]
        rfl
      · refine .inl fun pivot hpivot => ?_
        obtain ⟨cast, -, row, fetched, -, hshows, hfetched⟩ := exists_of_mem_right hread hpivot
        have hnone : pivot.get? column = none :=
          Schema.get?_castRow_of_none hfetched (get?_of_not_asks hasks hshows)
        rw [hid column pivot hpivot, Entity.fieldKey?, hnone]
        rfl

theorem eq_of_shows {stored rows : List Row} (h : List.Forall₂ (Row.Shows []) stored rows) :
    rows = stored := by
  rw [← List.forall₂_eq_eq_eq]
  exact h.flip.imp fun answered row hshows => hshows.1 rfl

theorem cleanRoute_of_loads {far : Relation} {mode : PivotMode} {collection : Collection}
    (hloads : tie.Loads db entity)
    (hrelation : entity.relation? tie.name = some (.many collection))
    (hsnapshot : ∀ pivot ∈ entity.attached tie.name, pivot.snapshot = some pivot.fields)
    (hunchanged : (Terms.unchanged db).route tie far mode entity)
    (hplain : (Terms.plain db).route tie far mode entity)
    (hkeyed : (Terms.keyed db).route tie far mode entity) :
    tie.CleanRoute db far.sourceKey entity := by
  obtain ⟨hjoined, hsource, hdefined⟩ := hplain
  have hkind : tie.kind = .hasMany := hloads.shape collection hrelation
  have hisLoaded : entity.isLoaded tie.name = true := Entity.isLoaded_of_relation? hrelation
  have hsteady : ∀ pivot rows, db.registry.schema tie.target = .ok pivot →
      tie.Answers db pivot [] entity rows → ∃ stored,
        List.Forall₂ (fun row related => ∃ fetched, row.ShowsOnly tie.fetchedFields fetched ∧
          pivot.castRow fetched = .ok related.fields) stored (entity.attached tie.name) ∧
        ∀ answered, tie.Answers db pivot [] entity answered → answered = stored := by
    intro pivot rows hpivot hrows
    obtain ⟨stored, hattached, hanswers⟩ := exists_stored (fun _ => []) hloads hkind
      hisLoaded hsource hunchanged hpivot hrows
    exact ⟨stored, hattached, fun answered hanswered => eq_of_shows (hanswers answered hanswered)⟩
  refine ⟨hjoined, ?_, hloads.models, fun pivot rows rows' hpivot hrows hrows' => ?_,
    fun pivot rows casts hpivot hrows hcasts => ?_⟩
  · obtain ⟨own, hown, -⟩ := hsource
    rw [hown]
    rfl
  · obtain ⟨stored, -, hanswers⟩ := hsteady pivot rows hpivot hrows
    rw [hanswers rows hrows, hanswers rows' hrows']
  · obtain ⟨stored, hattached, hanswers⟩ := hsteady pivot rows hpivot hrows
    have hsame : rows = stored := hanswers rows hrows
    subst hsame
    have hread : List.Forall₂ (tie.ReadsPivot pivot) casts (entity.attached tie.name) := by
      refine forall₂_comp (attempt_mapM_eq_ok.mp hcasts).flip hattached ?_
      exact fun cast row related hcast ⟨fetched, hshows, hfetched⟩ =>
        ⟨row, fetched, hcast, hshows, hfetched⟩
    refine ⟨List.forall₂_iff_zip.mpr ⟨hread.length_eq, fun {cast related} hpair => ?_⟩,
      haveIds_of_readsPivot hread hsnapshot⟩
    obtain ⟨hcast, hrelated⟩ := List.of_mem_zip hpair
    exact fits_of_readsPivot (List.forall₂_zip hread hpair)
      (hdefined pivot rows casts hpivot hrows hcasts cast hcast) (hkeyed related hrelated)

end Tie

namespace Entity

variable {db : Database} {entity : Entity}

theorem isSettled_of_loaded (hloaded : entity.Loaded db) (hplain : (Terms.plain db).own entity) :
    entity.IsSettled db := by
  intro schema hschema
  obtain ⟨hsnapshot, -, -, -⟩ := hloaded
  exact ⟨entity.fields, hsnapshot, fun field value hfield hvalue =>
    ⟨value, hvalue, hplain schema hschema field value hfield hvalue⟩⟩

theorem snapshot_of_loaded (h : entity.Loaded db) : entity.snapshot = some entity.fields := by
  obtain ⟨hsnapshot, -, -, -⟩ := h
  exact hsnapshot

theorem imply_clean (hdiff : db.registry.ReconcilesByDiff) :
    (((Terms.unchanged db).both (.plain db)).both (.keyed db)).Imply db (.clean db) where
  own entity hloaded hterms := isSettled_of_loaded hloaded hterms.1.2
  tie tie entity hloaded hrelation hisLoaded hterms := by
    obtain ⟨-, -, hties, -⟩ := hloaded
    exact Tie.clean_of_loads (hties tie hrelation) hisLoaded hterms.1.1 hterms.1.2 hterms.2
  mark name correlate route far mode entity hloaded hrelation _ := by
    obtain ⟨-, hmarks, -, -⟩ := hloaded
    exact hmarks name name correlate route far mode hrelation
  route name correlate route far mode entity collection hloaded hrelation hcollection hterms := by
    obtain ⟨-, -, hties, hbelow⟩ := hloaded
    have hroute := (Registry.parts_of_relation hrelation).1
    refine ⟨Registry.mode_of_relation hdiff hrelation, ?_⟩
    exact Tie.cleanRoute_of_loads (hties route hroute) hcollection
      (fun pivot hpivot => snapshot_of_loaded (hbelow route.name pivot hpivot))
      hterms.1.1 hterms.1.2 hterms.2

/-- A loaded graph has nothing to write, if its rows do not change, its values are plain, and it was
read with the keys that a save looks for. -/
theorem clean_of_loaded {tree : EmbedTree} (hdiff : db.registry.ReconcilesByDiff)
    (hloaded : entity.Loaded db) (hunchanged : entity.Everywhere db (.unchanged db) tree)
    (hplain : entity.Everywhere db (.plain db) tree)
    (hkeyed : entity.Everywhere db (.keyed db) tree) : entity.Clean db tree := by
  have hboth := everywhere_both (everywhere_both hunchanged hplain) hkeyed
  exact everywhere_of_imply (imply_clean hdiff) hloaded hboth

end Entity

end RecordMapper
