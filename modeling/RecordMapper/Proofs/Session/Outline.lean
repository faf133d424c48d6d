import RecordMapper.Proofs.Session.Loading

/-!
# What an embedding writes

Relations are attached to an entity in slots, and a route writes two of them: its own, which gets a
mark, and that of the relation to its pivot.  An outline lists the writes; it follows from the
registry and the tree alone.  `bears_embed` says that a successful embedding leaves on every owner
what the outline says, and so on every entity below.
-/

namespace RecordMapper

/-- The writes to the slots of an entity, the last of them first.  Data come with the outline of the
entities that were attached. -/
inductive Outline
  | nil
  | mark (name : String) (earlier : Outline)
  | data (name : String) (below earlier : Outline)

inductive Outline.Write
  | mark
  | data (below : Outline)

namespace Outline

def last? (name : String) : Outline → Option Write
  | nil => none
  | mark other earlier => if other = name then some .mark else earlier.last? name
  | data other below earlier => if other = name then some (.data below) else earlier.last? name

end Outline

namespace Entity

def isMarked (entity : Entity) (name : String) : Bool :=
  match entity.relation? name with
  | some .through => true
  | _ => false

def hasData (entity : Entity) (name : String) : Bool :=
  match entity.relation? name with
  | some (.one _) | some (.many _) => true
  | _ => false

theorem relation?_of_isMarked {entity : Entity} {name : String} (h : entity.isMarked name = true) :
    entity.relation? name = some .through := by
  unfold isMarked at h
  split at h
  next hslot => exact hslot
  next => cases h

theorem hasData_of_isMarked {entity : Entity} {name : String} (h : entity.isMarked name = true) :
    entity.hasData name = false := by
  rw [hasData, relation?_of_isMarked h]

theorem isLoaded_of_isMarked {entity : Entity} {name : String} (h : entity.isMarked name = true) :
    entity.isLoaded name = true :=
  isLoaded_of_relation? (relation?_of_isMarked h)

theorem isLoaded_of_hasData {entity : Entity} {name : String} (h : entity.hasData name = true) :
    entity.isLoaded name = true := by
  unfold hasData at h
  split at h
  next hslot => exact isLoaded_of_relation? hslot
  next hslot => exact isLoaded_of_relation? hslot
  next => cases h

/-- The entity has in its slots what the outline says, and so have all entities below.  A slot that
was not written is as it was before. -/
inductive Bears : (String → Option Related) → Outline → Entity → Prop
  | intro {before : String → Option Related} {outline : Outline} {entity : Entity}
      (kept : ∀ name, outline.last? name = none → entity.relation? name = before name)
      (marked : ∀ name, outline.last? name = some .mark → entity.isMarked name = true)
      (data : ∀ name below, outline.last? name = some (.data below) → entity.hasData name = true)
      (nested : ∀ name below, outline.last? name = some (.data below) →
        ∀ related ∈ entity.attached name, Bears (fun _ => none) below related) :
      Bears before outline entity

theorem bears_nil (entity : Entity) : entity.Bears entity.relation? .nil :=
  .intro (fun _ _ => rfl) (fun _ h => by cases h) (fun _ _ h => by cases h) fun _ _ h => by cases h

variable {before : String → Option Related} {outline below : Outline} {entity : Entity}

theorem bears_write (h : entity.Bears before outline) {name : String} {related : Related}
    {outline' : Outline} (write : Outline.Write)
    (hlast : ∀ other, outline'.last? other =
      if name = other then some write else outline.last? other)
    (hmark : write = .mark → related = .through)
    (hdata : ∀ below, write = .data below → related ≠ .through ∧
      ∀ found ∈ related.entities, found.Bears (fun _ => none) below) :
    (entity.setRelation name related).Bears before outline' := by
  obtain ⟨kept, marked, data, nested⟩ := h
  refine .intro (fun other hother => ?_) (fun other hother => ?_) (fun other below hother => ?_)
    fun other below hother => ?_
  all_goals
    rw [hlast] at hother
    split at hother
  next => cases hother
  next hne => rw [relation?_setRelation, if_neg (Ne.symm hne), kept other hother]
  next heq =>
      rw [hmark (Option.some.inj hother), heq]
      simp [isMarked]
  next hne => simpa [isMarked, Ne.symm hne] using marked other hother
  next heq =>
      have hrelated := (hdata below (Option.some.inj hother)).1
      rw [heq]
      cases related <;> first | exact absurd rfl hrelated | simp [hasData]
  next hne => simpa [hasData, Ne.symm hne] using data other below hother
  next heq =>
      rw [attached_setRelation, if_pos heq.symm]
      exact (hdata below (Option.some.inj hother)).2
  next hne =>
      rw [attached_setRelation, if_neg (Ne.symm hne)]
      exact nested other below hother

theorem bears_mark (h : entity.Bears before outline) (name : String) :
    (entity.setRelation name .through).Bears before (.mark name outline) :=
  bears_write h .mark (fun _ => rfl) (fun _ => rfl) nofun

theorem bears_data (h : entity.Bears before outline) (name : String) {related : Related}
    (hdata : related ≠ .through)
    (hbelow : ∀ found ∈ related.entities, found.Bears (fun _ => none) below) :
    (entity.setRelation name related).Bears before (.data name below outline) := by
  refine bears_write h (.data below) (fun _ => rfl) nofun fun other hother => ?_
  cases hother
  exact ⟨hdata, hbelow⟩

end Entity

/-! ## The outline of a tree -/

namespace Relation

/-- The outline after a relation was embedded whose far entities have the outline `below`. -/
def outline (below : Outline) : Relation → Outline → Outline
  | tie t, earlier => .data t.name below earlier
  | through name _ route far _, earlier =>
      .mark name (.data route.name (far.outline below .nil) earlier)

end Relation

namespace Registry

/-- The outline after the relations of a tree were embedded one after the other.  A relation that does
not resolve writes nothing. -/
def outline (registry : Registry) (model : String) : EmbedTree → Outline → Outline
  | .nil, earlier => earlier
  | .cons name below rest, earlier =>
      match registry.relation model name with
      | .ok relation =>
          outline registry model rest
            (relation.outline (outline registry relation.target below .nil) earlier)
      | .error _ => outline registry model rest earlier

end Registry

namespace Edit

/-- A successful run adds to what the entities bear. -/
def Adds (change : Outline → Outline) (edit : Edit (List Entity) Unit) : Prop :=
  ∀ owners log owners' log', edit owners log = ⟨.ok (), owners', log'⟩ →
    List.Forall₂ (fun owner owner' => ∀ before outline, Entity.Bears before outline owner →
      Entity.Bears before (change outline) owner') owners owners'

variable {change change' : Outline → Outline} {edit next : Edit (List Entity) Unit}

theorem adds_pure : (pure () : Edit (List Entity) Unit).Adds id := by
  intro owners log owners' log' h
  obtain ⟨-, rfl, -⟩ := run_pure h
  exact List.forall₂_same.mpr fun owner _ before outline h => h

theorem adds_bind (hedit : edit.Adds change) (hnext : next.Adds change') :
    (edit >>= fun _ => next).Adds fun outline => change' (change outline) := by
  intro owners log owners' log' h
  obtain ⟨_, middle, sent, hrun, hrest⟩ := run_bind h
  refine forall₂_comp (hedit owners log middle sent hrun) (hnext middle sent owners' log' hrest) ?_
  exact fun a b c hab hbc before outline hbears => hbc before _ (hab before outline hbears)

theorem adds_modify {update : Entity → Entity}
    (h : ∀ owner before outline, Entity.Bears before outline owner →
      Entity.Bears before (change outline) (update owner)) :
    (modify fun owners => owners.map update).Adds change := by
  intro owners log owners' log' hrun
  cases hrun
  rw [List.forall₂_map_right_iff, List.forall₂_same]
  exact fun owner _ => h owner

end Edit

namespace Tie

variable {db : Database} {tie : Tie} {finish : Edit (List Entity) Unit}
  {change : Outline → Outline}

theorem bears_fetch (hfinish : finish.Adds change) {owners owners' fetched : List Entity}
    {log log' : Log} (h : tie.fetch db finish owners owners log = ⟨.ok fetched, owners', log'⟩) :
    ∀ related ∈ fetched, related.Bears (fun _ => none) (change .nil) := by
  obtain ⟨-, ⟨-, rfl, -⟩ | ⟨-, target, sql, rows, hydrated, -, -, -, hhydrated, hrun⟩⟩ :=
    cases_of_run_fetch h
  · nofun
  · intro related hrelated
    obtain ⟨fresh, hfresh, hadds⟩ := exists_of_mem_right (hfinish _ _ _ _ hrun) hrelated
    obtain ⟨row, -, hrow⟩ := exists_of_mem_right (attempt_mapM_eq_ok.mp hhydrated) hfresh
    obtain ⟨cast, -, hrow⟩ := attempt_bind_eq_ok.mp hrow
    cases hrow
    exact hadds _ _ (Entity.bears_nil (Entity.hydrated target.model cast))

theorem attach_eq_data (tie : Tie) (fetched : List Entity) (owner : Entity) :
    ∃ related, tie.attach fetched owner = owner.setRelation tie.name related ∧
      related ≠ .through ∧ ∀ found ∈ related.entities, found ∈ fetched := by
  obtain ⟨related, hattach, hrelated, -⟩ := attach_eq tie fetched owner
  refine ⟨related, hattach, ?_, fun found hfound => (mem_relatedTo (hrelated found hfound)).1⟩
  rintro rfl
  have hslot := congrArg (fun e => Entity.relation? e tie.name) hattach
  simp only [Entity.relation?_setRelation, attach] at hslot
  cases hkind : tie.kind <;> simp [hkind] at hslot

theorem adds_embed (hfinish : finish.Adds change) :
    (tie.embed db finish).Adds (.data tie.name (change .nil)) := by
  intro owners log owners' log' h
  obtain ⟨fetched, hfetch, rfl⟩ := exists_of_run_embed h
  have hfetched := bears_fetch hfinish hfetch
  rw [attachAll_eq, List.forall₂_map_right_iff, List.forall₂_same]
  intro owner _ before outline hbears
  obtain ⟨related, hattach, hdata, hrelated⟩ := attach_eq_data tie fetched owner
  rw [hattach]
  exact Entity.bears_data hbears tie.name hdata fun found hfound =>
    hfetched found (hrelated found hfound)

end Tie

namespace Relation

variable {db : Database} {finish : Edit (List Entity) Unit} {change : Outline → Outline}

theorem adds_embed (hfinish : finish.Adds change) (relation : Relation) :
    (relation.embed db finish).Adds (relation.outline (change .nil)) := by
  induction relation with
  | tie t => exact Tie.adds_embed hfinish
  | through name correlate route far mode ih =>
      have hmark : (Edit.modify fun owners => owners.map fun owner =>
          owner.setRelation name .through).Adds (.mark name) :=
        Edit.adds_modify fun owner before outline hbears => Entity.bears_mark hbears name
      have hroute : (route.embed db (embed db finish far)).Adds
          (.data route.name (far.outline (change .nil) .nil)) := Tie.adds_embed ih
      have hboth := Edit.adds_bind hroute hmark
      exact hboth

end Relation

namespace Database

theorem adds_embed (db : Database) (tree : EmbedTree) (model : String) :
    (db.embed model tree).Adds (db.registry.outline model tree) := by
  induction tree generalizing model with
  | nil => exact Edit.adds_pure
  | cons name below rest ihbelow ihrest =>
      intro owners log owners' log' h
      obtain ⟨relation, hrelation, h⟩ := Edit.run_lift_bind h
      have hadds := Edit.adds_bind (Relation.adds_embed (ihbelow relation.target) relation)
        (ihrest model) owners log owners' log' h
      refine hadds.imp fun owner owner' hbears before outline hbefore => ?_
      rw [Registry.outline, hrelation]
      exact hbears before outline hbefore

end Database

end RecordMapper
