import RecordMapper.Proofs.Entity.Covering
import RecordMapper.Proofs.Session.UsableRoutes

/-!
# Opening views through a pivot

A view opens on the pivots that are attached to an entity, or on none in a new entity.  Opening it fails
before anything is attached when the relation is a tie, or when a stored entity has no pivots attached.
When the way to the pivots does not hold a list, it fails only after the mark of the relation was set:
the mark stays, and what was attached under the name of the relation is lost.  `openThrough_atomic_iff`
says that these are the only entities that a failure changes.
-/

namespace RecordMapper

namespace Entity

variable {owner : Entity} {name : String} {route : Tie} {pivots : Collection}

theorem setRelation_of_relation? {related : Related} (h : owner.relation? name = some related) :
    owner.setRelation name related = owner := by
  cases owner
  rw [setRelation, insertPair_of_lookup h]

/-! ## What stands on the way to the pivots -/

/-- A stored entity without anything attached on the way to the pivots. -/
def LacksPivots (owner : Entity) (route : Tie) : Prop :=
  owner.relation? route.name = none ∧ owner.isStored = true

/-- Under the name of the way to the pivots stands something else than a list: what is attached there, or
the mark of the relation, if it has the same name. -/
def HoldsNoList (owner : Entity) (name : String) (route : Tie) : Prop :=
  name = route.name ∨
    ∃ related, owner.relation? route.name = some related ∧ ∀ pivots, related ≠ .many pivots

/-- The list on which a view opens. -/
def OpensOn (owner : Entity) (route : Tie) (pivots : Collection) : Prop :=
  owner.relation? route.name = some (.many pivots) ∨
    owner.relation? route.name = none ∧ owner.isStored = false ∧ pivots = .empty route.target

theorem many_of_not_list {related : Related} (h : owner.relation? name = some related)
    (hlist : ∀ pivots, related ≠ .many pivots) :
    owner.many name = .error (.relationShape owner.model name "collection") := by
  rw [many, relation, h]
  cases related with
  | many pivots => exact absurd rfl (hlist pivots)
  | one _ => rfl
  | through => rfl

theorem many_marked_of_holdsNoList (h : owner.HoldsNoList name route) :
    (owner.setRelation name .through).many route.name =
      .error (.relationShape owner.model route.name "collection") := by
  by_cases hname : route.name = name
  · have hmark : (owner.setRelation name .through).relation? route.name = some .through := by
      rw [relation?_setRelation, if_pos hname]
    exact many_of_not_list hmark nofun
  · obtain ⟨related, hrelated, hlist⟩ := h.resolve_left (Ne.symm hname)
    have hkept : (owner.setRelation name .through).relation? route.name = some related := by
      rw [relation?_setRelation, if_neg hname, hrelated]
    exact many_of_not_list hkept hlist

theorem relation?_marked (owner : Entity) (pivots : Collection) (hname : name ≠ route.name) :
    ((owner.setRelation route.name (.many pivots)).setRelation name .through).relation? route.name =
      some (.many pivots) := by
  rw [relation?_setRelation, if_neg (Ne.symm hname), relation?_setRelation, if_pos rfl]

theorem name_ne_of_holds_list (h : ¬ owner.HoldsNoList name route) : name ≠ route.name :=
  fun hname => h (.inl hname)

theorem exists_list_of_relation? {related : Related} (h : ¬ owner.HoldsNoList name route)
    (hrelated : owner.relation? route.name = some related) : ∃ pivots, related = .many pivots := by
  cases related with
  | many pivots => exact ⟨pivots, rfl⟩
  | one _ | through => exact absurd (.inr ⟨_, hrelated, nofun⟩) h

/-! ## The outcome -/

inductive Opening (owner : Entity) (name : String) (route : Tie) (far : Relation) :
    Entity × Attempt ThroughView → Prop
  | refused (unattached : owner.LacksPivots route) :
      Opening owner name route far (owner, .error (.relationNotLoaded owner.model name))
  | misshapen (attached : ¬ owner.LacksPivots route) (noList : owner.HoldsNoList name route) :
      Opening owner name route far (owner.setRelation name .through,
        .error (.relationShape owner.model route.name "collection"))
  | opened {pivots : Collection} (list : ¬ owner.HoldsNoList name route)
      (shown : owner.OpensOn route pivots) :
      Opening owner name route far
        ((owner.setRelation route.name (.many pivots)).setRelation name .through,
          .ok { route := route.name, far := far.name, pivotModel := route.target, pivots })

/-- Nothing is attached on the way: a stored entity is refused, and a new one gets an empty list. -/
theorem opening_of_unattached (hrelated : owner.relation? route.name = none)
    (name correlate : String) (far : Relation) (mode : PivotMode) :
    Opening owner name route far (owner.openThrough (.through name correlate route far mode)) := by
  have hloaded : owner.isLoaded route.name = false := by rw [isLoaded, hrelated]; rfl
  cases hstored : owner.isStored with
  | true =>
      simp only [openThrough, hloaded, hstored, Bool.not_false, Bool.and_self, if_true]
      exact .refused ⟨hrelated, hstored⟩
  | false =>
      have hattached : ¬ owner.LacksPivots route := by
        rintro ⟨-, h⟩
        rw [hstored] at h
        cases h
      simp only [openThrough, hloaded, hstored, Bool.and_false, Bool.false_eq_true, if_false]
      by_cases hlist : owner.HoldsNoList name route
      · -- Only the mark itself can stand where nothing is attached.
        obtain hname | ⟨_, h, -⟩ := hlist
        · rw [← hname, setRelation_setRelation, hname, many_marked_of_holdsNoList (.inl rfl)]
          exact .misshapen hattached (.inl rfl)
        · rw [hrelated] at h
          cases h
      · rw [many_of_relation? (relation?_marked owner _ (name_ne_of_holds_list hlist))]
        exact .opened hlist (.inr ⟨hrelated, hstored, rfl⟩)

/-- Something is attached on the way: all depends on whether it is a list that the mark leaves alone. -/
theorem opening_of_attached {related : Related} (hrelated : owner.relation? route.name = some related)
    (name correlate : String) (far : Relation) (mode : PivotMode) :
    Opening owner name route far (owner.openThrough (.through name correlate route far mode)) := by
  have hloaded : owner.isLoaded route.name = true := isLoaded_of_relation? hrelated
  have hattached : ¬ owner.LacksPivots route := by
    rintro ⟨h, -⟩
    rw [hrelated] at h
    cases h
  simp only [openThrough, hloaded, Bool.not_true, Bool.false_and, Bool.false_eq_true, if_false,
    if_true]
  by_cases hlist : owner.HoldsNoList name route
  · rw [many_marked_of_holdsNoList hlist]
    exact .misshapen hattached hlist
  · obtain ⟨pivots, rfl⟩ := exists_list_of_relation? hlist hrelated
    have hmarked := relation?_marked owner pivots (name_ne_of_holds_list hlist)
    have hopened : Opening owner name route far (_, .ok _) := .opened hlist (.inl hrelated)
    rw [setRelation_of_relation? hrelated] at hmarked hopened
    rw [many_of_relation? hmarked]
    exact hopened

theorem opening (owner : Entity) (name correlate : String) (route : Tie) (far : Relation)
    (mode : PivotMode) :
    Opening owner name route far (owner.openThrough (.through name correlate route far mode)) := by
  cases hrelated : owner.relation? route.name with
  | none => exact opening_of_unattached hrelated name correlate far mode
  | some _ => exact opening_of_attached hrelated name correlate far mode

/-! ## What a failure changes -/

/-- Opening a view fails and leaves the mark of the relation where something else stood, or nothing. -/
def LeavesMark (owner : Entity) : Relation → Prop
  | .tie _ => False
  | .through name _ route _ _ =>
      ¬ owner.LacksPivots route ∧ owner.HoldsNoList name route ∧
        owner.relation? name ≠ some .through

theorem setRelation_ne (h : owner.relation? name ≠ some .through) :
    owner.setRelation name .through ≠ owner := by
  intro heq
  have hmark : (owner.setRelation name .through).relation? name = some .through := by
    rw [relation?_setRelation, if_pos rfl]
  exact h (heq ▸ hmark)

theorem openThrough_of_leavesMark {relation : Relation} (h : owner.LeavesMark relation) :
    (∃ error, (owner.openThrough relation).2 = .error error) ∧
      (owner.openThrough relation).1 = owner.setRelation relation.name .through := by
  cases relation with
  | tie _ => cases h
  | through name correlate route far mode =>
      obtain ⟨hattached, hlist, -⟩ := h
      have hopening := opening owner name correlate route far mode
      generalize owner.openThrough _ = outcome at hopening ⊢
      cases hopening with
      | refused unattached => exact absurd unattached hattached
      | misshapen _ _ => exact ⟨⟨_, rfl⟩, rfl⟩
      | opened list _ => exact absurd hlist list

theorem openThrough_of_not_leavesMark {relation : Relation} (h : ¬ owner.LeavesMark relation)
    (hfails : ∃ error, (owner.openThrough relation).2 = .error error) :
    (owner.openThrough relation).1 = owner := by
  cases relation with
  | tie _ => rfl
  | through name correlate route far mode =>
      have hopening := opening owner name correlate route far mode
      generalize owner.openThrough _ = outcome at hopening hfails ⊢
      cases hopening with
      | refused _ => rfl
      | misshapen attached noList =>
          by_cases hmark : owner.relation? name = some .through
          · exact setRelation_of_relation? hmark
          · exact absurd ⟨attached, noList, hmark⟩ h
      | opened _ _ =>
          obtain ⟨_, herror⟩ := hfails
          cases herror

/-- A failure leaves the entity as it was, except that it may leave the mark of the relation. -/
theorem openThrough_atomic_iff (owner : Entity) (relation : Relation) :
    (((∃ error, (owner.openThrough relation).2 = .error error) →
        (owner.openThrough relation).1 = owner) ↔ ¬ owner.LeavesMark relation) ∧
      (owner.LeavesMark relation →
        (owner.openThrough relation).1 = owner.setRelation relation.name .through) := by
  refine ⟨⟨fun hatomic hmark => ?_, openThrough_of_not_leavesMark⟩,
    fun hmark => (openThrough_of_leavesMark hmark).2⟩
  obtain ⟨hfails, hopened⟩ := openThrough_of_leavesMark hmark
  have hsame := hopened.symm.trans (hatomic hfails)
  cases relation with
  | tie _ => exact hmark
  | through _ _ _ _ _ => exact setRelation_ne hmark.2.2 hsame

end Entity

namespace Gallery

/-- A new image with a pivot as its cover, and with a list of tags under the name of the relation that leads
over the cover. -/
def coveredImage : Entity :=
  ((Entity.new "Image").setRelation "cover" (.one (some (newPivot 2)))).setRelation "cover_tags"
    (.many ⟨"Tag", [secondTag]⟩)

end Gallery

open Gallery in
/-- A list of tags is lost when no view opens over a cover. -/
theorem openThrough_loses_tags :
    coveredOnce.registry.relation "Image" "cover_tags" = .ok coverTags ∧
      (coveredImage.openThrough coverTags).2 =
        .error (.relationShape "Image" "cover" "collection") ∧
      coveredImage.relation? "cover_tags" = some (.many ⟨"Tag", [secondTag]⟩) ∧
      (coveredImage.openThrough coverTags).1.relation? "cover_tags" = some .through :=
  ⟨by rfl, by rfl, by rfl, by rfl⟩

end RecordMapper
