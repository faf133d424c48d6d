import RecordMapper.Proofs.Registry.Circles
import RecordMapper.Proofs.Session.Fetching
import RecordMapper.Proofs.Session.Gallery
import RecordMapper.Proofs.Session.Quiet
import RecordMapper.Session.Embedding

/-!
# How many selections an embedding sends

A relation is embedded on all owners at once.  The number of selections depends on the registry and
on the tree, and neither on the owners nor on the answers: a tie takes one, and a route takes one for
its pivot and those of the relation that leads on from there.
-/

namespace RecordMapper

namespace Relation

/-- The selections of a relation, without those of the relations below it. -/
def selections : Relation → Nat
  | tie _ => 1
  | through _ _ _ far _ => 1 + far.selections

end Relation

namespace Registry

/-- The selections of a tree of relations of a model. -/
def selections (registry : Registry) (model : String) : EmbedTree → Nat
  | .nil => 0
  | .cons name below rest =>
      match registry.relation model name with
      | .ok relation =>
          relation.selections + selections registry relation.target below +
            selections registry model rest
      | .error _ => 0

variable {registry : Registry} {model name : String} {below rest : EmbedTree}

/-- A route embeds the tree of its far relation alone on the pivots, and leaves a mark. -/
theorem embed_through {db : Database} {own correlate : String} {route : Tie} {far : Relation}
    {mode : PivotMode}
    (h : db.registry.relation model name = .ok (.through own correlate route far mode)) :
    (Relation.through own correlate route far mode).embed db (db.embed far.target below) =
      (do route.embed db (db.embed route.target (.cons far.name below .nil))
          Edit.modify fun owners => owners.map fun owner => owner.setRelation own .through) := by
  have hname : own = name := name_of_relation h
  have hfar : db.registry.relation route.target far.name = .ok far :=
    (parts_of_relation (hname ▸ h)).2
  have htree : db.embed route.target (.cons far.name below .nil) =
      far.embed db (db.embed far.target below) >>= fun _ => pure () := by
    rw [Database.embed, hfar]
    rfl
  rw [htree, bind_pure_unit]
  rfl

end Registry

namespace Edit

variable {σ τ α β : Type} {count count' : Nat}

def SendsAtMost (count : Nat) (edit : Edit σ α) : Prop :=
  ∀ subject log, (edit subject log).log.length ≤ log.length + count

theorem sendsAtMost_pure (a : α) : (pure a : Edit σ α).SendsAtMost count :=
  fun _ log => Nat.le_add_right log.length count

theorem sendsAtMost_modify (change : σ → σ) : (modify change).SendsAtMost 0 :=
  fun _ _ => Nat.le_refl _

theorem sendsAtMost_bind {edit : Edit σ α} {next : α → Edit σ β} (hedit : edit.SendsAtMost count)
    (hnext : ∀ a, (next a).SendsAtMost count') : (edit >>= next).SendsAtMost (count + count') := by
  intro subject log
  have hfirst := hedit subject log
  rw [bind_apply]
  cases (edit subject log).result with
  | error error =>
      dsimp only
      omega
  | ok a =>
      have hsecond := hnext a (edit subject log).subject (edit subject log).log
      dsimp only
      omega

theorem sendsAtMost_bind_modify {edit : Edit σ α} (change : α → σ → σ)
    (hedit : edit.SendsAtMost count) : (edit >>= fun a => modify (change a)).SendsAtMost count :=
  sendsAtMost_bind hedit fun _ => sendsAtMost_modify _

theorem sendsAtMost_lift_bind {attempt : Attempt α} {next : α → Edit σ β}
    (hnext : ∀ a, attempt = .ok a → (next a).SendsAtMost count) :
    ((liftM attempt : Edit σ α) >>= next).SendsAtMost count := by
  intro subject log
  cases attempt with
  | error error => exact Nat.le_add_right log.length count
  | ok a => exact hnext a rfl subject log

theorem sendsAtMost_subject_bind {next : σ → Edit σ β} (hnext : ∀ s, (next s).SendsAtMost count) :
    (Edit.subject >>= next).SendsAtMost count :=
  fun subject log => hnext subject subject log

theorem sendsAtMost_applyTo {edit : Edit τ Unit} (value : τ) (hedit : edit.SendsAtMost count) :
    (applyTo value edit : Edit σ τ).SendsAtMost count :=
  fun _ log => hedit value log

end Edit

namespace Database

open Edit

variable {σ : Type} {finish : Edit (List Entity) Unit} {count : Nat}

theorem sendsAtMost_execute (db : Database) (text : Attempt String) :
    (db.execute text : Edit σ (List Row)).SendsAtMost 1 := by
  refine sendsAtMost_lift_bind fun sql _ subject log => ?_
  rw [send_apply, List.length_append]
  exact Nat.le_refl _

theorem sendsAtMost_load (db : Database) (schema : Schema) (select : Select)
    (hfinish : finish.SendsAtMost count) :
    (db.load schema select finish : Edit σ (List Entity)).SendsAtMost (1 + count) :=
  sendsAtMost_bind (sendsAtMost_execute db _) fun _ => sendsAtMost_lift_bind fun hydrated _ =>
    sendsAtMost_applyTo hydrated hfinish

theorem allowsFetches_isSelection (db : Database) (model : String) (tree : EmbedTree)
    (owners : List Entity) : db.AllowsFetches model tree owners IsSelection :=
  fun _ _ hsql => Select.begins_render hsql

end Database

namespace Tie

open Edit

variable {finish : Edit (List Entity) Unit} {count : Nat}

theorem sendsAtMost_embed (db : Database) (tie : Tie) (hfinish : finish.SendsAtMost count) :
    (tie.embed db finish).SendsAtMost (1 + count) := by
  refine sendsAtMost_subject_bind fun owners => sendsAtMost_bind_modify tie.attachAll ?_
  refine sendsAtMost_lift_bind fun _ _ => sendsAtMost_lift_bind fun _ _ => ?_
  dsimp only
  split
  · exact sendsAtMost_pure []
  · exact sendsAtMost_lift_bind fun target _ => Database.sendsAtMost_load db target _ hfinish

end Tie

namespace Relation

open Edit

variable {finish : Edit (List Entity) Unit} {count : Nat}

theorem sendsAtMost_embed (db : Database) (hfinish : finish.SendsAtMost count)
    (relation : Relation) :
    (relation.embed db finish).SendsAtMost (relation.selections + count) := by
  induction relation with
  | tie t => exact Tie.sendsAtMost_embed db t hfinish
  | through name correlate route far mode ih =>
      rw [selections, Nat.add_assoc]
      exact sendsAtMost_bind_modify _ (Tie.sendsAtMost_embed db route ih)

end Relation

namespace Database

open Edit

theorem sendsAtMost_embed (db : Database) (tree : EmbedTree) (model : String) :
    (db.embed model tree).SendsAtMost (db.registry.selections model tree) := by
  induction tree generalizing model with
  | nil => exact sendsAtMost_pure ()
  | cons name below rest ihbelow ihrest =>
      refine sendsAtMost_lift_bind fun relation hrelation => ?_
      rw [Registry.selections, hrelation]
      exact sendsAtMost_bind (Relation.sendsAtMost_embed db (ihbelow relation.target) relation)
        fun _ => ihrest model

end Database

/-- Without circles of routes, every relation resolves to an answer that no fuel changes, and the
embedding of a tree sends at most its number of selections, whatever the owners and the answers. -/
theorem embed_sends_few_selections {registry : Registry} (h : registry.CircleFree)
    (model : String) (tree : EmbedTree) :
    (∀ source name, ¬ Registry.Circular (registry.relation source name) ∧
      ∀ fuel > registry.declaredRelations,
        registry.resolve fuel source name = registry.relation source name) ∧
    ∀ connection owners log, ∃ sent : List String,
      (Database.embed ⟨connection, registry⟩ model tree owners log).log = log ++ sent ∧
        sent.length ≤ registry.selections model tree ∧
        ∀ sql ∈ sent, StatementKind.select.begins sql = true := by
  constructor
  · intro source name
    exact ⟨Registry.not_circular_resolve h (Nat.lt_succ_self _) source name,
      fun fuel hfuel => Registry.resolve_eq_relation h hfuel source name⟩
  · intro connection owners log
    obtain ⟨sent, hlog, hsent⟩ := Database.sendsFrom_embed
      (Database.allowsFetches_isSelection ⟨connection, registry⟩ model tree owners) log
    have hcount := Database.sendsAtMost_embed ⟨connection, registry⟩ tree model owners log
    rw [hlog, List.length_append] at hcount
    exact ⟨sent, hlog, Nat.le_of_add_le_add_left hcount, hsent⟩

namespace Gallery

theorem names_of_route {model name : String} {options : RouteOptions}
    (h : registry.Declares model name (.route options)) :
    name ∈ ["tags", "label_tags"] ∧ options.through ∉ ["tags", "label_tags"] ∧
      options.far ∉ ["tags", "label_tags"] := by
  obtain ⟨schema, decl, hschema, hdecl, hoptions⟩ := h
  have hname : decl.name = name := by simpa using List.find?_some hdecl
  have hmem : decl ∈ registry.schemas.flatMap Schema.relations :=
    List.mem_flatMap.mpr ⟨schema, Registry.mem_schemas_of_schema hschema,
      List.mem_of_find?_eq_some hdecl⟩
  simp only [registry, gallery, image, imageTag, label, tag, Gallery.model, hasMany, belongsTo,
    route, List.flatMap_cons, List.flatMap_nil, List.append_nil, List.cons_append, List.nil_append,
    List.mem_cons, List.not_mem_nil, or_false] at hmem
  rcases hmem with rfl | rfl | rfl | rfl | rfl | rfl | rfl | rfl <;> cases hoptions <;>
    rw [← hname] <;> decide

theorem circleFree_registry : registry.CircleFree := by
  refine Registry.circleFree_of_rank
    (fun relation => if relation.2 ∈ ["tags", "label_tags"] then 1 else 0) ?_
  intro relation next hstep
  cases hstep with
  | toPivot h =>
      obtain ⟨hname, hthrough, -⟩ := names_of_route h
      rw [if_pos hname, if_neg hthrough]
      exact Nat.one_pos
  | onward h _ _ =>
      obtain ⟨hname, -, hfar⟩ := names_of_route h
      rw [if_pos hname, if_neg hfar]
      exact Nat.one_pos

end Gallery

/-- The tags of images take one selection of pivots and one of tags. -/
theorem embed_tags_sends_two :
    Gallery.registry.CircleFree ∧
    ∀ connection owners log, ∃ sent : List String,
      (Database.embed ⟨connection, Gallery.registry⟩ "Image" (.cons "tags" .nil .nil) owners
          log).log = log ++ sent ∧
        sent.length ≤ 2 ∧ ∀ sql ∈ sent, StatementKind.select.begins sql = true :=
  ⟨Gallery.circleFree_registry,
    (embed_sends_few_selections Gallery.circleFree_registry "Image" (.cons "tags" .nil .nil)).2⟩

end RecordMapper
