import RecordMapper.Proofs.Pointwise
import RecordMapper.Proofs.Session.Acknowledged
import RecordMapper.Proofs.Session.Persisting

/-!
# Edits that account for their inserts

An edit accounts for its inserts if `Accounts` holds between its subject and what it leaves of it,
however far it comes.  Edits that are put together from such steps do as well.
-/

namespace RecordMapper

namespace Edit

variable {σ τ α β ι κ : Type} {db : Database} {records : σ → ι → Option Entity} {subject : σ}

/-- Whatever becomes of the edit, its acknowledged inserts are accounted for.  This includes subjects
that have already been worked on. -/
def Accounted (db : Database) (records : σ → ι → Option Entity) (subject : σ) (edit : Edit σ α) :
    Prop :=
  ∀ current, db.registry.Grown (records subject) (records current) → ∀ log, ∃ inserted,
    db.Accounts (records current) (records (edit current log).subject) log (edit current log).log
      inserted

theorem accounted_of_grown {edit : Edit σ α} {current : σ}
    (hgrown : db.registry.Grown (records subject) (records current))
    (h : edit.Accounted db records subject) : edit.Accounted db records current :=
  fun later hlater => h later (Registry.grown_trans hgrown hlater)

theorem grown_of_run {edit : Edit σ α} {result : Attempt α} {subject' : σ} {log log' : Log}
    (h : edit.Accounted db records subject) (hrun : edit subject log = ⟨result, subject', log'⟩) :
    db.registry.Grown (records subject) (records subject') := by
  obtain ⟨inserted, haccounts⟩ := h subject (Registry.grown_refl _ _) log
  rw [hrun] at haccounts
  exact haccounts.grown

theorem accounted_of_same {edit : Edit σ α}
    (h : ∀ current log, records (edit current log).subject = records current ∧
      (edit current log).log = log) : edit.Accounted db records subject := by
  intro current _ log
  rw [(h current log).1, (h current log).2]
  exact ⟨[], .refl _ _ _⟩

theorem accounted_pure (a : α) : (pure a : Edit σ α).Accounted db records subject :=
  accounted_of_same fun _ _ => ⟨rfl, rfl⟩

theorem accounted_lift (attempt : Attempt α) :
    (liftM attempt : Edit σ α).Accounted db records subject :=
  accounted_of_same fun _ _ => ⟨rfl, rfl⟩

theorem accounted_subject : (Edit.subject : Edit σ σ).Accounted db records subject :=
  accounted_of_same fun _ _ => ⟨rfl, rfl⟩

theorem accounted_bind {edit : Edit σ α} {next : α → Edit σ β}
    (hedit : edit.Accounted db records subject)
    (hnext : ∀ a, (next a).Accounted db records subject) :
    (edit >>= next).Accounted db records subject := by
  intro current hcurrent log
  obtain ⟨inserted, hfirst⟩ := hedit current hcurrent log
  rw [bind_apply]
  cases (edit current log).result with
  | error error => exact ⟨inserted, hfirst⟩
  | ok a =>
      obtain ⟨more, hsecond⟩ := hnext a _ (Registry.grown_trans hcurrent hfirst.grown) _
      exact ⟨inserted ++ more, hfirst.trans hsecond⟩

theorem accounted_subject_bind {next : σ → Edit σ α}
    (h : ∀ current, db.registry.Grown (records subject) (records current) →
      (next current).Accounted db records current) :
    (Edit.subject >>= next).Accounted db records subject :=
  fun current hcurrent log => h current hcurrent current (Registry.grown_refl _ _) log

theorem accounted_lift_bind {attempt : Attempt α} {next : α → Edit σ β}
    (h : ∀ a, attempt = .ok a → (next a).Accounted db records subject) :
    ((liftM attempt : Edit σ α) >>= next).Accounted db records subject := by
  cases attempt with
  | error error => exact accounted_of_same fun _ _ => ⟨rfl, rfl⟩
  | ok a => exact h a rfl

theorem accounted_inOrder {steps : List (Edit σ Unit)}
    (h : ∀ step ∈ steps, step.Accounted db records subject) :
    (inOrder steps).Accounted db records subject := by
  induction steps with
  | nil => exact accounted_pure ()
  | cons step rest ih =>
      rw [inOrder_cons]
      exact accounted_bind (h step List.mem_cons_self) fun _ =>
        ih fun other hother => h other (List.mem_cons_of_mem step hother)

theorem accounted_execute {text : Attempt String}
    (h : ∀ sql, text = .ok sql → StatementKind.insert.begins sql = false) :
    (db.execute text : Edit σ (List Row)).Accounted db records subject := by
  intro current _ log
  cases text with
  | error error => exact ⟨[], .refl _ _ _⟩
  | ok sql => exact ⟨[], .of_other _ log (Connection.insertsOf_other _ log (h sql rfl))⟩

end Edit

/-! ## Parts of a graph -/

namespace Entity

variable {registry : Registry}

theorem grown_attached {entity entity' : Entity}
    (h : registry.Grown entity.recordAt? entity'.recordAt?) (name : String) :
    registry.Grown (recordIn? (entity.attached name)) (recordIn? (entity'.attached name)) :=
  fun place => h ((name, place.1) :: place.2)

theorem grown_items {items items' : List Entity}
    (h : registry.Grown (recordIn? items) (recordIn? items')) :
    List.Forall₂ (fun item item' => registry.Grown item.recordAt? item'.recordAt?) items items' := by
  induction items generalizing items' with
  | nil =>
      cases items' with
      | nil => exact .nil
      | cons item' _ => exact nomatch h (0, [])
  | cons item rest ih =>
      cases items' with
      | nil => exact nomatch h (0, [])
      | cons item' rest' =>
          exact .cons (fun position => h (0, position)) (ih fun place => h (place.1 + 1, place.2))

end Entity

namespace Edit

open Entity

variable {α : Type} {db : Database} {owner : Entity} {name : String}

theorem accounts_head {item item' : Entity} {log log' : Log} {inserted : List (Position × String)}
    (h : db.Accounts item.recordAt? item'.recordAt? log log' inserted) (rest : List Entity) :
    ∃ insertedIn, db.Accounts (recordIn? (item :: rest)) (recordIn? (item' :: rest)) log log'
      insertedIn := by
  refine ⟨_, h.embed (fun position => (0, position)) ?_ (fun _ => rfl) (fun _ => rfl) ?_⟩
  · intro position position' heq
    exact (Prod.mk.inj heq).2
  · rintro ⟨i, position⟩ hplace
    cases i with
    | zero => exact absurd rfl (hplace position)
    | succ i => rfl

theorem accounts_tail {rest rest' : List Entity} {log log' : Log}
    {inserted : List ((Nat × Position) × String)}
    (h : db.Accounts (recordIn? rest) (recordIn? rest') log log' inserted) (item : Entity) :
    ∃ insertedIn, db.Accounts (recordIn? (item :: rest)) (recordIn? (item :: rest')) log log'
      insertedIn := by
  refine ⟨_, h.embed (fun place => (place.1 + 1, place.2)) ?_ (fun _ => rfl) (fun _ => rfl) ?_⟩
  · intro place place' heq
    simpa [Prod.ext_iff] using heq
  · rintro ⟨i, position⟩ hplace
    cases i with
    | zero => rfl
    | succ i => exact absurd rfl (hplace (i, position))

theorem accounted_forEach {edit : Edit Entity α} {items : List Entity}
    (h : ∀ item ∈ items, edit.Accounted db recordAt? item) :
    (forEach edit).Accounted db recordIn? items := by
  intro current hcurrent
  have hitems := grown_items hcurrent
  clear hcurrent
  induction hitems with
  | nil => exact fun log => ⟨[], .refl _ _ _⟩
  | @cons item item' rest rest' hgrown _ ih =>
      intro log
      obtain ⟨inserted, hfirst⟩ := h item List.mem_cons_self item' hgrown log
      obtain ⟨first, hhead⟩ := accounts_head hfirst rest'
      rcases hrun : edit item' log with ⟨result, item'', sent⟩
      rw [hrun] at hhead
      rw [forEach, hrun]
      cases result with
      | error error => exact ⟨first, hhead⟩
      | ok a =>
          obtain ⟨more, hrest⟩ :=
            ih (fun other hother => h other (List.mem_cons_of_mem item hother)) sent
          obtain ⟨others, htail⟩ := accounts_tail hrest item''
          exact ⟨first ++ others, hhead.trans htail⟩

theorem accounts_setRelation {items : List Entity} {related : Related} {log log' : Log}
    {inserted : List ((Nat × Position) × String)} (hitems : owner.attached name = items)
    (h : db.Accounts (recordIn? items) (recordIn? related.entities) log log' inserted) :
    ∃ insertedAt, db.Accounts owner.recordAt? (owner.setRelation name related).recordAt? log log'
      insertedAt := by
  subst hitems
  have hattached : ∀ other, (owner.setRelation name related).attached other =
      if other = name then related.entities else owner.attached other :=
    fun other => attached_setRelation owner name other related
  refine ⟨_, h.embed (fun place => (name, place.1) :: place.2) ?_ (fun _ => rfl) ?_ ?_⟩
  · intro place place' heq
    simpa [Prod.ext_iff] using heq
  · rintro ⟨i, position⟩
    rw [recordAt?, hattached, if_pos rfl]
    rfl
  · intro position hplace
    cases position with
    | nil => rfl
    | cons step rest =>
        obtain ⟨other, i⟩ := step
        have hother : other ≠ name := by
          rintro rfl
          exact hplace (i, rest) rfl
        rw [recordAt?, recordAt?, hattached, if_neg hother]

theorem accounted_onMany {edit : Edit (List Entity) α}
    (h : edit.Accounted db recordIn? (owner.attached name)) :
    (onMany name edit).Accounted db recordAt? owner := by
  intro current hcurrent log
  unfold onMany
  rw [subject_bind_apply]
  cases hmany : current.many name with
  | error error => exact ⟨[], .refl _ _ _⟩
  | ok collection =>
      have hattached : current.attached name = collection.entities :=
        attached_of_relation? (relation?_of_many hmany)
      have hgrown := grown_attached hcurrent name
      rw [hattached] at hgrown
      obtain ⟨inserted, haccounts⟩ := h collection.entities hgrown log
      have hwhole : ∃ insertedAt, db.Accounts current.recordAt? (current.setRelation name
          (.many ⟨collection.model, (edit collection.entities log).subject⟩)).recordAt? log
          (edit collection.entities log).log insertedAt := accounts_setRelation hattached haccounts
      exact hwhole

theorem accounted_onOne {edit : Edit Entity α}
    (h : ∀ related ∈ owner.attached name, edit.Accounted db recordAt? related) :
    (onOne name edit).Accounted db recordAt? owner := by
  intro current hcurrent log
  unfold onOne
  rw [subject_bind_apply]
  cases hone : current.one name with
  | error error => exact ⟨[], .refl _ _ _⟩
  | ok related? =>
      cases related? with
      | none => exact ⟨[], .refl _ _ _⟩
      | some related =>
          have hattached : current.attached name = [related] :=
            attached_of_relation? (relation?_of_one hone)
          have hmem : related ∈ current.attached name := hattached ▸ List.mem_singleton_self related
          obtain ⟨before, hbefore, hgrown⟩ :=
            exists_of_mem_right (grown_items (grown_attached hcurrent name)) hmem
          obtain ⟨inserted, haccounts⟩ := h before hbefore related hgrown log
          obtain ⟨first, hhead⟩ := accounts_head haccounts []
          have hwhole : ∃ insertedAt, db.Accounts current.recordAt? (current.setRelation name
              (.one (some (edit related log).subject))).recordAt? log (edit related log).log
              insertedAt := accounts_setRelation hattached hhead
          simp only [lift_ok_bind, map_apply, within_apply]
          exact hwhole

/-! ## Entities alone -/

theorem accounts_keys {entity entity' : Entity} {log : Log} {sent : List String}
    (hrelations : entity'.relations = entity.relations)
    (hsame : db.registry.SameButKeys entity entity') (hstored : entity'.isStored = entity.isStored)
    (hsent : db.connection.insertsOf log sent = []) :
    db.Accounts entity.recordAt? entity'.recordAt? log (log ++ sent) [] := by
  refine ⟨⟨sent, rfl, hsent⟩, List.nodup_nil, fun position => ?_, nofun⟩
  cases position with
  | nil => exact .some ⟨⟨hsame.model, hsame.values⟩, by simp [hstored]⟩
  | cons step rest =>
      rw [recordAt?_cons_of_relations hrelations]
      exact (Database.Accounts.refl db entity.recordAt? log).records (step :: rest)

theorem accounts_insert {entity entity' : Entity} {log : Log} {sql : String}
    (hrelations : entity'.relations = entity.relations)
    (hsame : db.registry.SameButKeys entity entity') (hnew : entity.isStored = false)
    (hstored : entity'.isStored = true) (hsent : db.connection.insertsOf log [sql] = [sql])
    (htext : db.InsertsAs entity sql) :
    db.Accounts entity.recordAt? entity'.recordAt? log (log ++ [sql]) [([], sql)] := by
  refine ⟨⟨[sql], rfl, hsent⟩, List.nodup_singleton _, fun position => ?_, fun position text hmem => ?_⟩
  · cases position with
    | nil => exact .some ⟨⟨hsame.model, hsame.values⟩, by simp [hstored]⟩
    | cons step rest =>
        rw [recordAt?_cons_of_relations hrelations]
        cases entity.recordAt? (step :: rest) with
        | none => exact .none
        | some entity => exact .some ⟨Registry.sameButKeys_refl _ _, by simp⟩
  · cases List.mem_singleton.mp hmem
    obtain ⟨schema, written, hschema, hwritten, hsql⟩ := htext
    exact ⟨entity.record, rfl, hnew, schema, written, hschema, ⟨hwritten.model, hwritten.values⟩, hsql⟩

theorem accounted_set {field : String} (hkey : db.registry.IsKey field) (value : Value) :
    (modify fun entity : Entity => entity.set field value).Accounted db recordAt? owner := by
  intro current _ log
  have haccounts : db.Accounts current.recordAt? (current.set field value).recordAt? log
      (log ++ []) [] := accounts_keys rfl (Registry.sameButKeys_set hkey value) rfl rfl
  rw [List.append_nil] at haccounts
  exact ⟨[], haccounts⟩

end Edit

namespace Database

open Edit Entity

variable {db : Database} {entity entity' : Entity} {log log' : Log} {error : Error}

theorem refused_of_execute_bind {α : Type} {text : Attempt String}
    {next : List Row → Edit Entity α} (hnext : ∀ rows sent, ∃ a, (next rows entity sent).result = .ok a)
    (h : (db.execute text >>= next) entity log = ⟨.error error, entity', log'⟩) :
    entity' = entity ∧ ∃ sent, log' = log ++ sent ∧ sent.length ≤ 1 ∧
      db.connection.insertsOf log sent = [] := by
  cases text with
  | error failure =>
      cases h
      exact ⟨rfl, [], (List.append_nil _).symm, Nat.zero_le 1, rfl⟩
  | ok sql =>
      rw [execute, lift_ok_bind, bind_apply, send_apply] at h
      cases hanswer : db.connection.answer log sql with
      | error report =>
          rw [hanswer] at h
          cases h
          exact ⟨rfl, [sql], rfl, Nat.le_refl 1, Connection.insertsOf_refused hanswer⟩
      | ok rows =>
          rw [hanswer] at h
          obtain ⟨a, ha⟩ := hnext rows (log ++ [sql])
          have hresult := (congrArg Outcome.result h).symm.trans ha
          cases hresult

theorem refused_of_persist (h : db.persist entity log = ⟨.error error, entity', log'⟩) :
    entity' = entity ∧ ∃ sent, log' = log ++ sent ∧ sent.length ≤ 1 ∧
      db.connection.insertsOf log sent = [] := by
  unfold persist at h
  rw [subject_bind_apply] at h
  cases hschema : db.registry.schema entity.model with
  | error failure =>
      rw [hschema] at h
      cases h
      exact ⟨rfl, [], (List.append_nil _).symm, Nat.zero_le 1, rfl⟩
  | ok schema =>
      rw [hschema, lift_ok_bind] at h
      split at h
      · simp only [update] at h
        split at h
        · cases h
        · cases hkey : entity.storedKey schema.keyName schema.model with
          | error failure =>
              rw [hkey] at h
              cases h
              exact ⟨rfl, [], (List.append_nil _).symm, Nat.zero_le 1, rfl⟩
          | ok id =>
              rw [hkey, lift_ok_bind] at h
              exact refused_of_execute_bind (fun _ _ => ⟨(), rfl⟩) h
      · exact refused_of_execute_bind (fun _ _ => ⟨(), rfl⟩) h

theorem sameButKeys_withGivenKey {schema : Schema}
    (hschema : db.registry.schema entity.model = .ok schema) (given : Option Value) :
    db.registry.SameButKeys entity (schema.withGivenKey given entity) := by
  have hkey : db.registry.IsKey schema.keyName :=
    .inl ⟨schema, Registry.mem_schemas_of_schema hschema, rfl⟩
  cases given with
  | none => exact Registry.sameButKeys_refl _ _
  | some id =>
      rw [Schema.withGivenKey]
      split
      · exact Registry.sameButKeys_set hkey id
      · exact Registry.sameButKeys_refl _ _

theorem accounted_persist : db.persist.Accounted db recordAt? entity := by
  intro current _ log
  rcases hrun : db.persist current log with ⟨result, current', log'⟩
  cases result with
  | error error =>
      obtain ⟨rfl, sent, rfl, -, hsent⟩ := refused_of_persist hrun
      exact ⟨[], accounts_keys rfl (Registry.sameButKeys_refl _ _) rfl hsent⟩
  | ok _ =>
      cases run_persist hrun with
      | unchanged _ _ _ => exact ⟨[], .refl _ _ _⟩
      | updated stored _ _ _ render _ =>
          have hother : StatementKind.insert.begins _ = false :=
            StatementKind.begins_eq_decide (Update.begins_render render) .insert
          exact ⟨[], accounts_keys rfl ⟨rfl, fun _ _ => rfl⟩ stored.symm
            (Connection.insertsOf_other _ log hother)⟩
      | @inserted schema sql rows new known render answer =>
          have hsame := sameButKeys_withGivenKey known
            (db.connection.lastInsertId? (log ++ [sql]))
          have hsent : db.connection.insertsOf log [sql] = [sql] :=
            Connection.insertsOf_answered (Insert.begins_render render) answer
          exact ⟨_, accounts_insert (Schema.withGivenKey_relations schema _ current)
            ⟨hsame.model, hsame.values⟩ new rfl hsent
            ⟨schema, current, known, Registry.sameButKeys_refl _ _, render⟩⟩

end Database

end RecordMapper
