import RecordMapper.Proofs.Entity.Covering
import RecordMapper.Proofs.Session.Runs

/-!
# What edits send

An edit sends statements after those that were sent before, whether it succeeds or not.  `Sends`
says so together with a property that every one of its statements has, on every subject, and
`SendsFrom` on one subject.
-/

namespace RecordMapper

variable {allowed : String → Prop}

/-- The second log is the first with allowed statements after it. -/
def Extends (allowed : String → Prop) (log log' : Log) : Prop :=
  ∃ added, log' = log ++ added ∧ ∀ sql ∈ added, allowed sql

theorem extends_refl (log : Log) : Extends allowed log log :=
  ⟨[], (List.append_nil log).symm, by simp⟩

theorem extends_mono {other : String → Prop} (h : ∀ sql, allowed sql → other sql) {log log' : Log}
    (hlog : Extends allowed log log') : Extends other log log' := by
  obtain ⟨added, rfl, hadded⟩ := hlog
  exact ⟨added, rfl, fun sql hsql => h sql (hadded sql hsql)⟩

theorem extends_snoc {sql : String} (h : allowed sql) (log : Log) :
    Extends allowed log (log ++ [sql]) :=
  ⟨[sql], rfl, by simpa using h⟩

theorem extends_trans {log log' log'' : Log} (h : Extends allowed log log')
    (h' : Extends allowed log' log'') : Extends allowed log log'' := by
  obtain ⟨added, rfl, hadded⟩ := h
  obtain ⟨more, rfl, hmore⟩ := h'
  refine ⟨added ++ more, List.append_assoc log added more, ?_⟩
  intro sql hsql
  exact (List.mem_append.mp hsql).elim (hadded sql) (hmore sql)

namespace Edit

variable {σ τ α β : Type}

/-- The edit takes no statement back, and all statements that it adds are allowed. -/
def Sends (allowed : String → Prop) (edit : Edit σ α) : Prop :=
  ∀ subject log, Extends allowed log (edit subject log).log

/-- All statements that the edit of this subject adds to this log are allowed. -/
def SendsFrom (allowed : String → Prop) (edit : Edit σ α) (subject : σ) (log : Log) : Prop :=
  Extends allowed log (edit subject log).log

/-! ## On one subject -/

variable {subject : σ} {log : Log}

/-- What follows need only be examined on what a successful run of the first edit leaves behind. -/
theorem sendsFrom_bind {edit : Edit σ α} {next : α → Edit σ β}
    (hedit : edit.SendsFrom allowed subject log)
    (hnext : ∀ a middle sent, edit subject log = ⟨.ok a, middle, sent⟩ →
      (next a).SendsFrom allowed middle sent) : (edit >>= next).SendsFrom allowed subject log := by
  unfold SendsFrom at hedit ⊢
  rw [bind_apply]
  rcases hrun : edit subject log with ⟨result, middle, sent⟩
  rw [hrun] at hedit
  cases result with
  | error error => exact hedit
  | ok a => exact extends_trans hedit (hnext a middle sent hrun)

/-- What follows a computation need only be examined for the value that it gives. -/
theorem sendsFrom_lift_bind {attempt : Attempt α} {next : α → Edit σ β}
    (hnext : ∀ a, attempt = .ok a → (next a).SendsFrom allowed subject log) :
    ((liftM attempt : Edit σ α) >>= next).SendsFrom allowed subject log := by
  cases attempt with
  | error error => exact extends_refl log
  | ok a => exact hnext a rfl

theorem sendsFrom_subject_bind {next : σ → Edit σ β}
    (h : (next subject).SendsFrom allowed subject log) :
    (Edit.subject >>= next).SendsFrom allowed subject log :=
  h

theorem sendsFrom_modify_bind {change : σ → σ} {next : Unit → Edit σ β}
    (h : (next ()).SendsFrom allowed (change subject) log) :
    (modify change >>= next).SendsFrom allowed subject log :=
  h

theorem sendsFrom_map {edit : Edit σ α} (f : α → β) (hedit : edit.SendsFrom allowed subject log) :
    (f <$> edit).SendsFrom allowed subject log := by
  unfold SendsFrom
  rw [map_apply]
  exact hedit

theorem sendsFrom_onOne {name : String} {edit : Edit Entity α} {owner : Entity}
    (h : ∀ related ∈ owner.attached name, edit.SendsFrom allowed related log) :
    (onOne name edit).SendsFrom allowed owner log := by
  refine sendsFrom_lift_bind fun related? hone => ?_
  cases related? with
  | none => exact extends_refl log
  | some related =>
      have hattached : owner.attached name = [related] :=
        Entity.attached_of_relation? (Entity.relation?_of_one hone)
      have hwithin : (within related (fun related (owner : Entity) =>
          owner.setRelation name (.one (some related))) edit).SendsFrom allowed owner log :=
        h related (hattached ▸ List.mem_singleton_self related)
      exact sendsFrom_map some hwithin

theorem sendsFrom_onMany {name : String} {edit : Edit (List Entity) α} {owner : Entity}
    (h : ∀ collection, owner.many name = .ok collection →
      edit.SendsFrom allowed collection.entities log) :
    (onMany name edit).SendsFrom allowed owner log :=
  sendsFrom_lift_bind h

theorem sendsFrom_forEach {edit : Edit τ α} {items : List τ}
    (h : ∀ item ∈ items, ∀ log, edit.SendsFrom allowed item log) (log : Log) :
    (forEach edit).SendsFrom allowed items log := by
  induction items generalizing log with
  | nil => exact extends_refl log
  | cons item rest ih =>
      have hfirst := h item List.mem_cons_self log
      unfold SendsFrom at hfirst ⊢
      rcases hrun : edit item log with ⟨result, item', sent⟩
      rw [hrun] at hfirst
      rw [forEach, hrun]
      cases result with
      | error error => exact hfirst
      | ok a =>
          exact extends_trans hfirst (ih (fun other hother => h other (List.mem_cons_of_mem item hother))
            sent)

theorem sendsFrom_forEachWith {edit : β → Edit τ Unit} {others : List β} {items : List τ}
    (h : ∀ pair ∈ items.zip others, ∀ log, (edit pair.2).SendsFrom allowed pair.1 log) (log : Log) :
    (forEachWith edit others).SendsFrom allowed items log := by
  induction items generalizing others log with
  | nil =>
      cases others with
      | nil => exact extends_refl log
      | cons b others => exact extends_refl log
  | cons item rest ih =>
      cases others with
      | nil => exact extends_refl log
      | cons b others =>
          have hfirst := h (item, b) List.mem_cons_self log
          unfold SendsFrom at hfirst ⊢
          rcases hrun : edit b item log with ⟨result, item', sent⟩
          rw [hrun] at hfirst
          rw [forEachWith, hrun]
          cases result with
          | error error => exact hfirst
          | ok a =>
              exact extends_trans hfirst (ih (fun pair hpair => h pair (List.mem_cons_of_mem _ hpair))
                sent)

/-- Each step need only be examined on what the steps before it leave behind. -/
theorem sendsFrom_inOrder {steps : List (Edit σ Unit)}
    (h : ∀ before step after current sent, steps = before ++ step :: after →
      inOrder before subject log = ⟨.ok (), current, sent⟩ → step.SendsFrom allowed current sent) :
    (inOrder steps).SendsFrom allowed subject log := by
  induction steps generalizing subject log with
  | nil => exact extends_refl log
  | cons first rest ih =>
      refine sendsFrom_bind (h [] first rest subject log rfl rfl) fun _ middle sent hfirst => ih ?_
      intro before step after current sent' hrest hbefore
      refine h (first :: before) step after current sent' (by rw [hrest]; rfl) ?_
      rw [inOrder_cons, bind_apply, hfirst]
      exact hbefore

/-! ## On every subject -/

theorem sends_of_log_eq {edit : Edit σ α} (h : ∀ subject log, (edit subject log).log = log) :
    edit.Sends allowed := by
  intro subject log
  rw [h]
  exact extends_refl log

theorem sends_pure (a : α) : (pure a : Edit σ α).Sends allowed :=
  sends_of_log_eq fun _ _ => rfl

theorem sends_lift (attempt : Attempt α) : (liftM attempt : Edit σ α).Sends allowed :=
  sends_of_log_eq fun _ _ => rfl

theorem sends_bind {edit : Edit σ α} {next : α → Edit σ β} (hedit : edit.Sends allowed)
    (hnext : ∀ a, (next a).Sends allowed) : (edit >>= next).Sends allowed :=
  fun subject log => sendsFrom_bind (hedit subject log) fun a middle sent _ => hnext a middle sent

theorem sends_lift_bind {attempt : Attempt α} {next : α → Edit σ β}
    (hnext : ∀ a, attempt = .ok a → (next a).Sends allowed) :
    ((liftM attempt : Edit σ α) >>= next).Sends allowed :=
  fun subject log => sendsFrom_lift_bind fun a ha => hnext a ha subject log

theorem sends_applyTo {edit : Edit τ Unit} (value : τ) (hedit : edit.Sends allowed) :
    (applyTo value edit : Edit σ τ).Sends allowed := by
  intro subject log
  exact hedit value log

end Edit

namespace Database

variable {σ : Type}

theorem sends_send (db : Database) {sql : String} (h : allowed sql) :
    (db.send sql : Edit σ (List Row)).Sends allowed := by
  intro subject log
  exact extends_snoc h log

theorem sends_execute (db : Database) {text : Attempt String}
    (h : ∀ sql, text = .ok sql → allowed sql) :
    (db.execute text : Edit σ (List Row)).Sends allowed := by
  intro subject log
  cases text with
  | error error => exact extends_refl log
  | ok sql => exact sends_send db (h sql rfl) subject log

def AnswersTo (db : Database) (sql : String) (row : Row) : Prop :=
  ∃ log rows, db.connection.answer log sql = .ok rows ∧ row ∈ rows

/-- The connection gives the row in some answer. -/
def Answers (db : Database) (row : Row) : Prop :=
  ∃ log sql rows, db.connection.answer log sql = .ok rows ∧ row ∈ rows

theorem answers_of_answersTo {db : Database} {sql : String} {row : Row} (h : db.AnswersTo sql row) :
    db.Answers row := by
  obtain ⟨log, rows, hanswer, hrow⟩ := h
  exact ⟨log, sql, rows, hanswer, hrow⟩

/-- What follows a statement need only be examined for the rows that answer it. -/
theorem sendsFrom_execute_bind {db : Database} {text : Attempt String} {β : Type}
    {next : List Row → Edit σ β} {subject : σ} {log : Log} (h : ∀ sql, text = .ok sql → allowed sql)
    (hnext : ∀ sql rows, text = .ok sql → db.connection.answer log sql = .ok rows →
      (next rows).SendsFrom allowed subject (log ++ [sql])) :
    (db.execute text >>= next).SendsFrom allowed subject log := by
  unfold execute
  rw [bind_assoc]
  refine Edit.sendsFrom_lift_bind fun sql hsql => ?_
  refine Edit.sendsFrom_bind (extends_snoc (h sql hsql) log) fun rows middle sent hrun => ?_
  obtain ⟨hanswer, rfl, rfl⟩ := run_send hrun
  exact hnext sql rows hsql hanswer

end Database

end RecordMapper
