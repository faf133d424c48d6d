import RecordMapper.Proofs.Session.Sending
import RecordMapper.Proofs.Statement.Kind

/-!
# Edits that only read

An edit is quiet on a subject if it sends nothing but selections, whether it succeeds or not.  Each
rule says when an operation is quiet and what it leaves behind when it succeeds.
-/

namespace RecordMapper

/-- Whether a statement only reads rows. -/
def IsSelection (sql : String) : Prop :=
  StatementKind.select.begins sql = true

namespace Edit

variable {σ τ α β : Type}

/-- The edit only reads, and it leaves what is described if it succeeds. -/
def Quiet (edit : Edit σ α) (subject : σ) (post : α → σ → Prop) : Prop :=
  ∀ log, Extends IsSelection log (edit subject log).log ∧
    ∀ a, (edit subject log).result = .ok a → post a (edit subject log).subject

theorem quiet_mono {edit : Edit σ α} {subject : σ} {post post' : α → σ → Prop}
    (hedit : edit.Quiet subject post) (h : ∀ a s, post a s → post' a s) :
    edit.Quiet subject post' :=
  fun log => ⟨(hedit log).1, fun a ha => h a _ ((hedit log).2 a ha)⟩

theorem quiet_pure {a : α} {subject : σ} {post : α → σ → Prop} (h : post a subject) :
    (pure a : Edit σ α).Quiet subject post := by
  intro log
  refine ⟨extends_refl log, fun a' ha' => ?_⟩
  cases ha'
  exact h

theorem quiet_modify {change : σ → σ} {subject : σ} {post : Unit → σ → Prop}
    (h : post () (change subject)) : (modify change).Quiet subject post :=
  fun log => ⟨extends_refl log, fun _ _ => h⟩

theorem quiet_bind {edit : Edit σ α} {next : α → Edit σ β} {subject : σ} {mid : α → σ → Prop}
    {post : β → σ → Prop} (hedit : edit.Quiet subject mid)
    (hnext : ∀ a s, mid a s → (next a).Quiet s post) : (edit >>= next).Quiet subject post := by
  intro log
  obtain ⟨hlog, hmid⟩ := hedit log
  rw [bind_apply]
  cases hresult : (edit subject log).result with
  | error error => exact ⟨hlog, fun _ h => by cases h⟩
  | ok a =>
      obtain ⟨hlog', hpost⟩ := hnext a _ (hmid a hresult) (edit subject log).log
      exact ⟨extends_trans hlog hlog', hpost⟩

theorem quiet_lift {attempt : Attempt α} {subject : σ} {post : α → σ → Prop}
    (h : ∀ a, attempt = .ok a → post a subject) :
    (liftM attempt : Edit σ α).Quiet subject post :=
  fun log => ⟨extends_refl log, h⟩

theorem quiet_lift_bind {attempt : Attempt α} {next : α → Edit σ β} {subject : σ}
    {post : β → σ → Prop} (h : ∀ a, attempt = .ok a → (next a).Quiet subject post) :
    ((liftM attempt : Edit σ α) >>= next).Quiet subject post := by
  have hlift : (liftM attempt : Edit σ α).Quiet subject fun a s => attempt = .ok a ∧ s = subject :=
    quiet_lift fun a ha => ⟨ha, rfl⟩
  refine quiet_bind hlift ?_
  rintro a s ⟨ha, rfl⟩
  exact h a ha

theorem quiet_subject_bind {next : σ → Edit σ β} {subject : σ} {post : β → σ → Prop}
    (h : (next subject).Quiet subject post) : (Edit.subject >>= next).Quiet subject post :=
  h

theorem quiet_modify_bind {change : σ → σ} {next : Unit → Edit σ β} {subject : σ}
    {post : β → σ → Prop} (h : (next ()).Quiet (change subject) post) :
    (modify change >>= next).Quiet subject post :=
  h

theorem quiet_within {part : τ} {put : τ → σ → σ} {edit : Edit τ α} {subject : σ}
    {post : α → σ → Prop} (h : edit.Quiet part fun a part' => post a (put part' subject)) :
    (within part put edit).Quiet subject post :=
  h

theorem quiet_map {edit : Edit σ α} {f : α → β} {subject : σ} {post : β → σ → Prop}
    (h : edit.Quiet subject fun a s => post (f a) s) : (f <$> edit).Quiet subject post := by
  rw [← bind_pure_comp]
  exact quiet_bind h fun a s ha => quiet_pure ha

theorem quiet_inOrder {steps : List (Edit σ Unit)} {Kept : σ → Prop} {subject : σ}
    (h : ∀ step ∈ steps, ∀ s, Kept s → step.Quiet s fun _ s' => Kept s') (hsubject : Kept subject) :
    (inOrder steps).Quiet subject fun _ s => Kept s := by
  induction steps generalizing subject with
  | nil => exact quiet_pure hsubject
  | cons step rest ih =>
      rw [inOrder_cons]
      refine quiet_bind (h step (by simp) subject hsubject) fun _ s hs => ih ?_ hs
      intro other hother
      exact h other (List.mem_cons_of_mem step hother)

theorem quiet_forEach {edit : Edit τ α} {R : τ → τ → Prop} {result : τ → α} {items : List τ}
    (h : ∀ item ∈ items, edit.Quiet item fun a item' => R item item' ∧ a = result item') :
    (forEach edit).Quiet items fun results items' =>
      List.Forall₂ R items items' ∧ results = items'.map result := by
  induction items with
  | nil =>
      intro log
      refine ⟨extends_refl log, fun results hresults => ?_⟩
      cases hresults
      exact ⟨.nil, rfl⟩
  | cons item rest ih =>
      intro log
      have hitem := h item (by simp) log
      have hrest := ih fun other hother => h other (List.mem_cons_of_mem item hother)
      rcases hrun : edit item log with ⟨attempt, item', sent⟩
      rw [hrun] at hitem
      rw [forEach, hrun]
      cases attempt with
      | error error => exact ⟨hitem.1, fun _ hresults => by cases hresults⟩
      | ok a =>
          have hothers := hrest sent
          rcases hrun' : forEach edit rest sent with ⟨attempt', rest', log'⟩
          rw [hrun'] at hothers
          simp only [hrun']
          refine ⟨extends_trans hitem.1 hothers.1, fun results hresults => ?_⟩
          cases attempt' with
          | error error => cases hresults
          | ok others =>
              cases hresults
              have hfirst : R item item' ∧ a = result item' := hitem.2 a rfl
              have hlater : List.Forall₂ R rest rest' ∧ others = rest'.map result :=
                hothers.2 others rfl
              refine ⟨.cons hfirst.1 hlater.1, ?_⟩
              rw [hfirst.2, hlater.2]
              rfl

theorem quiet_forEachWith {edit : β → Edit τ Unit} {change : β → τ → τ} {others : List β}
    {items : List τ} (h : List.Forall₂ (fun b item => (edit b).Quiet item fun _ item' =>
      item' = change b item) others items) :
    (forEachWith edit others).Quiet items fun _ items' =>
      items' = List.zipWith change others items := by
  induction h with
  | nil =>
      intro log
      exact ⟨extends_refl log, fun _ _ => rfl⟩
  | @cons b item others rest hitem _ ih =>
      intro log
      have hfirst := hitem log
      rcases hrun : edit b item log with ⟨attempt, item', sent⟩
      rw [hrun] at hfirst
      rw [forEachWith, hrun]
      cases attempt with
      | error error => exact ⟨hfirst.1, fun _ hresult => by cases hresult⟩
      | ok _ =>
          have hlater := ih sent
          refine ⟨extends_trans hfirst.1 hlater.1, fun a ha => ?_⟩
          have hchange : item' = change b item := hfirst.2 () rfl
          rw [List.zipWith_cons_cons, ← hchange, ← hlater.2 a ha]

theorem quiet_onOne {name : String} {edit : Edit Entity α} {owner : Entity}
    {post : Option α → Entity → Prop} (hnone : owner.one name = .ok none → post none owner)
    (hsome : ∀ related, owner.one name = .ok (some related) → edit.Quiet related fun a related' =>
      post (some a) (owner.setRelation name (.one (some related')))) :
    (onOne name edit).Quiet owner post := by
  unfold onOne
  refine quiet_subject_bind (quiet_lift_bind fun related? hone => ?_)
  cases related? with
  | none => exact quiet_pure (hnone hone)
  | some related => exact quiet_map (quiet_within (hsome related hone))

theorem quiet_onMany {name : String} {edit : Edit (List Entity) α} {owner : Entity}
    {post : α → Entity → Prop}
    (h : ∀ collection, owner.many name = .ok collection →
      edit.Quiet collection.entities fun a entities =>
        post a (owner.setRelation name (.many ⟨collection.model, entities⟩))) :
    (onMany name edit).Quiet owner post := by
  unfold onMany
  exact quiet_subject_bind (quiet_lift_bind fun collection hmany =>
    quiet_within (h collection hmany))

end Edit

namespace Database

open Edit

variable {σ α : Type}

theorem quiet_send {db : Database} {sql : String} {subject : σ} {post : List Row → σ → Prop}
    (hselect : IsSelection sql)
    (h : ∀ log rows, db.connection.answer log sql = .ok rows → post rows subject) :
    (db.send sql).Quiet subject post := by
  intro log
  refine ⟨extends_snoc hselect log, fun rows hrows => ?_⟩
  cases hanswer : db.connection.answer log sql with
  | error report =>
      rw [send_apply, hanswer] at hrows
      cases hrows
  | ok answer =>
      rw [send_apply, hanswer] at hrows
      cases hrows
      exact h log rows hanswer

theorem quiet_select_bind {db : Database} {select : Select} {next : List Row → Edit σ α}
    {subject : σ} {post : α → σ → Prop}
    (h : ∀ log sql rows, select.render db.dialect = .ok sql →
      db.connection.answer log sql = .ok rows → (next rows).Quiet subject post) :
    (db.execute (select.render db.dialect) >>= next).Quiet subject post := by
  have hexecute : (db.execute (select.render db.dialect) : Edit σ (List Row)).Quiet subject
      fun rows s => s = subject ∧ ∃ log sql, select.render db.dialect = .ok sql ∧
        db.connection.answer log sql = .ok rows := by
    refine quiet_lift_bind fun sql hsql => ?_
    have hselect : IsSelection sql := Select.begins_render hsql
    exact quiet_send hselect fun log rows hrows => ⟨rfl, log, sql, hsql, hrows⟩
  refine quiet_bind hexecute ?_
  rintro rows s ⟨rfl, log, sql, hsql, hrows⟩
  exact h log sql rows hsql hrows

end Database

end RecordMapper
