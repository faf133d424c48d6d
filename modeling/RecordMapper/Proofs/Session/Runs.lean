import Mathlib.Data.List.Forall2
import RecordMapper.Session.Saving

/-!
# Successful runs of edits

A run of an edit that succeeds takes every step of it with success.  `run_bind` takes a run apart at
a step, and the lemmas after it say what each single step returns, changes and sends.
-/

namespace RecordMapper

namespace Edit

variable {σ τ α β : Type}

@[simp] theorem subject_bind_apply (next : σ → Edit σ β) (subject : σ) (log : Log) :
    (Edit.subject >>= next) subject log = next subject subject log :=
  rfl

@[simp] theorem lift_ok_bind (a : α) (next : α → Edit σ β) :
    (liftM (Except.ok a : Attempt α) : Edit σ α) >>= next = next a :=
  rfl

theorem map_apply (f : α → β) (edit : Edit σ α) (subject : σ) (log : Log) :
    (f <$> edit) subject log =
      ⟨(edit subject log).result.map f, (edit subject log).subject, (edit subject log).log⟩ := by
  rw [← bind_pure_comp, bind_apply]
  cases (edit subject log).result <;> rfl

theorem run_bind {edit : Edit σ α} {next : α → Edit σ β} {subject subject' : σ} {log log' : Log}
    {b : β} (h : (edit >>= next) subject log = ⟨.ok b, subject', log'⟩) :
    ∃ a middle sent, edit subject log = ⟨.ok a, middle, sent⟩ ∧
      next a middle sent = ⟨.ok b, subject', log'⟩ := by
  rw [bind_apply] at h
  rcases hrun : edit subject log with ⟨result, middle, sent⟩
  rw [hrun] at h
  cases result with
  | error error => cases h
  | ok a => exact ⟨a, middle, sent, rfl, h⟩

theorem run_pure {a b : α} {subject subject' : σ} {log log' : Log}
    (h : (pure a : Edit σ α) subject log = ⟨.ok b, subject', log'⟩) :
    b = a ∧ subject' = subject ∧ log' = log := by
  cases h
  exact ⟨rfl, rfl, rfl⟩

theorem run_map {edit : Edit σ α} {f : α → β} {subject subject' : σ} {log log' : Log} {b : β}
    (h : (f <$> edit) subject log = ⟨.ok b, subject', log'⟩) :
    ∃ a, edit subject log = ⟨.ok a, subject', log'⟩ ∧ b = f a := by
  rw [← bind_pure_comp] at h
  obtain ⟨a, middle, sent, hrun, hpure⟩ := run_bind h
  obtain ⟨rfl, rfl, rfl⟩ := run_pure hpure
  exact ⟨a, hrun, rfl⟩

theorem run_lift_bind {attempt : Attempt α} {next : α → Edit σ β} {subject subject' : σ}
    {log log' : Log} {b : β}
    (h : ((liftM attempt : Edit σ α) >>= next) subject log = ⟨.ok b, subject', log'⟩) :
    ∃ a, attempt = .ok a ∧ next a subject log = ⟨.ok b, subject', log'⟩ := by
  cases attempt with
  | error error => cases h
  | ok a => exact ⟨a, rfl, h⟩

theorem run_lift {attempt : Attempt α} {subject subject' : σ} {log log' : Log} {a : α}
    (h : (liftM attempt : Edit σ α) subject log = ⟨.ok a, subject', log'⟩) :
    attempt = .ok a ∧ subject' = subject ∧ log' = log := by
  change (⟨attempt, subject, log⟩ : Outcome σ α) = _ at h
  cases h
  exact ⟨rfl, rfl, rfl⟩

theorem run_subject_bind {next : σ → Edit σ β} {subject subject' : σ} {log log' : Log} {b : β}
    (h : (Edit.subject >>= next) subject log = ⟨.ok b, subject', log'⟩) :
    next subject subject log = ⟨.ok b, subject', log'⟩ :=
  h

theorem run_modify_bind {change : σ → σ} {next : Unit → Edit σ β} {subject subject' : σ}
    {log log' : Log} {b : β}
    (h : (modify change >>= next) subject log = ⟨.ok b, subject', log'⟩) :
    next () (change subject) log = ⟨.ok b, subject', log'⟩ :=
  h

theorem run_within {part : τ} {put : τ → σ → σ} {edit : Edit τ α} {a : α}
    {subject subject' : σ} {log log' : Log}
    (h : within part put edit subject log = ⟨.ok a, subject', log'⟩) :
    ∃ part', edit part log = ⟨.ok a, part', log'⟩ ∧ subject' = put part' subject := by
  rcases hrun : edit part log with ⟨result, part', sent⟩
  simp only [within_apply, hrun] at h
  cases h
  exact ⟨part', rfl, rfl⟩

theorem run_onOne {name : String} {edit : Edit Entity α} {found : Option α} {owner owner' : Entity}
    {log log' : Log} (h : onOne name edit owner log = ⟨.ok found, owner', log'⟩) :
    (owner.one name = .ok none ∧ found = none ∧ owner' = owner ∧ log' = log) ∨
      ∃ related a related', owner.one name = .ok (some related) ∧
        edit related log = ⟨.ok a, related', log'⟩ ∧ found = some a ∧
        owner' = owner.setRelation name (.one (some related')) := by
  unfold onOne at h
  obtain ⟨related?, hone, hedit⟩ := run_lift_bind (run_subject_bind h)
  cases related? with
  | none =>
      obtain ⟨rfl, rfl, rfl⟩ := run_pure hedit
      exact .inl ⟨hone, rfl, rfl, rfl⟩
  | some related =>
      obtain ⟨a, hwithin, rfl⟩ := run_map hedit
      obtain ⟨related', hrelated, howner⟩ := run_within hwithin
      exact .inr ⟨related, a, related', hone, hrelated, rfl, howner⟩

theorem run_onMany {name : String} {edit : Edit (List Entity) α} {a : α}
    {owner owner' : Entity} {log log' : Log}
    (h : onMany name edit owner log = ⟨.ok a, owner', log'⟩) :
    ∃ collection entities, owner.many name = .ok collection ∧
      edit collection.entities log = ⟨.ok a, entities, log'⟩ ∧
      owner' = owner.setRelation name (.many ⟨collection.model, entities⟩) := by
  unfold onMany at h
  obtain ⟨collection, hmany, hwithin⟩ := run_lift_bind (run_subject_bind h)
  obtain ⟨entities, hedit, howner⟩ := run_within hwithin
  exact ⟨collection, entities, hmany, hedit, howner⟩

/-! ## Lists -/

theorem run_forEach_nil {edit : Edit τ α} {results : List α} {items : List τ} {log log' : Log}
    (h : forEach edit [] log = ⟨.ok results, items, log'⟩) :
    results = [] ∧ items = [] ∧ log' = log := by
  cases h
  exact ⟨rfl, rfl, rfl⟩

theorem run_forEach_cons {edit : Edit τ α} {item : τ} {rest items : List τ} {results : List α}
    {log log' : Log} (h : forEach edit (item :: rest) log = ⟨.ok results, items, log'⟩) :
    ∃ a item' sent as rest', edit item log = ⟨.ok a, item', sent⟩ ∧
      forEach edit rest sent = ⟨.ok as, rest', log'⟩ ∧
      results = a :: as ∧ items = item' :: rest' := by
  rcases hrun : edit item log with ⟨result, item', sent⟩
  rw [forEach, hrun] at h
  cases result with
  | error error => cases h
  | ok a =>
      rcases hrest : forEach edit rest sent with ⟨results', rest', log''⟩
      simp only [hrest] at h
      cases results' with
      | error error => cases h
      | ok as =>
          cases h
          exact ⟨a, item', sent, as, rest', rfl, hrest, rfl, rfl⟩

theorem run_forEachWith_cons {edit : β → Edit τ Unit} {b : β} {others : List β} {item : τ}
    {rest items : List τ} {log log' : Log}
    (h : forEachWith edit (b :: others) (item :: rest) log = ⟨.ok (), items, log'⟩) :
    ∃ item' sent rest', edit b item log = ⟨.ok (), item', sent⟩ ∧
      forEachWith edit others rest sent = ⟨.ok (), rest', log'⟩ ∧ items = item' :: rest' := by
  rcases hrun : edit b item log with ⟨result, item', sent⟩
  rw [forEachWith, hrun] at h
  cases result with
  | error error => cases h
  | ok a =>
      rcases hrest : forEachWith edit others rest sent with ⟨result', rest', log''⟩
      simp only [hrest] at h
      cases h
      exact ⟨item', sent, rest', rfl, hrest, rfl⟩

theorem forEach_cons_ok {edit : Edit τ α} {item item' : τ} {rest rest' : List τ} {a : α}
    {results : List α} {log sent log' : Log} (hitem : edit item log = ⟨.ok a, item', sent⟩)
    (hrest : forEach edit rest sent = ⟨.ok results, rest', log'⟩) :
    forEach edit (item :: rest) log = ⟨.ok (a :: results), item' :: rest', log'⟩ := by
  rw [forEach, hitem]
  simp only [hrest]
  rfl

theorem run_forEach_results {edit : Edit τ α} {result : τ → α}
    (hedit : ∀ item log a item' log', edit item log = ⟨.ok a, item', log'⟩ → a = result item')
    {items items' : List τ} {results : List α} {log log' : Log}
    (h : forEach edit items log = ⟨.ok results, items', log'⟩) :
    results = items'.map result := by
  induction items generalizing results items' log with
  | nil =>
      obtain ⟨rfl, rfl, rfl⟩ := run_forEach_nil h
      rfl
  | cons item rest ih =>
      obtain ⟨a, item', sent, as, rest', hitem, hrest, rfl, rfl⟩ := run_forEach_cons h
      rw [hedit item log a item' sent hitem, ih hrest]
      rfl

theorem run_forEachWith_forall₂ {edit : β → Edit τ Unit} {P : τ → Prop}
    {R : τ × β → List String → Prop}
    (hedit : ∀ b item item' log log', P item → edit b item log = ⟨.ok (), item', log'⟩ →
      ∃ sent, log' = log ++ sent ∧ R (item, b) sent)
    {others : List β} {items items' : List τ} {log log' : Log} (hitems : ∀ item ∈ items, P item)
    (hlength : others.length = items.length)
    (h : forEachWith edit others items log = ⟨.ok (), items', log'⟩) :
    ∃ sents : List (List String), log' = log ++ sents.flatten ∧
      List.Forall₂ R (items.zip others) sents := by
  induction items generalizing others items' log with
  | nil =>
      obtain rfl : others = [] := List.eq_nil_of_length_eq_zero hlength
      cases h
      exact ⟨[], (List.append_nil _).symm, .nil⟩
  | cons item rest ih =>
      cases others with
      | nil => cases hlength
      | cons b others =>
          obtain ⟨item', middle, rest', hitem, hrest, -⟩ := run_forEachWith_cons h
          obtain ⟨sent, rfl, hsent⟩ := hedit b item item' log middle (hitems item (by simp)) hitem
          obtain ⟨sents, rfl, hsents⟩ := ih
            (fun other hother => hitems other (List.mem_cons_of_mem item hother))
            (Nat.succ.inj hlength) hrest
          refine ⟨sent :: sents, ?_, .cons hsent hsents⟩
          rw [List.flatten_cons, List.append_assoc]

theorem run_forEach_sends {edit : Edit τ α} {R : τ → τ → Prop} {S : τ → List String → Prop}
    (hedit : ∀ item log a item' log', edit item log = ⟨.ok a, item', log'⟩ →
      R item item' ∧ ∃ sent, log' = log ++ sent ∧ S item' sent)
    {items items' : List τ} {results : List α} {log log' : Log}
    (h : forEach edit items log = ⟨.ok results, items', log'⟩) :
    List.Forall₂ R items items' ∧
      ∃ sents : List (List String), log' = log ++ sents.flatten ∧ List.Forall₂ S items' sents := by
  induction items generalizing results items' log with
  | nil =>
      obtain ⟨-, rfl, rfl⟩ := run_forEach_nil h
      exact ⟨.nil, [], (List.append_nil _).symm, .nil⟩
  | cons item rest ih =>
      obtain ⟨a, item', middle, as, rest', hitem, hrest, -, rfl⟩ := run_forEach_cons h
      obtain ⟨hR, sent, rfl, hS⟩ := hedit item log a item' middle hitem
      obtain ⟨hRs, sents, rfl, hSs⟩ := ih hrest
      refine ⟨.cons hR hRs, sent :: sents, ?_, .cons hS hSs⟩
      rw [List.flatten_cons, List.append_assoc]

theorem run_forEachWith_sends {edit : β → Edit τ Unit} {R : τ → τ → Prop}
    {S : τ → List String → Prop}
    (hedit : ∀ b item log item' log', edit b item log = ⟨.ok (), item', log'⟩ →
      R item item' ∧ ∃ sent, log' = log ++ sent ∧ S item' sent)
    {others : List β} {items items' : List τ} {log log' : Log}
    (hlength : others.length = items.length)
    (h : forEachWith edit others items log = ⟨.ok (), items', log'⟩) :
    List.Forall₂ R items items' ∧
      ∃ sents : List (List String), log' = log ++ sents.flatten ∧ List.Forall₂ S items' sents := by
  induction items generalizing others items' log with
  | nil =>
      obtain rfl : others = [] := List.eq_nil_of_length_eq_zero hlength
      cases h
      exact ⟨.nil, [], (List.append_nil _).symm, .nil⟩
  | cons item rest ih =>
      cases others with
      | nil => cases hlength
      | cons b others =>
          obtain ⟨item', middle, rest', hitem, hrest, rfl⟩ := run_forEachWith_cons h
          obtain ⟨hR, sent, rfl, hS⟩ := hedit b item log item' middle hitem
          obtain ⟨hRs, sents, rfl, hSs⟩ := ih (Nat.succ.inj hlength) hrest
          refine ⟨.cons hR hRs, sent :: sents, ?_, .cons hS hSs⟩
          rw [List.flatten_cons, List.append_assoc]

/-- A relation of items before and after single runs holds for a run over a list. -/
theorem run_forEach_forall₂ {edit : Edit τ α} (R : τ → τ → Prop)
    (hedit : ∀ item log a item' log', edit item log = ⟨.ok a, item', log'⟩ → R item item')
    {items items' : List τ} {results : List α} {log log' : Log}
    (h : forEach edit items log = ⟨.ok results, items', log'⟩) : List.Forall₂ R items items' := by
  induction items generalizing results items' log with
  | nil =>
      obtain ⟨-, rfl, -⟩ := run_forEach_nil h
      exact .nil
  | cons item rest ih =>
      obtain ⟨a, item', sent, as, rest', hitem, hrest, -, rfl⟩ := run_forEach_cons h
      exact .cons (hedit item log a item' sent hitem) (ih hrest)

theorem inOrder_append (steps others : List (Edit σ Unit)) :
    inOrder (steps ++ others) = inOrder steps >>= fun _ => inOrder others := by
  induction steps with
  | nil => rfl
  | cons step rest ih => rw [List.cons_append, inOrder_cons, ih, inOrder_cons, bind_assoc]

theorem run_inOrder {P : σ → Prop} {steps : List (Edit σ Unit)}
    (hsteps : ∀ step ∈ steps, ∀ subject log subject' log',
      step subject log = ⟨.ok (), subject', log'⟩ → P subject → P subject')
    {subject subject' : σ} {log log' : Log}
    (h : inOrder steps subject log = ⟨.ok (), subject', log'⟩) (hsubject : P subject) :
    P subject' := by
  induction steps generalizing subject log with
  | nil =>
      obtain ⟨-, rfl, -⟩ := run_pure h
      exact hsubject
  | cons step rest ih =>
      obtain ⟨_, middle, sent, hstep, hrest⟩ := run_bind h
      exact ih (fun other hother => hsteps other (List.mem_cons_of_mem step hother)) hrest
        (hsteps step List.mem_cons_self _ _ _ _ hstep hsubject)

theorem run_inOrder_middle {before after : List (Edit σ Unit)} {step : Edit σ Unit}
    {subject subject' : σ} {log log' : Log}
    (h : inOrder (before ++ step :: after) subject log = ⟨.ok (), subject', log'⟩) :
    ∃ current sent current' sent', inOrder before subject log = ⟨.ok (), current, sent⟩ ∧
      step current sent = ⟨.ok (), current', sent'⟩ ∧
      inOrder after current' sent' = ⟨.ok (), subject', log'⟩ := by
  rw [inOrder_append] at h
  obtain ⟨_, current, sent, hbefore, hrest⟩ := run_bind h
  obtain ⟨_, current', sent', hstep, hafter⟩ := run_bind hrest
  exact ⟨current, sent, current', sent', hbefore, hstep, hafter⟩

end Edit

namespace Database

variable {σ : Type}

theorem run_send {db : Database} {sql : String} {rows : List Row} {subject subject' : σ}
    {log log' : Log} (h : db.send sql subject log = ⟨.ok rows, subject', log'⟩) :
    db.connection.answer log sql = .ok rows ∧ subject' = subject ∧ log' = log ++ [sql] := by
  rw [send_apply] at h
  cases hanswer : db.connection.answer log sql with
  | error report =>
      rw [hanswer] at h
      cases h
  | ok answer =>
      rw [hanswer] at h
      cases h
      exact ⟨rfl, rfl, rfl⟩

theorem run_execute_bind {db : Database} {text : Attempt String} {β : Type}
    {next : List Row → Edit σ β} {subject subject' : σ} {log log' : Log} {b : β}
    (h : (db.execute text >>= next) subject log = ⟨.ok b, subject', log'⟩) :
    ∃ sql rows, text = .ok sql ∧ db.connection.answer log sql = .ok rows ∧
      next rows subject (log ++ [sql]) = ⟨.ok b, subject', log'⟩ := by
  obtain ⟨rows, middle, sent, hexecute, hnext⟩ := Edit.run_bind h
  unfold execute at hexecute
  obtain ⟨sql, htext, hsend⟩ := Edit.run_lift_bind hexecute
  obtain ⟨hanswer, rfl, rfl⟩ := run_send hsend
  exact ⟨sql, rows, htext, hanswer, hnext⟩

end Database

end RecordMapper
