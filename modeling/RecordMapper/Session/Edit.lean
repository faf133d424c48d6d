import RecordMapper.Error

/-!
# Edits

An edit changes a subject and sends statements to a database on the way.  It may fail at any step;
what it has changed and sent by then stays.  `pure_apply`, `bind_apply` and the equations beside the
other operations say what each of them leaves behind.
-/

namespace RecordMapper

/-- The statements sent so far, first to last. -/
abbrev Log := List String

/-- What an edit leaves behind: its result, the subject as it is now, and all statements sent. -/
structure Outcome (σ α : Type) where
  result : Attempt α
  subject : σ
  log : Log

/-- A change of a subject that sends statements and may fail. -/
def Edit (σ α : Type) : Type :=
  σ → Log → Outcome σ α

namespace Edit

variable {σ τ α β : Type}

instance : Monad (Edit σ) where
  pure a := fun subject log => ⟨.ok a, subject, log⟩
  bind edit next := fun subject log =>
    match edit subject log with
    | ⟨.ok a, subject, log⟩ => next a subject log
    | ⟨.error error, subject, log⟩ => ⟨.error error, subject, log⟩

@[simp] theorem pure_apply (a : α) (subject : σ) (log : Log) :
    (pure a : Edit σ α) subject log = ⟨.ok a, subject, log⟩ :=
  rfl

theorem bind_apply (edit : Edit σ α) (next : α → Edit σ β) (subject : σ) (log : Log) :
    (edit >>= next) subject log =
      match (edit subject log).result with
      | .ok a => next a (edit subject log).subject (edit subject log).log
      | .error error => ⟨.error error, (edit subject log).subject, (edit subject log).log⟩ := by
  change (match edit subject log with
    | ⟨.ok a, subject, log⟩ => next a subject log
    | ⟨.error error, subject, log⟩ => ⟨.error error, subject, log⟩) = _
  rcases edit subject log with ⟨result, subject', log'⟩
  cases result <;> rfl

theorem id_map_edit (edit : Edit σ α) : id <$> edit = edit := by
  funext subject log
  change (edit >>= fun a => pure a) subject log = _
  rw [bind_apply]
  rcases h : edit subject log with ⟨result, subject', log'⟩
  cases result <;> rfl

theorem bind_assoc_edit {γ : Type} (edit : Edit σ α) (next : α → Edit σ β)
    (more : β → Edit σ γ) :
    edit >>= next >>= more = edit >>= fun a => next a >>= more := by
  funext subject log
  simp only [bind_apply]
  rcases (edit subject log).result with error | a <;> rfl

instance : LawfulMonad (Edit σ) :=
  LawfulMonad.mk' (Edit σ) id_map_edit (fun _ _ => rfl) bind_assoc_edit

/-! ## Steps -/

def ofAttempt (attempt : Attempt α) : Edit σ α :=
  fun subject log => ⟨attempt, subject, log⟩

instance : MonadLift Attempt (Edit σ) :=
  ⟨ofAttempt⟩

@[simp] theorem ofAttempt_apply (attempt : Attempt α) (subject : σ) (log : Log) :
    (ofAttempt attempt : Edit σ α) subject log = ⟨attempt, subject, log⟩ :=
  rfl

def subject : Edit σ σ :=
  fun subject log => ⟨.ok subject, subject, log⟩

@[simp] theorem subject_apply (s : σ) (log : Log) :
    (subject : Edit σ σ) s log = ⟨.ok s, s, log⟩ :=
  rfl

def modify (change : σ → σ) : Edit σ Unit :=
  fun subject log => ⟨.ok (), change subject, log⟩

@[simp] theorem modify_apply (change : σ → σ) (subject : σ) (log : Log) :
    modify change subject log = ⟨.ok (), change subject, log⟩ :=
  rfl

def sent : Edit σ Log :=
  fun subject log => ⟨.ok log, subject, log⟩

@[simp] theorem sent_apply (subject : σ) (log : Log) :
    (sent : Edit σ Log) subject log = ⟨.ok log, subject, log⟩ :=
  rfl

/-! ## Edits of other subjects -/

/-- Edits a value beside the subject, and gives the value that it becomes. -/
def applyTo (value : τ) (edit : Edit τ Unit) : Edit σ τ :=
  fun subject log =>
    let outcome := edit value log
    ⟨outcome.result.map fun _ => outcome.subject, subject, outcome.log⟩

@[simp] theorem applyTo_apply (value : τ) (edit : Edit τ Unit) (subject : σ) (log : Log) :
    applyTo value edit subject log =
      ⟨(edit value log).result.map fun _ => (edit value log).subject, subject,
        (edit value log).log⟩ :=
  rfl

/-- Edits a part of the subject and puts it back, also when the edit fails. -/
def within (part : τ) (put : τ → σ → σ) (edit : Edit τ α) : Edit σ α :=
  fun subject log =>
    let outcome := edit part log
    ⟨outcome.result, put outcome.subject subject, outcome.log⟩

@[simp] theorem within_apply (part : τ) (put : τ → σ → σ) (edit : Edit τ α) (subject : σ)
    (log : Log) :
    within part put edit subject log =
      ⟨(edit part log).result, put (edit part log).subject subject, (edit part log).log⟩ :=
  rfl

/-- Edits the items of a list, first to last, up to the first failure. -/
def forEach (edit : Edit τ α) : Edit (List τ) (List α)
  | [], log => ⟨.ok [], [], log⟩
  | item :: rest, log =>
      match edit item log with
      | ⟨.error error, item, log⟩ => ⟨.error error, item :: rest, log⟩
      | ⟨.ok a, item, log⟩ =>
          let outcome := forEach edit rest log
          ⟨outcome.result.map (a :: ·), item :: outcome.subject, outcome.log⟩

@[simp] theorem forEach_nil (edit : Edit τ α) (log : Log) :
    forEach edit [] log = ⟨.ok [], [], log⟩ :=
  rfl

def inOrder : List (Edit σ Unit) → Edit σ Unit
  | [] => pure ()
  | step :: rest => do
      step
      inOrder rest

@[simp] theorem inOrder_nil : inOrder ([] : List (Edit σ Unit)) = pure () :=
  rfl

@[simp] theorem inOrder_cons (step : Edit σ Unit) (rest : List (Edit σ Unit)) :
    inOrder (step :: rest) = step >>= fun _ => inOrder rest :=
  rfl

end Edit

end RecordMapper
