import RecordMapper.Proofs.Attempt

/-!
# Families that vary in one part

One document is read for each number that stands in a place of it.  All readings fail, or all of them
have results of one kind: lists that vary in one item, and texts that vary in one part.
-/

namespace RecordMapper

variable {ι α β : Type}

/-- The attempts all fail, or all of them succeed with results of a kind. -/
inductive Uniformly (Kind : (ι → α) → Prop) (attempts : ι → Attempt α) : Prop
  | succeeds {results : ι → α} (hkind : Kind results) (h : ∀ k, attempts k = .ok (results k))
  | fails (h : ∀ k, ∃ error, attempts k = .error error)

def InList (Kind : (ι → α) → Prop) (lists : ι → List α) : Prop :=
  ∃ before items after, Kind items ∧ ∀ k, lists k = before ++ items k :: after

/-- The texts are one text around a part that varies. -/
def Framed (parts texts : ι → String) : Prop :=
  ∃ before after, ∀ k, texts k = before ++ parts k ++ after

/-! ## Attempts -/

namespace Uniformly

variable {Kind : (ι → α) → Prop} {Kind' : (ι → β) → Prop} {attempts : ι → Attempt α}

theorem ok {results : ι → α} (h : Kind results) : Uniformly Kind fun k => .ok (results k) :=
  .succeeds h fun _ => rfl

theorem error (errors : ι → Error) : Uniformly Kind fun k => .error (errors k) :=
  .fails fun k => ⟨errors k, rfl⟩

theorem bind (h : Uniformly Kind attempts) {next : ι → α → Attempt β}
    (hnext : ∀ results, Kind results → Uniformly Kind' fun k => next k (results k)) :
    Uniformly Kind' fun k => attempts k >>= next k := by
  cases h with
  | @succeeds results hkind h =>
      have hall : (fun k => attempts k >>= next k) = fun k => next k (results k) := by
        funext k
        rw [h k]
        rfl
      exact hall ▸ hnext results hkind
  | fails h =>
      refine .fails fun k => ?_
      obtain ⟨error, herror⟩ := h k
      exact ⟨error, by rw [herror]; rfl⟩

theorem bind_const (attempt : Attempt β) {next : ι → β → Attempt α}
    (hnext : ∀ b, Uniformly Kind fun k => next k b) :
    Uniformly Kind fun k => attempt >>= next k := by
  cases attempt with
  | ok b => exact hnext b
  | error error => exact .error fun _ => error

theorem map (h : Uniformly Kind attempts) {f : α → β}
    (hf : ∀ results, Kind results → Kind' fun k => f (results k)) :
    Uniformly Kind' fun k => f <$> attempts k := by
  have hbind : Uniformly Kind' fun k => attempts k >>= fun a => .ok (f a) :=
    h.bind fun results hkind => .ok (hf results hkind)
  exact hbind

theorem mapM {read : β → Attempt α} (before : List β) (items : ι → β) (after : List β)
    (h : Uniformly Kind fun k => read (items k)) :
    Uniformly (InList Kind) fun k => (before ++ items k :: after).mapM read := by
  simp only [List.mapM_append, List.mapM_cons, bind_assoc, pure_bind]
  refine .bind_const _ fun firsts => h.bind fun results hkind => .bind_const _ fun rest => ?_
  exact .ok ⟨firsts, results, rest, hkind, fun _ => rfl⟩

end Uniformly

/-! ## Texts -/

namespace Framed

variable {parts texts : ι → String}

theorem refl (parts : ι → String) : Framed parts parts :=
  ⟨"", "", fun k => by simp⟩

theorem append_left (h : Framed parts texts) (first : String) :
    Framed parts fun k => first ++ texts k := by
  obtain ⟨before, after, h⟩ := h
  exact ⟨first ++ before, after, fun k => by simp only [h k, String.append_assoc]⟩

theorem append_right (h : Framed parts texts) (last : String) :
    Framed parts fun k => texts k ++ last := by
  obtain ⟨before, after, h⟩ := h
  exact ⟨before, after ++ last, fun k => by simp only [h k, String.append_assoc]⟩

theorem ne_empty (h : Framed parts texts) {k : ι} (hpart : parts k ≠ "") : texts k ≠ "" := by
  obtain ⟨before, after, h⟩ := h
  simp [h k, hpart]

theorem intercalate {lists : ι → List String} (h : InList (Framed parts) lists)
    (separator : String) : Framed parts fun k => separator.intercalate (lists k) := by
  obtain ⟨before, items, after, hitems, h⟩ := h
  obtain rfl : lists = _ := funext h
  clear h
  induction before with
  | nil =>
      cases after with
      | nil => simpa using hitems
      | cons next rest =>
          simp only [List.nil_append, String.intercalate_cons_cons]
          exact (hitems.append_right _).append_right _
  | cons first rest ih =>
      have hne : ∀ k, rest ++ items k :: after ≠ [] := by simp
      simp only [List.cons_append, String.intercalate_cons_of_ne_nil (hne _)]
      exact ih.append_left _

end Framed

theorem InList.filter {Kind : (ι → α) → Prop} {lists : ι → List α} (h : InList Kind lists)
    {keeps : α → Bool} (hkeeps : ∀ items, Kind items → ∀ k, keeps (items k) = true) :
    InList Kind fun k => (lists k).filter keeps := by
  obtain ⟨before, items, after, hkind, h⟩ := h
  refine ⟨before.filter keeps, items, after.filter keeps, hkind, fun k => ?_⟩
  simp only [h k]
  rw [List.filter_append, List.filter_cons_of_pos (hkeeps items hkind k)]

end RecordMapper
