import RecordMapper.Proofs.Failures
import RecordMapper.Proofs.Statement.Clause

/-!
# What nodes add to the failures of their operands

A node fails as one of its operands does.  Beyond that it only refuses a number of operands that its
operator does not accept, and an operand in the place of two bounds that is no literal pair.
-/

namespace RecordMapper

variable {allowed : Error → Prop}

theorem Condition.bounds?_eq_some {c : Condition} {low high : Value} :
    c.bounds? = some (low, high) ↔ c = .value (.array [low, high]) := by
  unfold bounds?
  split
  next => simp
  next hno => simpa using hno low high

namespace Operand

variable {o : Operand}

theorem failsAs_standalone (h : FailsAs allowed o.body) : FailsAs allowed o.standalone := by
  simp [standalone, h]

theorem failsAs_asOperand (h : FailsAs allowed o.body) : FailsAs allowed o.asOperand := by
  simp [asOperand, h]

theorem failsAs_asList (d : Dialect) (h : FailsAs allowed o.body) :
    FailsAs allowed (o.asList d) := by
  unfold asList
  split <;> simp [h]

theorem failsAs_asName (d : Dialect) (h : FailsAs allowed o.body) :
    FailsAs allowed (o.asName d) := by
  unfold asName
  split <;> simp [failsAs_standalone h]

end Operand

theorem failsAs_operandTexts {operands : List Operand}
    (h : ∀ o ∈ operands, FailsAs allowed o.body) : FailsAs allowed (operandTexts operands) :=
  FailsAs.mapM fun o ho => Operand.failsAs_asOperand (h o ho)

namespace Operator

variable {op : Operator} {operands : List Operand} {left right : Operand}

def takesBounds : Operator → Bool
  | .between | .notBetween => true
  | _ => false

theorem exists_one (hop : op.arity = .exact 1) {α : Type} {items : List α}
    (h : op.arity.accepts items.length = true) : ∃ a, items = [a] := by
  rw [hop] at h
  exact List.length_eq_one_iff.mp (by simpa [Arity.accepts] using h)

theorem exists_two (hop : op.arity = .exact 2) {α : Type} {items : List α}
    (h : op.arity.accepts items.length = true) : ∃ a b, items = [a, b] := by
  rw [hop] at h
  exact List.length_eq_two.mp (by simpa [Arity.accepts] using h)

theorem layout_of_not_accepts (d : Dialect) (h : op.arity.accepts operands.length = false) :
    op.layout d operands = .error (.operandCount op operands.length) := by
  rcases operands with _ | ⟨first, _ | ⟨second, _ | ⟨third, rest⟩⟩⟩
  all_goals
    cases op with
    | _ => first | rfl | simp [arity, Arity.accepts] at h

theorem accepts_of_layout {d : Dialect} {text : String} (htext : op.layout d operands = .ok text) :
    op.arity.accepts operands.length = true := by
  rw [← Bool.not_eq_false]
  intro hrefused
  rw [layout_of_not_accepts d hrefused] at htext
  cases htext

theorem exists_unary {d : Dialect} {text : String} (hop : op.arity = .exact 1)
    (htext : op.layout d operands = .ok text) : ∃ operand, operands = [operand] :=
  exists_one hop (accepts_of_layout htext)

theorem exists_binary {d : Dialect} {text : String} (hop : op.arity = .exact 2)
    (htext : op.layout d operands = .ok text) : ∃ left right, operands = [left, right] :=
  exists_two hop (accepts_of_layout htext)

theorem failsAs_betweenText (d : Dialect) (keyword : Keyword) (hleft : FailsAs allowed left.body)
    (hbounds : right.tree.bounds? = none → allowed (.boundsNotPair op)) :
    FailsAs allowed (op.betweenText d keyword left right) := by
  unfold betweenText
  split
  · simp [Operand.failsAs_asOperand hleft]
  next hnone => exact FailsAs.error_iff.mpr (hbounds hnone)

theorem failsAs_memberText (d : Dialect) (keyword : Keyword) (hleft : FailsAs allowed left.body)
    (hright : FailsAs allowed right.body) : FailsAs allowed (memberText d keyword left right) := by
  simp [memberText, Operand.failsAs_asOperand hleft, Operand.failsAs_asList d hright]

theorem failsAs_infix (d : Dialect) {keyword : Keyword} (hop : op.infixKeyword? = some keyword)
    (hleft : FailsAs allowed left.body) (hright : FailsAs allowed right.body) :
    FailsAs allowed (op.layout d [left, right]) := by
  rw [layout_of_keyword d hop]
  simp [Operand.failsAs_asOperand hleft, Operand.failsAs_asOperand hright]

/-- A node with a number of operands that its operator accepts fails as an operand does, or for its
bounds. -/
theorem failsAs_layout (d : Dialect) (haccepts : op.arity.accepts operands.length = true)
    (h : ∀ o ∈ operands, FailsAs allowed o.body)
    (hbounds : ∀ left pair, operands = [left, pair] → op.takesBounds = true →
      pair.tree.bounds? = none → allowed (.boundsNotPair op)) :
    FailsAs allowed (op.layout d operands) := by
  have htexts := failsAs_operandTexts h
  cases op with
  | and | or => simp [layout, htexts]
  | not =>
      obtain ⟨operand, rfl⟩ := exists_one rfl haccepts
      simp [layout, Operand.failsAs_standalone (h operand List.mem_cons_self)]
  | between | notBetween =>
      obtain ⟨left, pair, rfl⟩ := exists_two rfl haccepts
      exact failsAs_betweenText d _ (h left List.mem_cons_self) (hbounds left pair rfl rfl)
  | «in» | notIn =>
      obtain ⟨left, list, rfl⟩ := exists_two rfl haccepts
      exact failsAs_memberText d _ (h left List.mem_cons_self) (h list (by simp))
  | any =>
      rcases operands with _ | ⟨first, _ | ⟨source, _ | ⟨third, rest⟩⟩⟩
      · simp [arity, Arity.accepts] at haccepts
      · simp [layout, h first List.mem_cons_self]
      · simp [layout, Operand.failsAs_asOperand (h first List.mem_cons_self), h source (by simp)]
      · simp [arity, Arity.accepts] at haccepts
  | «exists» | notExists =>
      obtain ⟨source, rfl⟩ := exists_one rfl haccepts
      simp [layout, h source List.mem_cons_self]
  | distinct =>
      cases operands with
      | nil => simp [arity, Arity.accepts] at haccepts
      | cons first rest => simp [layout, htexts]
  | as =>
      obtain ⟨expr, name, rfl⟩ := exists_two rfl haccepts
      simp [layout, Operand.failsAs_asOperand (h expr List.mem_cons_self),
        Operand.failsAs_asName d (h name (by simp))]
  | function name => simp [layout, htexts]
  | _ =>
      obtain ⟨left, right, rfl⟩ := exists_two rfl haccepts
      exact failsAs_infix d rfl (h left List.mem_cons_self) (h right (by simp))

end Operator

/-! ## Operands of nodes with a text -/

namespace Operand

variable {o : Operand} {text : String}

/-- The operand has a text, or is a value or a field, which some operators write in their own way. -/
def IsRead (o : Operand) : Prop :=
  (∃ body, o.body = .ok body) ∨ (∃ v, o.tree = .value v) ∨ ∃ ref, o.tree = .field ref

theorem isRead_of_standalone (h : o.standalone = .ok text) : o.IsRead := by
  obtain ⟨body, hbody, -⟩ := attempt_bind_eq_ok.mp h
  exact .inl ⟨body, hbody⟩

theorem isRead_of_asOperand (h : o.asOperand = .ok text) : o.IsRead := by
  obtain ⟨body, hbody, -⟩ := attempt_bind_eq_ok.mp h
  exact .inl ⟨body, hbody⟩

theorem isRead_of_asList {d : Dialect} (h : o.asList d = .ok text) : o.IsRead := by
  unfold asList at h
  split at h
  next htree => exact .inr (.inl ⟨_, htree⟩)
  next htree => exact .inr (.inl ⟨_, htree⟩)
  next => exact .inl ⟨text, h⟩

theorem isRead_of_asName {d : Dialect} (h : o.asName d = .ok text) : o.IsRead := by
  unfold asName at h
  split at h
  next htree => exact .inr (.inr ⟨_, htree⟩)
  next htree => exact .inr (.inl ⟨_, htree⟩)
  next => exact isRead_of_standalone h

theorem isRead_of_bounds {low high : Value} (h : o.tree.bounds? = some (low, high)) : o.IsRead :=
  .inr (.inl ⟨_, Condition.bounds?_eq_some.mp h⟩)

end Operand

theorem isRead_of_operandTexts {operands : List Operand} {texts : List String}
    (h : operandTexts operands = .ok texts) : ∀ o ∈ operands, o.IsRead := by
  intro o ho
  obtain ⟨text, -, htext⟩ := exists_of_mem_left (attempt_mapM_eq_ok.mp h) ho
  exact Operand.isRead_of_asOperand htext

namespace Operator

variable {op : Operator} {operands : List Operand} {left right : Operand} {d : Dialect}
  {text : String}

theorem isRead_pair (hleft : left.IsRead) (hright : right.IsRead) :
    ∀ o ∈ [left, right], o.IsRead :=
  List.forall_mem_cons.mpr ⟨hleft, List.forall_mem_singleton.mpr hright⟩

theorem isRead_of_betweenText {keyword : Keyword}
    (h : op.betweenText d keyword left right = .ok text) : ∀ o ∈ [left, right], o.IsRead := by
  unfold betweenText at h
  split at h
  next hbounds =>
      obtain ⟨leftText, hleft, -⟩ := attempt_bind_eq_ok.mp h
      exact isRead_pair (Operand.isRead_of_asOperand hleft) (Operand.isRead_of_bounds hbounds)
  next => cases h

theorem isRead_of_memberText {keyword : Keyword} (h : memberText d keyword left right = .ok text) :
    ∀ o ∈ [left, right], o.IsRead := by
  obtain ⟨leftText, hleft, h⟩ := attempt_bind_eq_ok.mp h
  obtain ⟨listText, hlist, -⟩ := attempt_bind_eq_ok.mp h
  exact isRead_pair (Operand.isRead_of_asOperand hleft) (Operand.isRead_of_asList hlist)

theorem isRead_of_infix {keyword : Keyword} (hop : op.infixKeyword? = some keyword)
    (h : op.layout d [left, right] = .ok text) : ∀ o ∈ [left, right], o.IsRead := by
  rw [layout_of_keyword d hop] at h
  obtain ⟨leftText, hleft, h⟩ := attempt_bind_eq_ok.mp h
  obtain ⟨rightText, hright, -⟩ := attempt_bind_eq_ok.mp h
  exact isRead_pair (Operand.isRead_of_asOperand hleft) (Operand.isRead_of_asOperand hright)

theorem isRead_of_layout (h : op.layout d operands = .ok text) : ∀ o ∈ operands, o.IsRead := by
  cases op with
  | and | or =>
      obtain ⟨texts, htexts, -⟩ := attempt_bind_eq_ok.mp h
      exact isRead_of_operandTexts htexts
  | not =>
      obtain ⟨operand, rfl⟩ := exists_unary rfl h
      obtain ⟨inner, hinner, -⟩ := attempt_bind_eq_ok.mp h
      exact List.forall_mem_singleton.mpr (Operand.isRead_of_standalone hinner)
  | between | notBetween =>
      obtain ⟨left, pair, rfl⟩ := exists_binary rfl h
      exact isRead_of_betweenText h
  | «in» | notIn =>
      obtain ⟨left, list, rfl⟩ := exists_binary rfl h
      exact isRead_of_memberText h
  | any =>
      rcases operands with _ | ⟨first, _ | ⟨source, _ | ⟨third, rest⟩⟩⟩
      · cases h
      · obtain ⟨inner, hinner, -⟩ := attempt_bind_eq_ok.mp h
        exact List.forall_mem_singleton.mpr (.inl ⟨inner, hinner⟩)
      · obtain ⟨leftText, hleft, h⟩ := attempt_bind_eq_ok.mp h
        obtain ⟨inner, hinner, -⟩ := attempt_bind_eq_ok.mp h
        exact isRead_pair (Operand.isRead_of_asOperand hleft) (.inl ⟨inner, hinner⟩)
      · cases h
  | «exists» | notExists =>
      obtain ⟨source, rfl⟩ := exists_unary rfl h
      obtain ⟨inner, hinner, -⟩ := attempt_bind_eq_ok.mp h
      exact List.forall_mem_singleton.mpr (.inl ⟨inner, hinner⟩)
  | distinct =>
      cases operands with
      | nil => nofun
      | cons first rest =>
          obtain ⟨texts, htexts, -⟩ := attempt_bind_eq_ok.mp h
          exact isRead_of_operandTexts htexts
  | as =>
      obtain ⟨expr, name, rfl⟩ := exists_binary rfl h
      obtain ⟨nameText, hname, h⟩ := attempt_bind_eq_ok.mp h
      obtain ⟨exprText, hexpr, -⟩ := attempt_bind_eq_ok.mp h
      exact isRead_pair (Operand.isRead_of_asOperand hexpr) (Operand.isRead_of_asName hname)
  | function name =>
      rw [layout] at h
      split at h
      next hempty =>
          rw [Bool.and_eq_true, List.isEmpty_iff] at hempty
          rw [hempty.1]
          nofun
      next =>
          obtain ⟨texts, htexts, -⟩ := attempt_bind_eq_ok.mp h
          exact isRead_of_operandTexts htexts
  | _ =>
      obtain ⟨left, right, rfl⟩ := exists_binary rfl h
      exact isRead_of_infix rfl h

end Operator

end RecordMapper
