import RecordMapper.Proofs.Pointwise
import RecordMapper.Proofs.Statement.Kind
import RecordMapper.Session.Embedding
import RecordMapper.Session.Writing

/-!
# Clauses that are written

A clause is left out when its condition says nothing or has no text, and a statement without the
clause applies to every row.  `Condition.Speaks` rules out both, and `narrows_updateOf`,
`narrows_deleteOf` and `narrows_select` give the text of a statement whose condition speaks.
-/

namespace RecordMapper

/-! ## Conditions with a text -/

theorem Operator.layout_of_keyword {op : Operator} {keyword : Keyword} (d : Dialect)
    (h : op.infixKeyword? = some keyword) (left right : Operand) :
    op.layout d [left, right] = left.asOperand >>= fun leftText =>
      right.asOperand >>= fun rightText =>
        .ok (leftText ++ " " ++ keyword.text ++ " " ++ rightText) := by
  cases op <;> cases h <;> rfl

theorem operandBodies_eq_map (d : Dialect) (operands : List Condition) :
    operandBodies d operands = operands.map fun operand => ⟨operand, operand.body d⟩ := by
  induction operands with
  | nil => rfl
  | cons operand rest ih => rw [operandBodies, ih, List.map_cons]

theorem exists_operandText_of_mem {d : Dialect} {operands : List Condition} {texts : List String}
    (h : operandTexts (operandBodies d operands) = .ok texts) {operand : Condition}
    (hoperand : operand ∈ operands) :
    ∃ text ∈ texts, Operand.asOperand ⟨operand, operand.body d⟩ = .ok text := by
  rw [operandBodies_eq_map] at h
  exact exists_of_mem_left (attempt_mapM_eq_ok.mp h) (List.mem_map_of_mem hoperand)

theorem exists_operand_of_mem {d : Dialect} {operands : List Condition} {texts : List String}
    (h : operandTexts (operandBodies d operands) = .ok texts) {text : String}
    (htext : text ∈ texts) :
    ∃ operand ∈ operands, Operand.asOperand ⟨operand, operand.body d⟩ = .ok text := by
  rw [operandBodies_eq_map] at h
  obtain ⟨o, ho, hbody⟩ := exists_of_mem_right (attempt_mapM_eq_ok.mp h) htext
  obtain ⟨operand, hoperand, rfl⟩ := List.mem_map.mp ho
  exact ⟨operand, hoperand, hbody⟩

theorem joinTexts_ne_empty {keyword : Keyword} {texts : List String} {text : String}
    (hmem : text ∈ texts) (hne : text ≠ "") : joinTexts keyword texts ≠ "" := by
  have hkept : text ∈ texts.filter fun text => !text.isEmpty := by
    simp [hmem, hne]
  rw [joinTexts]
  cases hfilter : texts.filter fun text => !text.isEmpty with
  | nil =>
      rw [hfilter] at hkept
      cases hkept
  | cons first rest =>
      have hfirst : first ∈ texts.filter fun text => !text.isEmpty := by
        rw [hfilter]
        exact List.mem_cons_self
      have hfirstText : first ≠ "" := by simpa using (List.mem_filter.mp hfirst).2
      cases rest with
      | nil => simpa using hfirstText
      | cons next more => simp [String.intercalate_cons_cons, hfirstText]

namespace Condition

/-- The condition says something, and has no text that is empty. -/
structure Speaks (d : Dialect) (condition : Condition) : Prop where
  content : condition.isEmpty = false
  text_ne : ∀ text, condition.body d = .ok text → text ≠ ""

variable {d : Dialect} {condition : Condition} {operands : List Condition}

theorem asOperand_ne_empty (h : condition.Speaks d) {text : String}
    (htext : Operand.asOperand ⟨condition, condition.body d⟩ = .ok text) : text ≠ "" := by
  obtain ⟨body, hbody, htext⟩ := attempt_bind_eq_ok.mp htext
  cases htext
  split
  · simp [parenthesize]
  · exact h.text_ne body hbody

theorem render_ne_empty (h : condition.Speaks d) {text : String}
    (htext : condition.render d = .ok text) : text ≠ "" := by
  obtain ⟨body, hbody, htext⟩ := attempt_bind_eq_ok.mp htext
  cases htext
  split
  · simp [parenthesize]
  · exact h.text_ne body hbody

theorem speaks_infix {op : Operator} {keyword : Keyword} (hop : op.infixKeyword? = some keyword)
    (left right : Condition) : (node op [left, right]).Speaks d where
  content := by
    have hnot : op.isConjunction = false := by cases op <;> first | rfl | cases hop
    rw [isEmpty, hnot, Bool.false_and]
  text_ne text h := by
    rw [body, operandBodies, operandBodies, operandBodies, Operator.layout_of_keyword d hop] at h
    obtain ⟨leftText, -, h⟩ := attempt_bind_eq_ok.mp h
    obtain ⟨rightText, -, h⟩ := attempt_bind_eq_ok.mp h
    cases h
    simp

theorem speaks_eq (left right : Condition) : (eq left right).Speaks d := by
  unfold eq
  exact speaks_infix rfl left right

theorem speaks_isNull (left : Condition) : (isNull left).Speaks d := by
  unfold isNull
  exact speaks_infix rfl left (.value .null)

theorem speaks_inList (left : Condition) (values : List Value) : (inList left values).Speaks d where
  content := rfl
  text_ne text h := by
    obtain ⟨leftText, -, h⟩ := attempt_bind_eq_ok.mp h
    obtain ⟨listText, -, h⟩ := attempt_bind_eq_ok.mp h
    cases h
    simp

theorem allEmpty_eq_false (hmem : condition ∈ operands) (h : condition.isEmpty = false) :
    allEmpty operands = false := by
  induction operands with
  | nil => cases hmem
  | cons operand rest ih =>
      rw [allEmpty, Bool.and_eq_false_iff]
      rcases List.mem_cons.mp hmem with rfl | hrest
      · exact .inl h
      · exact .inr (ih hrest)

theorem speaks_joined {op : Operator} {keyword : Keyword} (hop : op.isConjunction = true)
    (hlayout : ∀ bodies, op.layout d bodies =
      operandTexts bodies >>= fun texts => .ok (joinTexts keyword texts))
    (hmem : condition ∈ operands) (h : condition.Speaks d) : (node op operands).Speaks d where
  content := by rw [isEmpty, hop, allEmpty_eq_false hmem h.content, Bool.true_and]
  text_ne text htext := by
    rw [body, hlayout] at htext
    obtain ⟨texts, htexts, htext⟩ := attempt_bind_eq_ok.mp htext
    cases htext
    obtain ⟨operandText, hoperand, hbody⟩ := exists_operandText_of_mem htexts hmem
    exact joinTexts_ne_empty hoperand (asOperand_ne_empty h hbody)

theorem speaks_and (hmem : condition ∈ operands) (h : condition.Speaks d) :
    (and operands).Speaks d :=
  speaks_joined rfl (fun _ => rfl) hmem h

theorem speaks_or (hmem : condition ∈ operands) (h : condition.Speaks d) :
    (or operands).Speaks d :=
  speaks_joined rfl (fun _ => rfl) hmem h

theorem conjuncts_both {first second : Condition} (hfirst : first.isEmpty = false)
    (hflat : first.conjuncts = [first]) : ∃ more, (first.both second).conjuncts = first :: more := by
  rw [both, hfirst, if_neg (by simp)]
  split
  · exact ⟨[], hflat⟩
  · exact ⟨second.conjuncts, by rw [conjuncts, hflat, List.singleton_append]⟩

theorem speaks_both {first : Condition} (hflat : first.conjuncts = [first])
    (h : first.Speaks d) (second : Condition) : (first.both second).Speaks d := by
  rw [both, h.content, if_neg (by simp)]
  split
  · exact h
  · refine speaks_and ?_ h
    rw [hflat]
    exact List.mem_append_left _ List.mem_cons_self

end Condition

/-! ## Conditions on related rows -/

namespace Relation

/-- The comparison with the key of one owner. -/
def hasKey (relation : Relation) (key : Value) : Condition :=
  .eq (.ofPath relation.targetKey) (.value key)

def hasKeys (relation : Relation) (keys : List Value) : Condition :=
  .inList (.ofPath relation.targetKey) keys

variable {d : Dialect} {relation : Relation} {owner : Entity} {condition : Condition}

theorem matchCondition_eq_ok (h : relation.matchCondition owner = .ok condition) :
    ∃ key, owner.requireKey relation.sourceKey relation.source relation.name = .ok key ∧
      condition = (relation.hasKey key).both relation.constraints := by
  obtain ⟨key, hkey, hcondition⟩ := attempt_bind_eq_ok.mp h
  cases hcondition
  exact ⟨key, hkey, rfl⟩

theorem speaks_matchCondition (h : relation.matchCondition owner = .ok condition) :
    condition.Speaks d := by
  obtain ⟨key, -, rfl⟩ := matchCondition_eq_ok h
  exact Condition.speaks_both rfl (Condition.speaks_eq _ _) relation.constraints

theorem speaks_batchCondition (relation : Relation) (keys : List Value) :
    (relation.batchCondition keys).Speaks d :=
  Condition.speaks_both rfl (Condition.speaks_inList _ _) relation.constraints

end Relation

/-! ## Statements with a clause -/

theorem renderClause_eq_ok {d : Dialect} {keyword : Keyword} {condition : Condition}
    {clause : String} (h : condition.Speaks d) (hclause : renderClause d keyword condition = .ok clause) :
    ∃ text, condition.render d = .ok text ∧ text ≠ "" ∧
      clause = " " ++ keyword.text ++ " " ++ text := by
  rw [renderClause, clauseText, h.content, if_neg (by simp)] at hclause
  obtain ⟨text, htext, hclause⟩ := attempt_bind_eq_ok.mp hclause
  have hne := Condition.render_ne_empty h htext
  refine ⟨text, htext, hne, ?_⟩
  rw [if_neg (by simpa using hne)] at hclause
  exact (Except.ok.inj hclause).symm

def Dialect.Narrows (d : Dialect) (condition : Condition) (head sql : String) : Prop :=
  ∃ text, condition.render d = .ok text ∧ text ≠ "" ∧ sql = head ++ " WHERE " ++ text

namespace Schema

def deleteHead (s : Schema) (d : Dialect) : String :=
  "DELETE FROM " ++ d.quotePath s.tableName

def updateHead (s : Schema) (d : Dialect) (changes : List (String × Value)) : String :=
  "UPDATE " ++ d.quotePath s.tableName ++ " SET " ++
    ", ".intercalate (changes.map fun pair => d.quoteIdentifier pair.1 ++ " = " ++ d.literal pair.2)

def selectHead (s : Schema) (d : Dialect) (columns : List Column) : Attempt String := do
  let texts ← columnTexts d true columns
  return "SELECT " ++ (if columns.isEmpty then "*" else columnListText texts) ++ " FROM " ++
    d.quotePath s.tableName

variable {s : Schema} {d : Dialect} {sql : String}

theorem render_deleteOf {condition : Condition} (h : (s.deleteOf condition).render d = .ok sql) :
    ∃ clause, renderClause d .where condition = .ok clause ∧ sql = s.deleteHead d ++ clause := by
  obtain ⟨modifiers, hmodifiers, h⟩ := attempt_bind_eq_ok.mp h
  obtain ⟨clause, hclause, h⟩ := attempt_bind_eq_ok.mp h
  obtain ⟨order, horder, h⟩ := attempt_bind_eq_ok.mp h
  cases hmodifiers
  cases horder
  cases h
  refine ⟨clause, hclause, ?_⟩
  change "DELETE" ++ "" ++ " " ++ "FROM" ++ " " ++ d.quotePath s.tableName ++ clause ++ "" ++ "" = _
  simp only [deleteHead, String.append_empty, String.append_assoc]
  rfl

theorem narrows_deleteOf {condition : Condition} (hcondition : condition.Speaks d)
    (h : (s.deleteOf condition).render d = .ok sql) :
    d.Narrows condition (s.deleteHead d) sql := by
  obtain ⟨clause, hclause, rfl⟩ := render_deleteOf h
  obtain ⟨text, htext, hne, rfl⟩ := renderClause_eq_ok hcondition hclause
  refine ⟨text, htext, hne, ?_⟩
  simp only [String.append_assoc]
  rfl

theorem mapM_assignmentText (d : Dialect) (changes : List (String × Value)) :
    (changes.map fun (column, value) => (column, Condition.value value)).mapM
        (Update.assignmentText d) =
      .ok (changes.map fun pair => d.quoteIdentifier pair.1 ++ " = " ++ d.literal pair.2) := by
  rw [attempt_mapM_eq_ok, List.forall₂_map_left_iff, List.forall₂_map_right_iff,
    List.forall₂_same]
  rintro ⟨column, value⟩ -
  change Except.ok (d.quoteIdentifier column ++ " " ++ "=" ++ " " ++ d.literal value) = _
  simp only [String.append_assoc]
  rfl

theorem narrows_updateOf {changes : List (String × Value)} {id : Value}
    (h : (s.updateOf changes id).render d = .ok sql) :
    d.Narrows (s.hasKey id) (s.updateHead d changes) sql := by
  change (if _ then _ else _) = Except.ok sql at h
  split at h
  · cases h
  · obtain ⟨assignments, hassignments, h⟩ := attempt_bind_eq_ok.mp h
    obtain ⟨modifiers, hmodifiers, h⟩ := attempt_bind_eq_ok.mp h
    obtain ⟨clause, hclause, h⟩ := attempt_bind_eq_ok.mp h
    obtain ⟨order, horder, h⟩ := attempt_bind_eq_ok.mp h
    cases (mapM_assignmentText d changes).symm.trans hassignments
    cases hmodifiers
    cases horder
    cases h
    obtain ⟨text, htext, hne, rfl⟩ := renderClause_eq_ok (Condition.speaks_eq _ _) hclause
    refine ⟨text, htext, hne, ?_⟩
    change "UPDATE" ++ "" ++ " " ++ d.quotePath s.tableName ++ " " ++ "SET" ++ " " ++ _ ++
      (" " ++ "WHERE" ++ " " ++ text) ++ "" ++ "" = _
    simp only [updateHead, String.append_empty, String.append_assoc]
    rfl

theorem narrows_select {condition : Condition} {columns : List Column}
    (hcondition : condition.Speaks d)
    (h : ((s.select.addColumns columns).addFilter condition).render d = .ok sql) :
    ∃ head, s.selectHead d columns = .ok head ∧ d.Narrows condition head sql := by
  have hselect : (s.select.addColumns columns).addFilter condition =
      { Select.empty with columns, sources := [.named s.tableName], filter := condition } := rfl
  rw [hselect, Select.empty, Select.render] at h
  change (if List.isEmpty _ then _ else _) = Except.ok sql at h
  split at h
  · cases h
  · obtain ⟨modifiers, hmodifiers, h⟩ := attempt_bind_eq_ok.mp h
    obtain ⟨texts, htexts, h⟩ := attempt_bind_eq_ok.mp h
    obtain ⟨sources, hsources, h⟩ := attempt_bind_eq_ok.mp h
    obtain ⟨joins, hjoins, h⟩ := attempt_bind_eq_ok.mp h
    obtain ⟨clause, hclause, h⟩ := attempt_bind_eq_ok.mp h
    obtain ⟨group, hgroup, h⟩ := attempt_bind_eq_ok.mp h
    obtain ⟨having, hhaving, h⟩ := attempt_bind_eq_ok.mp h
    obtain ⟨order, horder, h⟩ := attempt_bind_eq_ok.mp h
    cases hmodifiers
    cases hsources
    cases hjoins
    cases hgroup
    cases hhaving
    cases horder
    cases h
    obtain ⟨text, htext, hne, rfl⟩ := renderClause_eq_ok hcondition hclause
    refine ⟨_, attempt_bind_eq_ok.mpr ⟨texts, htexts, rfl⟩, text, htext, hne, ?_⟩
    change "SELECT" ++ "" ++ "" ++ " " ++ (if columns.isEmpty then "*" else columnListText texts) ++
      " " ++ "FROM" ++ " " ++ d.quotePath s.tableName ++ "" ++ (" " ++ "WHERE" ++ " " ++ text) ++
      "" ++ "" ++ "" ++ "" ++ "" ++ "" = _
    simp only [String.append_empty, String.append_assoc]
    rfl

end Schema

end RecordMapper
