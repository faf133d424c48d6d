import RecordMapper.Proofs.Statement.Layouts

/-!
# Statements that cannot be written

Whatever stands in a statement, all that can go wrong with its text is an error of writing.
-/

namespace RecordMapper

abbrev Writes {α : Type} (text : Attempt α) : Prop :=
  FailsAs (Error.IsOf .compile) text

theorem Operator.writes_layout (d : Dialect) (op : Operator) {operands : List Operand}
    (h : ∀ o ∈ operands, Writes o.body) : Writes (op.layout d operands) := by
  cases haccepts : op.arity.accepts operands.length with
  | true => exact failsAs_layout d haccepts h fun _ _ _ _ _ => rfl
  | false =>
      rw [layout_of_not_accepts d haccepts]
      exact FailsAs.error_iff.mpr rfl

theorem writes_clauseText (keyword : Keyword) (condition : Condition) {text : Attempt String}
    (h : Writes text) : Writes (clauseText keyword condition text) := by
  simp [clauseText, h]

theorem writes_modifiersText (d : Dialect) (kind : StatementKind) (modifiers : Modifiers) :
    Writes (modifiersText d kind modifiers) := by
  have htexts : ∀ modifier ∈ modifiers.toList, Writes
      (if d.supportsModifier kind modifier then Except.ok (" " ++ modifier.text)
        else Except.error (Error.modifierUnsupported modifier d)) := by
    intro modifier _
    split
    · exact FailsAs.ok _
    · exact FailsAs.error_iff.mpr rfl
  simp [modifiersText, FailsAs.mapM htexts]

mutual

theorem Condition.writes_body (d : Dialect) : (condition : Condition) → Writes (condition.body d)
  | .value _ | .field _ | .raw _ => FailsAs.ok _
  | .subquery select => Select.writes_render d select
  | .node op operands => op.writes_layout d (writes_operandBodies d operands)

theorem writes_operandBodies (d : Dialect) : (operands : List Condition) →
    ∀ o ∈ operandBodies d operands, Writes o.body
  | [] => nofun
  | operand :: rest => by
      rw [operandBodies, List.forall_mem_cons]
      exact ⟨Condition.writes_body d operand, writes_operandBodies d rest⟩

theorem Column.writes_render (d : Dialect) (starAllowed : Bool) : (column : Column) →
    Writes (column.render d starAllowed)
  | .field ref label? => by
      have hstar : Error.starRefused.IsOf .compile := rfl
      cases label? <;> simp [Column.render, hstar]
  | .expr tree label? => by
      have htree := Operand.failsAs_standalone (o := ⟨tree, tree.body d⟩)
        (Condition.writes_body d tree)
      cases label? <;> simp [Column.render, htree]
  | .subquery select label => by
      simp [Column.render, Select.writes_render d select]

theorem writes_columnTexts (d : Dialect) (starAllowed : Bool) : (columns : List Column) →
    Writes (columnTexts d starAllowed columns)
  | [] => FailsAs.ok []
  | column :: rest => by
      simp [columnTexts, Column.writes_render d starAllowed column,
        writes_columnTexts d starAllowed rest]

theorem Source.writes_render (d : Dialect) : (source : Source) → Writes (source.render d)
  | .table name none => FailsAs.ok _
  | .table name (some label) => FailsAs.ok _
  | .subquery select label => by
      simp [Source.render, Select.writes_render d select]

theorem writes_sourceTexts (d : Dialect) : (sources : List Source) →
    Writes (sourceTexts d sources)
  | [] => FailsAs.ok []
  | source :: rest => by
      simp [sourceTexts, Source.writes_render d source, writes_sourceTexts d rest]

theorem Join.writes_render (d : Dialect) : (join : Join) → Writes (join.render d)
  | ⟨kind, source, on⟩ => by
      have hon := Operand.failsAs_standalone (o := ⟨on, on.body d⟩) (Condition.writes_body d on)
      simp [Join.render, Source.writes_render d source, writes_clauseText .on on hon]

theorem writes_joinTextsOf (d : Dialect) : (joins : List Join) → Writes (joinTextsOf d joins)
  | [] => FailsAs.ok []
  | join :: rest => by
      simp [joinTextsOf, Join.writes_render d join, writes_joinTextsOf d rest]

theorem Order.writes_render (d : Dialect) : (order : Order) → Writes (order.render d)
  | ⟨expr, direction⟩ => by
      have hexpr := Operand.failsAs_standalone (o := ⟨expr, expr.body d⟩)
        (Condition.writes_body d expr)
      simp [Order.render, hexpr]

theorem writes_orderTexts (d : Dialect) : (entries : List Order) → Writes (orderTexts d entries)
  | [] => FailsAs.ok []
  | entry :: rest => by
      simp [orderTexts, Order.writes_render d entry, writes_orderTexts d rest]

theorem Select.writes_render (d : Dialect) : (select : Select) → Writes (select.render d)
  | ⟨distinct, modifiers, columns, sources, joins, filter, group, having, order, limit, offset,
      forUpdate⟩ => by
      have hfilter := writes_clauseText .where filter
        (Operand.failsAs_standalone (o := ⟨filter, filter.body d⟩) (Condition.writes_body d filter))
      have hhaving := writes_clauseText .having having
        (Operand.failsAs_standalone (o := ⟨having, having.body d⟩) (Condition.writes_body d having))
      rw [Select.render]
      split
      · exact FailsAs.error_iff.mpr rfl
      · simp [writes_modifiersText d .select modifiers, writes_columnTexts d true columns,
          writes_sourceTexts d sources, writes_joinTextsOf d joins, hfilter,
          writes_columnTexts d false group, hhaving, writes_orderTexts d order]

end

theorem writes_renderClause (d : Dialect) (keyword : Keyword) (condition : Condition) :
    Writes (renderClause d keyword condition) :=
  writes_clauseText keyword condition (Operand.failsAs_standalone (Condition.writes_body d condition))

theorem writes_renderOrder (d : Dialect) (order : List Order) : Writes (renderOrder d order) := by
  simp [renderOrder, writes_orderTexts d order]

namespace Insert

theorem writes_rowValues (row : List (String × Value)) (columns : List String) :
    Writes (rowValues row columns) := by
  induction columns with
  | nil => exact FailsAs.ok []
  | cons column rest ih =>
      rw [rowValues]
      split
      · simp [ih]
      · exact FailsAs.error_iff.mpr rfl

theorem writes_rowText (d : Dialect) (columns : List String) (row : List (String × Value)) :
    Writes (rowText d columns row) := by
  unfold rowText
  split
  · simp [writes_rowValues]
  · exact FailsAs.error_iff.mpr rfl

theorem writes_rowsText (d : Dialect) (first : List (String × Value))
    (rows : List (List (String × Value))) : Writes (rowsText d first rows) := by
  unfold rowsText
  split
  · split
    · exact FailsAs.error_iff.mpr rfl
    · exact FailsAs.ok _
  · simp [FailsAs.mapM fun row _ => writes_rowText d (first.map Prod.fst) row]

theorem writes_returningText (d : Dialect) (columns : List Column) :
    Writes (returningText d columns) := by
  unfold returningText renderColumns
  split
  · exact FailsAs.ok _
  · split
    · simp [writes_columnTexts d true columns]
    · exact FailsAs.error_iff.mpr rfl

theorem writes_render (d : Dialect) (s : Insert) : Writes (s.render d) := by
  unfold render
  split
  · exact FailsAs.error_iff.mpr rfl
  · exact FailsAs.error_iff.mpr rfl
  · simp [writes_modifiersText, writes_rowsText, writes_returningText]

end Insert

theorem Update.writes_render (d : Dialect) (s : Update) : Writes (s.render d) := by
  have hassignments : ∀ assignment ∈ s.assignments, Writes (assignmentText d assignment) := by
    intro assignment _
    have hexpr : Writes (assignment.2.render d) :=
      Operand.failsAs_standalone (Condition.writes_body d assignment.2)
    simp [assignmentText, hexpr]
  unfold render
  split
  · exact FailsAs.error_iff.mpr rfl
  · split
    · exact FailsAs.error_iff.mpr rfl
    · simp [FailsAs.mapM hassignments, writes_modifiersText, writes_renderClause,
        writes_renderOrder]

theorem Delete.writes_render (d : Dialect) (s : Delete) : Writes (s.render d) := by
  unfold render
  split
  · exact FailsAs.error_iff.mpr rfl
  · simp [writes_modifiersText, writes_renderClause, writes_renderOrder]

theorem shapeSafe_of_writes {text : Attempt String} (h : Writes text) : ShapeSafe text :=
  shapeSafe_of_isOf (by decide) h

end RecordMapper
