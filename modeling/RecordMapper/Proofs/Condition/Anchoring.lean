import RecordMapper.Proofs.Condition.Accumulating
import RecordMapper.Proofs.Statement.Layouts

/-!
# Conditions that are moved to a table

A condition is moved to a table by giving the table to each of its fields that names none.  Nothing else
changes, at any place of the condition, and neither does whether it can be written.  The move goes along
with conjunctions, so that it can be made before or after conditions are joined.
-/

namespace RecordMapper

/-! ## Attempts that end alike -/

inductive EndAlike {α β : Type} : Attempt α → Attempt β → Prop
  | ok (a : α) (b : β) : EndAlike (.ok a) (.ok b)
  | error (error : Error) : EndAlike (.error error) (.error error)

namespace EndAlike

variable {α α' β β' : Type} {attempt : Attempt α} {attempt' : Attempt α'}

theorem refl (attempt : Attempt α) : EndAlike attempt attempt := by
  cases attempt with
  | ok a => exact .ok a a
  | error error => exact .error error

theorem bind (h : EndAlike attempt attempt') {next : α → Attempt β} {next' : α' → Attempt β'}
    (hnext : ∀ a a', EndAlike (next a) (next' a')) :
    EndAlike (attempt >>= next) (attempt' >>= next') := by
  cases h with
  | ok a a' => exact hnext a a'
  | error error => exact .error error

theorem map (h : EndAlike attempt attempt') (f : α → β) (f' : α' → β') :
    EndAlike (attempt >>= fun a => pure (f a)) (attempt' >>= fun a' => pure (f' a')) :=
  h.bind fun a a' => .ok (f a) (f' a')

theorem mapM {f : α → Attempt β} {f' : α' → Attempt β'} {items : List α} {items' : List α'}
    (h : List.Forall₂ (fun a a' => EndAlike (f a) (f' a')) items items') :
    EndAlike (items.mapM f) (items'.mapM f') := by
  induction h with
  | nil => exact .ok [] []
  | cons hfirst _ ih =>
      simp only [List.mapM_cons]
      exact hfirst.bind fun _ _ => ih.map _ _

theorem exists_ok_iff (h : EndAlike attempt attempt') :
    (∃ a, attempt = .ok a) ↔ ∃ a', attempt' = .ok a' := by
  cases h with
  | ok a a' => simp
  | error error => simp

theorem error_iff (h : EndAlike attempt attempt') (error : Error) :
    attempt = .error error ↔ attempt' = .error error := by
  cases h with
  | ok a a' => simp
  | error other => simp

end EndAlike

/-! ## Nodes of operands that end alike -/

/-- The operands end alike in whatever form they are written. -/
structure Operand.Alike (d : Dialect) (o o' : Operand) : Prop where
  body : EndAlike o.body o'.body
  list : EndAlike (o.asList d) (o'.asList d)
  name : EndAlike (o.asName d) (o'.asName d)
  bounds : o.tree.bounds? = o'.tree.bounds?

namespace Operand.Alike

variable {d : Dialect} {o o' : Operand} {operands operands' : List Operand}

theorem refl (d : Dialect) (o : Operand) : o.Alike d o :=
  ⟨.refl _, .refl _, .refl _, rfl⟩

theorem standalone (h : Alike d o o') : EndAlike o.standalone o'.standalone :=
  h.body.map _ _

theorem asOperand (h : Alike d o o') : EndAlike o.asOperand o'.asOperand :=
  h.body.map _ _

theorem operandTexts (h : List.Forall₂ (Alike d) operands operands') :
    EndAlike (operandTexts operands) (operandTexts operands') :=
  .mapM (h.imp fun _ _ => asOperand)

end Operand.Alike

namespace Operator

open Operand (Alike)

variable {d : Dialect} {op : Operator} {left right left' right' : Operand}
  {operands operands' : List Operand}

theorem endAlike_betweenText (op : Operator) (keyword : Keyword) (hleft : Alike d left left')
    (hright : Alike d right right') :
    EndAlike (op.betweenText d keyword left right) (op.betweenText d keyword left' right') := by
  simp only [betweenText, hright.bounds]
  split
  · exact hleft.asOperand.map _ _
  · exact .refl _

theorem endAlike_memberText (keyword : Keyword) (hleft : Alike d left left')
    (hright : Alike d right right') :
    EndAlike (memberText d keyword left right) (memberText d keyword left' right') :=
  hleft.asOperand.bind fun _ _ => hright.list.map _ _

theorem endAlike_infix {keyword : Keyword} (hop : op.infixKeyword? = some keyword)
    (hleft : Alike d left left') (hright : Alike d right right') :
    EndAlike (op.layout d [left, right]) (op.layout d [left', right']) := by
  simp only [layout_of_keyword d hop]
  exact hleft.asOperand.bind fun _ _ => hright.asOperand.map _ _

theorem exists_alike_one (hop : op.arity = .exact 1)
    (haccepts : op.arity.accepts operands.length = true)
    (h : List.Forall₂ (Alike d) operands operands') :
    ∃ o o', operands = [o] ∧ operands' = [o'] ∧ Alike d o o' := by
  obtain ⟨o, rfl⟩ := exists_one hop haccepts
  cases h with
  | cons ho hrest =>
      cases hrest
      exact ⟨o, _, rfl, rfl, ho⟩

theorem exists_alike_two (hop : op.arity = .exact 2)
    (haccepts : op.arity.accepts operands.length = true)
    (h : List.Forall₂ (Alike d) operands operands') :
    ∃ left right left' right', operands = [left, right] ∧ operands' = [left', right'] ∧
      Alike d left left' ∧ Alike d right right' := by
  obtain ⟨left, right, rfl⟩ := exists_two hop haccepts
  cases h with
  | cons hleft hrest =>
      cases hrest with
      | cons hright hnil =>
          cases hnil
          exact ⟨left, right, _, _, rfl, rfl, hleft, hright⟩

theorem endAlike_any (haccepts : any.arity.accepts operands.length = true)
    (h : List.Forall₂ (Alike d) operands operands') :
    EndAlike (any.layout d operands) (any.layout d operands') := by
  cases h with
  | nil => exact .refl _
  | cons hfirst hrest =>
      cases hrest with
      | nil => exact hfirst.body.map _ _
      | cons hsource hmore =>
          cases hmore with
          | nil => exact hfirst.asOperand.bind fun _ _ => hsource.body.map _ _
          | cons _ _ => simp [arity, Arity.accepts] at haccepts

theorem endAlike_layout (op : Operator) (h : List.Forall₂ (Alike d) operands operands') :
    EndAlike (op.layout d operands) (op.layout d operands') := by
  have hlength := h.length_eq
  cases haccepts : op.arity.accepts operands.length with
  | false =>
      rw [layout_of_not_accepts d haccepts, layout_of_not_accepts d (hlength ▸ haccepts), hlength]
      exact .refl _
  | true =>
      have htexts := Operand.Alike.operandTexts h
      cases op with
      | and | or => exact htexts.map _ _
      | not =>
          obtain ⟨o, o', rfl, rfl, ho⟩ := exists_alike_one rfl haccepts h
          exact ho.standalone.map _ _
      | between | notBetween =>
          obtain ⟨left, right, left', right', rfl, rfl, hleft, hright⟩ :=
            exists_alike_two rfl haccepts h
          exact endAlike_betweenText _ _ hleft hright
      | «in» | notIn =>
          obtain ⟨left, right, left', right', rfl, rfl, hleft, hright⟩ :=
            exists_alike_two rfl haccepts h
          exact endAlike_memberText _ hleft hright
      | any => exact endAlike_any haccepts h
      | «exists» | notExists =>
          obtain ⟨o, o', rfl, rfl, ho⟩ := exists_alike_one rfl haccepts h
          exact ho.body.map _ _
      | distinct =>
          cases h with
          | nil => exact .refl _
          | cons _ _ => exact htexts.map _ _
      | as =>
          obtain ⟨expr, name, expr', name', rfl, rfl, hexpr, hname⟩ :=
            exists_alike_two rfl haccepts h
          exact hname.name.bind fun _ _ => hexpr.asOperand.map _ _
      | function name =>
          cases h with
          | nil => exact .refl _
          | cons _ _ =>
              simp only [layout, List.isEmpty_cons, Bool.false_and]
              exact htexts.map _ _
      | _ =>
          obtain ⟨left, right, left', right', rfl, rfl, hleft, hright⟩ :=
            exists_alike_two rfl haccepts h
          exact endAlike_infix rfl hleft hright

end Operator

/-! ## Induction over conditions -/

namespace Condition

mutual

/-- A property of all conditions holds if each node has it whose operands have it. -/
theorem nodeInduction {motive : Condition → Prop} (value : ∀ v, motive (.value v))
    (field : ∀ ref, motive (.field ref)) (raw : ∀ sql, motive (.raw sql))
    (subquery : ∀ select, motive (.subquery select))
    (node : ∀ op operands, (∀ operand ∈ operands, motive operand) → motive (.node op operands)) :
    (c : Condition) → motive c
  | .value v => value v
  | .field ref => field ref
  | .raw sql => raw sql
  | .subquery select => subquery select
  | .node op operands => node op operands (nodeInductionAll value field raw subquery node operands)

theorem nodeInductionAll {motive : Condition → Prop} (value : ∀ v, motive (.value v))
    (field : ∀ ref, motive (.field ref)) (raw : ∀ sql, motive (.raw sql))
    (subquery : ∀ select, motive (.subquery select))
    (node : ∀ op operands, (∀ operand ∈ operands, motive operand) → motive (.node op operands)) :
    (operands : List Condition) → ∀ operand ∈ operands, motive operand
  | [] => nofun
  | operand :: rest => by
      rw [List.forall_mem_cons]
      exact ⟨nodeInduction value field raw subquery node operand,
        nodeInductionAll value field raw subquery node rest⟩

end

/-! ## Places in conditions -/

def operand? : Condition → Nat → Option Condition
  | .node _ operands, i => operands[i]?
  | _, _ => none

/-- The part of a condition that a list of places leads to.  None leads into a nested selection. -/
def part? (condition : Condition) (places : List Nat) : Option Condition :=
  places.foldlM operand? condition

/-- What a move to a table does with the condition at one place: a field that names no table gets it, a
node keeps its operator and the number of its operands, and all else is kept as it is. -/
inductive Moved (table : String) : Condition → Condition → Prop
  | value (v : Value) : Moved table (.value v) (.value v)
  | bare (name : String) : Moved table (.field ⟨none, name⟩) (.field ⟨some table, name⟩)
  | qualified (own name : String) :
      Moved table (.field ⟨some own, name⟩) (.field ⟨some own, name⟩)
  | raw (sql : String) : Moved table (.raw sql) (.raw sql)
  | subquery (select : Select) : Moved table (.subquery select) (.subquery select)
  | node (op : Operator) {operands operands' : List Condition}
      (hlength : operands'.length = operands.length) :
      Moved table (.node op operands) (.node op operands')

variable {table : String} {condition : Condition}

theorem anchorAll_eq_map (table : String) (operands : List Condition) :
    anchorAll table operands = operands.map (anchor table) := by
  induction operands with
  | nil => rfl
  | cons operand rest ih => rw [anchorAll, ih, List.map_cons]

theorem moved_anchor (table : String) (condition : Condition) :
    Moved table condition (condition.anchor table) := by
  cases condition with
  | value v => exact .value v
  | field ref =>
      obtain ⟨own?, name⟩ := ref
      cases own? with
      | none => exact .bare name
      | some own => exact .qualified own name
  | raw sql => exact .raw sql
  | subquery select => exact .subquery select
  | node op operands => exact .node op (by rw [anchorAll_eq_map, List.length_map])

theorem operand?_anchor (table : String) (condition : Condition) (i : Nat) :
    (condition.anchor table).operand? i = (condition.operand? i).map (anchor table) := by
  cases condition with
  | node op operands => simp [anchor, operand?, anchorAll_eq_map]
  | _ => rfl

theorem part?_anchor (table : String) (condition : Condition) (places : List Nat) :
    (condition.anchor table).part? places = (condition.part? places).map (anchor table) := by
  induction places generalizing condition with
  | nil => rfl
  | cons i places ih =>
      simp only [part?, List.foldlM_cons, operand?_anchor] at ih ⊢
      cases condition.operand? i with
      | none => rfl
      | some operand => exact ih operand

/-! ## Laws of moves -/

theorem allEmpty_congr {operands : List Condition} {move : Condition → Condition}
    (h : ∀ operand ∈ operands, (move operand).isEmpty = operand.isEmpty) :
    allEmpty (operands.map move) = allEmpty operands := by
  induction operands with
  | nil => rfl
  | cons operand rest ih =>
      rw [List.forall_mem_cons] at h
      rw [List.map_cons, allEmpty, allEmpty, h.1, ih h.2]

theorem isEmpty_anchor (table : String) (condition : Condition) :
    (condition.anchor table).isEmpty = condition.isEmpty := by
  induction condition using nodeInduction with
  | node op operands ih => rw [anchor, isEmpty, isEmpty, anchorAll_eq_map, allEmpty_congr ih]
  | _ => rfl

theorem anchor_anchor (table other : String) (condition : Condition) :
    (condition.anchor table).anchor other = condition.anchor table := by
  induction condition using nodeInduction with
  | field ref =>
      obtain ⟨own?, name⟩ := ref
      cases own? with
      | _ => rfl
  | node op operands ih =>
      simp only [anchor, anchorAll_eq_map, List.map_map]
      exact congrArg (node op) (List.map_congr_left ih)
  | _ => rfl

theorem conjuncts_anchor (table : String) (condition : Condition) :
    (condition.anchor table).conjuncts = condition.conjuncts.map (anchor table) := by
  cases condition with
  | node op operands =>
      cases op with
      | and => rw [anchor, conjuncts, conjuncts, anchorAll_eq_map]
      | _ => rfl
  | _ => rfl

theorem anchor_both (table : String) (first second : Condition) :
    (first.both second).anchor table = (first.anchor table).both (second.anchor table) := by
  simp only [both, isEmpty_anchor, conjuncts_anchor]
  split
  · rfl
  · split
    · rfl
    · rw [anchor, anchorAll_eq_map, List.map_append]

/-! ## Texts of moved conditions -/

/-- A condition is written after a move if and only if it was before, in whatever form. -/
theorem alike_anchor (d : Dialect) (table : String) (condition : Condition) :
    Operand.Alike d ⟨condition, condition.body d⟩
      ⟨condition.anchor table, (condition.anchor table).body d⟩ := by
  induction condition using nodeInduction with
  | field ref => exact ⟨.ok _ _, .ok _ _, .ok _ _, rfl⟩
  | node op operands ih =>
      have hoperands : List.Forall₂ (Operand.Alike d) (operandBodies d operands)
          (operandBodies d (anchorAll table operands)) := by
        simp only [operandBodies_eq_map, anchorAll_eq_map, List.map_map,
          List.forall₂_map_left_iff, List.forall₂_map_right_iff]
        exact List.forall₂_same.mpr ih
      have hbody := op.endAlike_layout hoperands
      exact ⟨hbody, hbody, hbody.map _ _, rfl⟩
  | _ => exact .refl d _

/-- A move to a table gives it to the fields that name none, at every place outside of nested selections,
and keeps all else.  A second move changes nothing, conditions can be joined before or after it, and what
is moved has a text, or fails with an error, as it did before. -/
theorem anchor_moves_fields (table other : String) (first second : Condition) :
    (∀ places, Option.Rel (Moved table) (first.part? places)
      ((first.anchor table).part? places)) ∧
    (∀ places ref, (first.anchor table).part? places = some (.field ref) → ref.table ≠ none) ∧
    (first.anchor table).isEmpty = first.isEmpty ∧
    (first.anchor table).anchor other = first.anchor table ∧
    (first.both second).anchor table = (first.anchor table).both (second.anchor table) ∧
    ∀ d, ((∃ sql, (first.anchor table).render d = .ok sql) ↔ ∃ sql, first.render d = .ok sql) ∧
      ∀ error, (first.anchor table).render d = .error error ↔ first.render d = .error error := by
  refine ⟨fun places => ?_, fun places ref h => ?_, isEmpty_anchor table first,
    anchor_anchor table other first, anchor_both table first second, fun d => ?_⟩
  · rw [part?_anchor]
    cases first.part? places with
    | none => exact .none
    | some part => exact .some (moved_anchor table part)
  · rw [part?_anchor] at h
    obtain ⟨part, -, hpart⟩ := Option.map_eq_some_iff.mp h
    have hmoved := moved_anchor table part
    rw [hpart] at hmoved
    cases hmoved with
    | bare name => simp
    | qualified own name => simp
  · have hrender : EndAlike (first.render d) ((first.anchor table).render d) :=
      (alike_anchor d table first).standalone
    exact ⟨hrender.exists_ok_iff.symm, fun error => (hrender.error_iff error).symm⟩

/-- Images of a gallery, with the numbers between some bounds. -/
def imagesOf (bounds : List Value) : Condition :=
  and [eq (.field ⟨some "other", "id"⟩) (.field ⟨none, "gallery_id"⟩),
    .node .between [.field ⟨none, "id"⟩, .value (.array bounds)]]

/-- The table is given to the second field and not to the first one, and a range that lacks a bound is
refused before and after. -/
theorem anchor_moves_fields_images :
    ((imagesOf [.integer 1]).anchor "g").part? [0, 1] =
      some (.field ⟨some "g", "gallery_id"⟩) ∧
    (⟨some "g", "gallery_id"⟩ : FieldRef).table ≠ none ∧
    ((imagesOf [.integer 1]).anchor "g").render .generic = .error (.boundsNotPair .between) ∧
    ∃ sql, ((imagesOf [.integer 1, .integer 9]).anchor "g").render .generic = .ok sql := by
  obtain ⟨-, hfields, -, -, -, hrefused⟩ :=
    anchor_moves_fields "g" "h" (imagesOf [.integer 1]) always
  have hwritten := anchor_moves_fields "g" "h" (imagesOf [.integer 1, .integer 9]) always
  have hpart : ((imagesOf [.integer 1]).anchor "g").part? [0, 1] =
      some (.field ⟨some "g", "gallery_id"⟩) := rfl
  exact ⟨hpart, hfields _ _ hpart, ((hrefused .generic).2 _).mpr rfl,
    (hwritten.2.2.2.2.2 .generic).1.mpr ⟨_, rfl⟩⟩

end Condition

end RecordMapper
