import RecordMapper.Proofs.Condition.Normal
import RecordMapper.Proofs.Statement.Layouts

/-!
# Nodes of conditions written in JSON

Every node of a condition in normal form accepts its operands, so none is refused for their number.
What is left to go wrong is a `BETWEEN` whose second operand is no literal pair: a condition has a text
if and only if it has no node of this kind.
-/

namespace RecordMapper

/-- An operator with its operands. -/
structure Condition.Node where
  op : Operator
  operands : List Condition

namespace Condition

mutual

/-- The nodes of a condition at every depth, outside of nested selections. -/
def nodes : Condition → List Node
  | .node op operands => ⟨op, operands⟩ :: nodesOfAll operands
  | _ => []

def nodesOfAll : List Condition → List Node
  | [] => []
  | operand :: rest => nodes operand ++ nodesOfAll rest

end

/-- The node needs two bounds, and its second operand is no literal array of two values. -/
def Node.LacksBounds (node : Node) : Prop :=
  (node.op = .between ∨ node.op = .notBetween) ∧
    ∀ left low high, node.operands ≠ [left, .value (.array [low, high])]

variable {c : Condition} {operands : List Condition} {op : Operator} {node : Node}

theorem mem_nodesOfAll : node ∈ nodesOfAll operands ↔ ∃ operand ∈ operands, node ∈ operand.nodes := by
  induction operands with
  | nil => simp [nodesOfAll]
  | cons operand rest ih => simp [nodesOfAll, ih]

theorem mem_nodes_node :
    node ∈ (Condition.node op operands).nodes ↔
      node = ⟨op, operands⟩ ∨ ∃ operand ∈ operands, node ∈ operand.nodes := by
  rw [nodes, List.mem_cons, mem_nodesOfAll]

theorem accepts_of_isNormal (h : c.IsNormal) :
    ∀ node ∈ c.nodes, node.op.arity.accepts node.operands.length = true := by
  induction h with
  | value v => nofun
  | field ref => nofun
  | raw sql => nofun
  | node haccepts _ ih =>
      intro node hnode
      rcases mem_nodes_node.mp hnode with rfl | ⟨operand, hoperand, hnode⟩
      · exact haccepts
      · exact ih operand hoperand node hnode

/-! ## Bounds -/

theorem takesBounds_iff : op.takesBounds = true ↔ op = .between ∨ op = .notBetween := by
  cases op with
  | _ => simp [Operator.takesBounds]

theorem lacksBounds_pair {left pair : Condition} (htakes : op.takesBounds = true)
    (hnone : pair.bounds? = none) : Node.LacksBounds ⟨op, [left, pair]⟩ := by
  refine ⟨takesBounds_iff.mp htakes, fun left' low high heq => ?_⟩
  obtain ⟨-, hpair, -⟩ : left = left' ∧ pair = .value (.array [low, high]) ∧ True := by
    simpa using heq
  rw [bounds?_eq_some.mpr hpair] at hnone
  cases hnone

theorem layout_ne_ok_of_lacksBounds {d : Dialect} {text : String}
    (h : Node.LacksBounds ⟨op, operands⟩) : op.layout d (operandBodies d operands) ≠ .ok text := by
  obtain ⟨hop, hpair⟩ : (op = .between ∨ op = .notBetween) ∧ _ := h
  intro htext
  have harity : op.arity = .exact 2 := by rcases hop with rfl | rfl <;> rfl
  have haccepts := Operator.accepts_of_layout htext
  rw [operandBodies_eq_map, List.length_map] at haccepts
  obtain ⟨left, pair, rfl⟩ := Operator.exists_two harity haccepts
  have hnone : pair.bounds? = none := by
    rw [Option.eq_none_iff_forall_ne_some]
    rintro ⟨low, high⟩ hbounds
    exact hpair left low high (by rw [bounds?_eq_some.mp hbounds])
  rcases hop with rfl | rfl
  all_goals
    simp only [operandBodies, Operator.layout, Operator.betweenText, hnone] at htext
    cases htext

/-! ## Texts -/

/-- A condition in normal form fails only for a node that lacks its bounds. -/
theorem failsAs_body (d : Dialect) (h : c.IsNormal) :
    FailsAs (fun error => ∃ node ∈ c.nodes, node.LacksBounds ∧ error = .boundsNotPair node.op)
      (c.body d) := by
  induction h with
  | value v => exact FailsAs.ok _
  | field ref => exact FailsAs.ok _
  | raw sql => exact FailsAs.ok _
  | @node op operands haccepts _ ih =>
      rw [body, operandBodies_eq_map]
      refine Operator.failsAs_layout d (by rwa [List.length_map]) ?_ ?_
      · intro o ho
        obtain ⟨operand, hoperand, rfl⟩ := List.mem_map.mp ho
        refine (ih operand hoperand).mono ?_
        rintro error ⟨node, hnode, hlacks⟩
        exact ⟨node, mem_nodes_node.mpr (.inr ⟨operand, hoperand, hnode⟩), hlacks⟩
      · intro left pair hoperands htakes hnone
        obtain ⟨leftTree, _, hsplit, rfl, hrest⟩ := List.map_eq_cons_iff.mp hoperands
        obtain ⟨pairTree, _, rfl, rfl, hnil⟩ := List.map_eq_cons_iff.mp hrest
        obtain rfl := List.map_eq_nil_iff.mp hnil
        subst hsplit
        exact ⟨⟨op, [leftTree, pairTree]⟩, mem_nodes_node.mpr (.inl rfl),
          lacksBounds_pair htakes hnone, rfl⟩

theorem not_lacksBounds_of_body {d : Dialect} (h : c.IsNormal) :
    ∀ {text}, c.body d = .ok text → ∀ node ∈ c.nodes, ¬ node.LacksBounds := by
  induction h with
  | value v => nofun
  | field ref => nofun
  | raw sql => nofun
  | @node op operands _ _ ih =>
      intro text htext node hnode
      rw [body] at htext
      rcases mem_nodes_node.mp hnode with rfl | ⟨operand, hoperand, hnode⟩
      · exact fun hlacks => layout_ne_ok_of_lacksBounds hlacks htext
      · -- Values and fields may be written without their own text, but they have no nodes.
        rw [operandBodies_eq_map] at htext
        rcases Operator.isRead_of_layout htext _ (List.mem_map_of_mem hoperand) with
          ⟨body, hbody⟩ | ⟨v, rfl⟩ | ⟨ref, rfl⟩
        · exact ih operand hoperand hbody node hnode
        · cases hnode
        · cases hnode

theorem exists_render_iff_body {d : Dialect} :
    (∃ sql, c.render d = .ok sql) ↔ ∃ text, c.body d = .ok text := by
  constructor
  · rintro ⟨sql, hsql⟩
    obtain ⟨text, htext, -⟩ := attempt_bind_eq_ok.mp hsql
    exact ⟨text, htext⟩
  · rintro ⟨text, htext⟩
    exact ⟨_, attempt_bind_eq_ok.mpr ⟨text, htext, rfl⟩⟩

theorem exists_body_of_not_lacksBounds {d : Dialect} (h : c.IsNormal)
    (hnodes : ∀ node ∈ c.nodes, ¬ node.LacksBounds) : ∃ text, c.body d = .ok text := by
  cases hbody : c.body d with
  | ok text => exact ⟨text, rfl⟩
  | error error =>
      obtain ⟨node, hnode, hlacks, -⟩ := failsAs_body d h error hbody
      exact absurd hlacks (hnodes node hnode)

/-- What a node of its own adds to the failures of any operands, as many as it has. -/
theorem failsAs_node (d : Dialect)
    (haccepts : node.op.arity.accepts node.operands.length = true) {others : List Operand}
    (hlength : others.length = node.operands.length) :
    FailsAs (fun error => (∃ o ∈ others, o.body = .error error) ∨
        ((node.op = .between ∨ node.op = .notBetween) ∧ error = .boundsNotPair node.op))
      (node.op.layout d others) := by
  refine Operator.failsAs_layout d (by rwa [hlength]) ?_ ?_
  · exact fun o ho error herror => .inl ⟨o, ho, herror⟩
  · exact fun _ _ _ htakes _ => .inr ⟨takesBounds_iff.mp htakes, rfl⟩

/--
Every node of a condition in JSON accepts its operands.  The condition has a text in each dialect unless a
node lacks its bounds, which is also the only error; and no node refuses its operands for another cause.
-/
theorem renders_iff_bounded {json : Json} {c : Condition} (hjson : ofJson json = .ok c)
    (d : Dialect) :
    (∀ node ∈ c.nodes, node.op.arity.accepts node.operands.length = true) ∧
      ((∃ sql, c.render d = .ok sql) ↔ ∀ node ∈ c.nodes, ¬ node.LacksBounds) ∧
      FailsAs (fun error => ∃ node ∈ c.nodes, node.LacksBounds ∧ error = .boundsNotPair node.op)
        (c.render d) ∧
      ∀ node ∈ c.nodes, ∀ operands : List Operand, operands.length = node.operands.length →
        FailsAs (fun error => (∃ o ∈ operands, o.body = .error error) ∨
            ((node.op = .between ∨ node.op = .notBetween) ∧ error = .boundsNotPair node.op))
          (node.op.layout d operands) := by
  have hnormal := isNormal_of_ofJson json c hjson
  have haccepts := accepts_of_isNormal hnormal
  refine ⟨haccepts, ?_, Operand.failsAs_standalone (failsAs_body d hnormal), ?_⟩
  · rw [exists_render_iff_body]
    constructor
    · rintro ⟨text, htext⟩
      exact not_lacksBounds_of_body hnormal htext
    · exact exists_body_of_not_lacksBounds hnormal
  · exact fun node hnode operands hlength => failsAs_node d (haccepts node hnode) hlength

/-- A range that is negated, beside a comparison. -/
def outsideRange : Json :=
  .object [(":not", .object [("a", .object [(":between", .array [.integer 1, .integer 2])])]),
    ("b", .integer 3)]

/-- All the nodes accept their operands, and a text is written in each dialect. -/
theorem renders_outsideRange : ∃ c, ofJson outsideRange = .ok c ∧
    (∀ node ∈ c.nodes, node.op.arity.accepts node.operands.length = true) ∧
    ∀ d, ∃ sql, c.render d = .ok sql := by
  have hjson : ofJson outsideRange = .ok (and [not (between (ofPath "a") (.integer 1) (.integer 2)),
      eq (ofPath "b") (.value (.integer 3))]) := by with_unfolding_all rfl
  refine ⟨_, hjson, (renders_iff_bounded hjson .generic).1, fun d => ?_⟩
  refine (renders_iff_bounded hjson d).2.1.mpr ?_
  simp [and, not, between, eq, ofPath, nodes, nodesOfAll, Node.LacksBounds]

end Condition

end RecordMapper
