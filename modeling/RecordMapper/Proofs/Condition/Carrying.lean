import RecordMapper.Proofs.Condition.Normal
import RecordMapper.Proofs.Uniform

/-!
# Whole numbers in conditions written in JSON

A document with a whole number in one place is read as one condition for each number: where the number
stood there is a value, and nothing else depends on it.  The number may be the value of a field, one of
a list, an operand or a literal, at any depth; the content of `:plain` is no value.
-/

namespace RecordMapper

/-- The value of a whole number, or an array with such a value in one place. -/
inductive Value.Carries : (Int → Value) → Prop
  | here : Carries Value.ofInt
  | item {v : Int → Value} (before after : List Value) (h : Carries v) :
      Carries fun n => .array (before ++ v n :: after)

/-- A document with a whole number in one place, outside of verbatim SQL. -/
inductive Json.Carries : (Int → Json) → Prop
  | here : Carries Json.integer
  | item {json : Int → Json} (before after : List Json) (h : Carries json) :
      Carries fun n => .array (before ++ json n :: after)
  | member {json : Int → Json} {name : String} (before after : List (String × Json))
      (hname : name ≠ ":plain") (h : Carries json) :
      Carries fun n => .object (before ++ (name, json n) :: after)

namespace Condition

/-- A condition with the value of a whole number in one place. -/
inductive Carries : (Int → Condition) → Prop
  | value {v : Int → Value} (h : Value.Carries v) : Carries fun n => .value (v n)
  | operand {c : Int → Condition} (op : Operator) (before after : List Condition)
      (h : Carries c) : Carries fun n => .node op (before ++ c n :: after)

theorem carries_joined {conditions : Int → List Condition} (h : InList Carries conditions) :
    Carries fun n => joined (conditions n) := by
  obtain ⟨before, c, after, hc, h⟩ := h
  simp only [h]
  rcases before with _ | ⟨first, before⟩
  · cases after with
    | nil => exact hc
    | cons next after => exact .operand .and [] (next :: after) hc
  · have hseveral : ∀ n, joined (first :: before ++ c n :: after) =
        .node .and (first :: before ++ c n :: after) := by
      intro n
      cases before with
      | _ => rfl
    simp only [hseveral]
    exact .operand .and _ after hc

theorem uniformly_checked (op : Operator) {operands : Int → List Condition}
    (h : InList Carries operands) : Uniformly Carries fun n => checked op (operands n) := by
  obtain ⟨before, c, after, hc, h⟩ := h
  -- Whether operands are accepted depends on how many they are only.
  simp only [h, checked, List.length_append, List.length_cons]
  split
  · exact .ok (.operand op before after hc)
  · exact .error _

/-! ## Items and members -/

theorem literalsOfJson_eq_mapM (items : List Json) :
    literalsOfJson items = items.mapM literalOfJson := by
  induction items with
  | nil => rfl
  | cons item rest ih => rw [literalsOfJson, List.mapM_cons, ih]

theorem operandsOfJson_eq_mapM (items : List Json) :
    operandsOfJson items = items.mapM operandOfJson := by
  induction items with
  | nil => rfl
  | cons item rest ih => rw [operandsOfJson, List.mapM_cons, ih]

theorem ofJsonAll_eq_mapM (items : List Json) : ofJsonAll items = items.mapM ofJson := by
  induction items with
  | nil => rfl
  | cons item rest ih => rw [ofJsonAll, List.mapM_cons, ih]

theorem membersOfJson_eq_mapM (members : List (String × Json)) :
    membersOfJson members = members.mapM fun member => memberOfJson member.1 member.2 := by
  induction members with
  | nil => rfl
  | cons member rest ih => rw [membersOfJson_cons, List.mapM_cons, ih]

def comparedOfJson (left : Condition) (name : String) (content : Json) : Attempt Condition := do
  let op ← operatorNamed name
  let right ← operandOfJson content
  checked op [left, right]

theorem comparisonsOfJson_eq_mapM (left : Condition) (members : List (String × Json)) :
    comparisonsOfJson left members =
      members.mapM fun member => comparedOfJson left member.1 member.2 := by
  induction members with
  | nil => rfl
  | cons member rest ih =>
      rw [comparisonsOfJson, List.mapM_cons, ih]
      simp only [comparedOfJson, bind_assoc]

/-! ## Documents -/

/-- All that is read from a document depends on its number in one place only. -/
structure KeepsPlace (json : Int → Json) : Prop where
  literal : Uniformly Value.Carries fun n => literalOfJson (json n)
  operand : Uniformly Carries fun n => operandOfJson (json n)
  content : Uniformly (InList Carries) fun n => contentOfJson (json n)
  comparison : ∀ left, Uniformly Carries fun n => comparisonOfJson left (json n)
  name : Uniformly Carries fun n => fieldLeaf (json n)
  condition : Uniformly Carries fun n => ofJson (json n)

variable {json : Int → Json}

theorem inList_singleton {c : Int → Condition} (h : Carries c) : InList Carries fun n => [c n] :=
  ⟨[], c, [], h, fun _ => rfl⟩

theorem carries_eq (left : Condition) {right : Int → Condition} (h : Carries right) :
    Carries fun n => eq left (right n) :=
  .operand .eq [left] [] h

theorem keepsPlace_integer : KeepsPlace Json.integer where
  literal := .ok .here
  operand := .ok (.value .here)
  content := .ok (inList_singleton (.value .here))
  comparison left := .ok (carries_eq left (.value .here))
  name := .error _
  condition := .error _

theorem keepsPlace_array (before after : List Json) (h : KeepsPlace json) :
    KeepsPlace fun n => .array (before ++ json n :: after) := by
  have hliterals : Uniformly (InList Value.Carries)
      fun n => literalsOfJson (before ++ json n :: after) := by
    simp only [literalsOfJson_eq_mapM]
    exact .mapM before json after h.literal
  have hliteral : Uniformly Value.Carries
      fun n => literalOfJson (.array (before ++ json n :: after)) := by
    simp only [literalOfJson]
    refine hliterals.bind fun values hvalues => .ok ?_
    obtain ⟨firsts, v, rest, hv, hvalues⟩ := hvalues
    simp only [hvalues]
    exact .item firsts rest hv
  refine ⟨hliteral, ?_, ?_, ?_, .error _, ?_⟩
  · exact hliteral.bind fun v hv => .ok (.value hv)
  · simp only [contentOfJson, operandsOfJson_eq_mapM]
    exact .mapM before json after h.operand
  · intro left
    simp only [comparisonOfJson]
    refine hliterals.bind fun values hvalues => .ok ?_
    obtain ⟨firsts, v, rest, hv, hvalues⟩ := hvalues
    simp only [hvalues]
    exact .operand .in [left] [] (.value (.item firsts rest hv))
  · simp only [ofJson, ofJsonAll_eq_mapM]
    exact (Uniformly.mapM before json after h.condition).bind fun conditions hconditions =>
      .ok (carries_joined hconditions)

theorem uniformly_comparedOfJson (left : Condition) (name : String) (h : KeepsPlace json) :
    Uniformly Carries fun n => comparedOfJson left name (json n) :=
  .bind_const _ fun op => h.operand.bind fun right hright =>
    uniformly_checked op ⟨[left], right, [], hright, fun _ => rfl⟩

/-- The number stays in one place of what a member stands for, unless that is verbatim SQL. -/
theorem uniformly_memberOfJson {name : String} (hname : name ≠ ":plain") (h : KeepsPlace json) :
    Uniformly Carries fun n => memberOfJson name (json n) := by
  simp only [memberOfJson]
  split_ifs
  · exact h.name
  · exact h.literal.map fun v hv => .value hv
  · refine .bind_const _ fun op => h.content.bind fun operands hoperands => ?_
    exact uniformly_checked op hoperands
  · exact h.comparison (ofPath name)

theorem keepsPlace_object {name : String} (before after : List (String × Json)) (hname : name ≠ ":plain")
    (h : KeepsPlace json) : KeepsPlace fun n => .object (before ++ (name, json n) :: after) := by
  have hmembers : Uniformly (InList Carries)
      fun n => membersOfJson (before ++ (name, json n) :: after) := by
    simp only [membersOfJson_eq_mapM]
    exact .mapM before (fun n => (name, json n)) after (uniformly_memberOfJson hname h)
  have hjoined : Uniformly Carries fun n =>
      joined <$> membersOfJson (before ++ (name, json n) :: after) :=
    hmembers.map fun conditions hconditions => carries_joined hconditions
  refine ⟨.error _, ?_, ?_, ?_, .error _, ?_⟩
  · simp only [operandOfJson]
    exact hjoined
  · simp only [contentOfJson]
    exact hmembers.map fun conditions hconditions => inList_singleton (carries_joined hconditions)
  · intro left
    simp only [comparisonOfJson, List.all_append, List.all_cons]
    split
    · have hcomparisons : Uniformly (InList Carries)
          fun n => comparisonsOfJson left (before ++ (name, json n) :: after) := by
        simp only [comparisonsOfJson_eq_mapM]
        exact .mapM before (fun n => (name, json n)) after (uniformly_comparedOfJson left name h)
      exact hcomparisons.bind fun comparisons hcomparisons => .ok (carries_joined hcomparisons)
    · exact hmembers.bind fun conditions hconditions =>
        .ok (carries_eq left (carries_joined hconditions))
  · simp only [ofJson]
    exact hjoined

theorem keepsPlace_of_carries (h : Json.Carries json) : KeepsPlace json := by
  induction h with
  | here => exact keepsPlace_integer
  | item before after _ ih => exact keepsPlace_array before after ih
  | member before after hname _ ih => exact keepsPlace_object before after hname ih

end Condition

end RecordMapper
