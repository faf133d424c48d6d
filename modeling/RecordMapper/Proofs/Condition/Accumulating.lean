import RecordMapper.Session.Query
import RecordMapper.Statement.Delete
import RecordMapper.Statement.Update

/-!
# Conditions that are added one after the other

Builders add a condition to those before it with `both`.  It is associative, so that it does not
matter how many calls bring the conditions: `both_accumulates`.
-/

namespace RecordMapper

namespace Condition

variable {first second : Condition}

/-! ## What is joined -/

theorem both_of_isEmpty (h : first.isEmpty = true) (second : Condition) :
    first.both second = second := by
  rw [both, if_pos h]

theorem both_of_isEmpty_right (hfirst : first.isEmpty = false) (hsecond : second.isEmpty = true) :
    first.both second = first := by
  rw [both, if_neg (by simp [hfirst]), if_pos hsecond]

theorem both_of_content (hfirst : first.isEmpty = false) (hsecond : second.isEmpty = false) :
    first.both second = .node .and (first.conjuncts ++ second.conjuncts) := by
  rw [both, if_neg (by simp [hfirst]), if_neg (by simp [hsecond])]

theorem allEmpty_append (operands others : List Condition) :
    allEmpty (operands ++ others) = (allEmpty operands && allEmpty others) := by
  induction operands with
  | nil => rfl
  | cons operand rest ih => rw [List.cons_append, allEmpty, allEmpty, ih, Bool.and_assoc]

theorem allEmpty_conjuncts (condition : Condition) :
    allEmpty condition.conjuncts = condition.isEmpty := by
  unfold conjuncts
  split
  · rfl
  · rw [allEmpty, allEmpty, Bool.and_true]

theorem isEmpty_both (first second : Condition) :
    (first.both second).isEmpty = (first.isEmpty && second.isEmpty) := by
  cases hfirst : first.isEmpty with
  | true => rw [both_of_isEmpty hfirst, Bool.true_and]
  | false =>
      cases hsecond : second.isEmpty with
      | true => rw [both_of_isEmpty_right hfirst hsecond, hfirst, Bool.false_and]
      | false =>
          rw [both_of_content hfirst hsecond, isEmpty, allEmpty_append, allEmpty_conjuncts,
            hfirst, Bool.false_and, Bool.and_false, Bool.false_and]

theorem both_assoc (first second third : Condition) :
    (first.both second).both third = first.both (second.both third) := by
  cases hfirst : first.isEmpty with
  | true => rw [both_of_isEmpty hfirst, both_of_isEmpty hfirst]
  | false =>
      cases hsecond : second.isEmpty with
      | true => rw [both_of_isEmpty_right hfirst hsecond, both_of_isEmpty hsecond]
      | false =>
          have hleft : (first.both second).isEmpty = false := by
            rw [isEmpty_both, hfirst, Bool.false_and]
          have hright : (second.both third).isEmpty = false := by
            rw [isEmpty_both, hsecond, Bool.false_and]
          cases hthird : third.isEmpty with
          | true => rw [both_of_isEmpty_right hleft hthird, both_of_isEmpty_right hsecond hthird]
          | false =>
              -- A conjunction is its own list of conjuncts, so that nothing is nested.
              rw [both_of_content hleft hthird, both_of_content hfirst hright,
                both_of_content hfirst hsecond, both_of_content hsecond hthird]
              simp only [conjuncts, List.append_assoc]

/-! ## Calls that bring several conditions -/

def gathered (first : Condition) (rest : List Condition) : Condition :=
  rest.foldl both first

/-- A builder does not tell one call with several conditions from a call for each of them. -/
def Accumulates {σ : Type} (add : σ → Condition → σ) : Prop :=
  ∀ (calls : List (Condition × List Condition)) (s : σ),
    calls.foldl (fun s call => add s (gathered call.1 call.2)) s =
      (calls.flatMap fun call => call.1 :: call.2).foldl add s

section Accumulates

variable {σ : Type} {add : σ → Condition → σ}

theorem add_gathered (h : ∀ s a b, add (add s a) b = add s (a.both b)) (s : σ) (first : Condition)
    (rest : List Condition) : add s (gathered first rest) = (first :: rest).foldl add s := by
  induction rest generalizing first with
  | nil => rfl
  | cons second rest ih =>
      have hgathered : gathered first (second :: rest) = gathered (first.both second) rest := rfl
      rw [hgathered, ih, List.foldl_cons, List.foldl_cons, List.foldl_cons, h]

theorem accumulates_of_add (h : ∀ s a b, add (add s a) b = add s (a.both b)) :
    Accumulates add := by
  intro calls
  induction calls with
  | nil => exact fun _ => rfl
  | cons call rest ih =>
      intro s
      rw [List.foldl_cons, ih, List.flatMap_cons, List.foldl_append, add_gathered h]

theorem accumulates_of_clause (get : σ → Condition) (put : σ → Condition → σ)
    (hadd : ∀ s c, add s c = put s ((get s).both c)) (hget : ∀ s c, get (put s c) = c)
    (hput : ∀ s c c', put (put s c) c' = put s c') : Accumulates add := by
  refine accumulates_of_add fun s a b => ?_
  rw [hadd, hadd, hadd, hget, hput, both_assoc]

end Accumulates

/-! ## Calls without content -/

def SaysSame (condition other : Condition) : Prop :=
  condition = other ∨ condition.isEmpty = true ∧ other.isEmpty = true

theorem SaysSame.trans {condition other third : Condition} (h : condition.SaysSame other)
    (h' : other.SaysSame third) : condition.SaysSame third := by
  rcases h with rfl | ⟨hcondition, hother⟩
  · exact h'
  · rcases h' with rfl | ⟨-, hthird⟩
    · exact .inr ⟨hcondition, hother⟩
    · exact .inr ⟨hcondition, hthird⟩

theorem saysSame_both {condition other : Condition} (h : condition.SaysSame other)
    (next : Condition) : (condition.both next).SaysSame (other.both next) := by
  rcases h with rfl | ⟨hcondition, hother⟩
  · exact .inl rfl
  · exact .inl (by rw [both_of_isEmpty hcondition, both_of_isEmpty hother])

theorem saysSame_foldl {condition other : Condition} (h : condition.SaysSame other)
    (conditions : List Condition) :
    (conditions.foldl both condition).SaysSame (conditions.foldl both other) := by
  induction conditions generalizing condition other with
  | nil => exact h
  | cons next rest ih => exact ih (saysSame_both h next)

theorem both_foldl (condition : Condition) (conditions : List Condition) :
    (condition.both (conditions.foldl both always)).SaysSame (conditions.foldl both condition) := by
  cases conditions with
  | nil =>
      cases hcondition : condition.isEmpty with
      | true => exact .inr ⟨by rw [both_of_isEmpty hcondition]; rfl, hcondition⟩
      | false => exact .inl (both_of_isEmpty_right hcondition rfl)
  | cons first rest =>
      have hstart : always.both first = first := both_of_isEmpty rfl first
      rw [List.foldl_cons, hstart]
      exact .inl (add_gathered both_assoc condition first rest)

theorem saysSame_of_calls (start : Condition) (calls : List (List Condition)) :
    (calls.foldl (fun c call => c.both (call.foldl both always)) start).SaysSame
      (calls.flatten.foldl both start) := by
  induction calls generalizing start with
  | nil => exact .inl rfl
  | cons call rest ih =>
      rw [List.foldl_cons, List.flatten_cons, List.foldl_append]
      exact (ih _).trans (saysSame_foldl (both_foldl start call) rest.flatten)

theorem renderClause_of_saysSame {condition other : Condition} (h : condition.SaysSame other)
    (d : Dialect) (keyword : Keyword) :
    renderClause d keyword condition = renderClause d keyword other := by
  rcases h with rfl | ⟨hcondition, hother⟩
  · rfl
  · rw [renderClause, renderClause, clauseText, clauseText, if_pos hcondition, if_pos hother]

/-! ## Builders -/

/-- Conditions are joined in any grouping: the result is flat, it is empty only if all of them are,
and it holds the conjuncts of all that are not, in their order.  Every builder ends the same, however
the conditions are spread over its calls, and its clause has the same text, also with calls that bring
no condition. -/
theorem both_accumulates (first second third : Condition) :
    (first.both second).both third = first.both (second.both third) ∧
    ((first.both second).isEmpty = true ↔ first.isEmpty = true ∧ second.isEmpty = true) ∧
    (first.isEmpty = false → second.isEmpty = false →
      first.both second = .node .and (first.conjuncts ++ second.conjuncts)) ∧
    (Accumulates Select.addFilter ∧ Accumulates Select.addHaving ∧ Accumulates Query.addFilter ∧
      Accumulates Query.addHaving ∧ Accumulates Update.addFilter ∧ Accumulates Delete.addFilter ∧
      Accumulates TieOptions.addConstraint) ∧
    ∀ (d : Dialect) (keyword : Keyword) (start : Condition) (calls : List (List Condition)),
      renderClause d keyword (calls.foldl (fun c call => c.both (call.foldl both always)) start) =
        renderClause d keyword (calls.flatten.foldl both start) := by
  refine ⟨both_assoc first second third, ?_, both_of_content, ⟨?_, ?_, ?_, ?_, ?_, ?_, ?_⟩, ?_⟩
  · rw [isEmpty_both, Bool.and_eq_true]
  · exact accumulates_of_clause Select.filter (fun s filter => { s with filter })
      (fun _ _ => rfl) (fun _ _ => rfl) (fun _ _ _ => rfl)
  · exact accumulates_of_clause Select.having (fun s having => { s with having })
      (fun _ _ => rfl) (fun _ _ => rfl) (fun _ _ _ => rfl)
  · exact accumulates_of_clause (fun q => q.select.filter)
      (fun q filter => q.mapSelect fun s => { s with filter })
      (fun _ _ => rfl) (fun _ _ => rfl) (fun _ _ _ => rfl)
  · exact accumulates_of_clause (fun q => q.select.having)
      (fun q having => q.mapSelect fun s => { s with having })
      (fun _ _ => rfl) (fun _ _ => rfl) (fun _ _ _ => rfl)
  · exact accumulates_of_clause Update.filter (fun s filter => { s with filter })
      (fun _ _ => rfl) (fun _ _ => rfl) (fun _ _ _ => rfl)
  · exact accumulates_of_clause Delete.filter (fun s filter => { s with filter })
      (fun _ _ => rfl) (fun _ _ => rfl) (fun _ _ _ => rfl)
  · exact accumulates_of_clause TieOptions.constraints
      (fun options constraints => { options with constraints })
      (fun _ _ => rfl) (fun _ _ => rfl) (fun _ _ _ => rfl)
  · exact fun d keyword start calls =>
      renderClause_of_saysSame (saysSame_of_calls start calls) d keyword

/-- A conjunction keeps an operand that is empty, and a disjunction becomes one operand. -/
theorem both_accumulates_nested :
    (and [isNull (ofPath "a"), or []]).isEmpty = false ∧
    (or [isNull (ofPath "b"), isNull (ofPath "c")]).isEmpty = false ∧
    (and [isNull (ofPath "a"), or []]).both (or [isNull (ofPath "b"), isNull (ofPath "c")]) =
      and [isNull (ofPath "a"), or [], or [isNull (ofPath "b"), isNull (ofPath "c")]] := by
  have hfirst : (and [isNull (ofPath "a"), or []]).isEmpty = false := rfl
  have hsecond : (or [isNull (ofPath "b"), isNull (ofPath "c")]).isEmpty = false := rfl
  exact ⟨hfirst, hsecond, (both_accumulates _ _ always).2.2.1 hfirst hsecond⟩

end Condition

end RecordMapper
