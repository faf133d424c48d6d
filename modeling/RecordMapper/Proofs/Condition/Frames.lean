import RecordMapper.Proofs.Condition.Carrying
import RecordMapper.Proofs.Dialect.Lexemes
import RecordMapper.Proofs.Statement.Layouts

/-!
# Literals of whole numbers in texts

A condition with a whole number in one place has the literal of that number in one place of its text.
The text around it is the same for all numbers, and so is whether there is a text at all.
-/

namespace RecordMapper

variable {d : Dialect}

def Dialect.wholeLiteral (d : Dialect) (n : Int) : String :=
  d.literal (Value.ofInt n)

/-! ## Values -/

namespace Value

theorem ofInt_cases (n : Int) : (∃ m, ofInt n = .integer m) ∨ ∃ x, ofInt n = .float x := by
  unfold ofInt
  split
  · exact .inl ⟨_, rfl⟩
  · exact .inr ⟨_, rfl⟩

theorem carries_cases {v : Int → Value} (h : Carries v) (n : Int) :
    (∃ m, v n = .integer m) ∨ (∃ x, v n = .float x) ∨ ∃ items, v n = .array items := by
  cases h with
  | here => exact (ofInt_cases n).imp_right .inl
  | item before after h => exact .inr (.inr ⟨_, rfl⟩)

end Value

namespace Dialect

theorem itemLiterals_append (d : Dialect) (firsts rest : List Value) :
    d.itemLiterals (firsts ++ rest) = d.itemLiterals firsts ++ d.itemLiterals rest := by
  induction firsts with
  | nil => simp [itemLiterals]
  | cons item firsts ih =>
      cases item with
      | _ => simp [itemLiterals, ih]

theorem itemLiterals_carries {v : Int → Value} (h : Value.Carries v) (n : Int)
    (rest : List Value) :
    d.itemLiterals (v n :: rest) = d.literal (v n) :: d.itemLiterals rest := by
  rcases Value.carries_cases h n with ⟨m, hv⟩ | ⟨x, hv⟩ | ⟨items, hv⟩
  all_goals
    rw [hv]
    rfl

theorem framed_literal {v : Int → Value} (h : Value.Carries v) :
    Framed d.wholeLiteral fun n => d.literal (v n) := by
  induction h with
  | here => exact .refl _
  | @item v before after hv ih =>
      simp only [literal, itemLiterals_append, itemLiterals_carries hv]
      refine (Framed.append_left ?_ "\x7b").append_right "\x7d"
      exact .intercalate ⟨d.itemLiterals before, _, d.itemLiterals after, ih, fun _ => rfl⟩ ","

theorem framed_list {v : Int → Value} (before after : List Value) (h : Value.Carries v) :
    Framed d.wholeLiteral fun n =>
      ", ".intercalate ((before ++ v n :: after).map d.literal) := by
  simp only [List.map_append, List.map_cons]
  exact .intercalate ⟨before.map d.literal, _, after.map d.literal, framed_literal h, fun _ => rfl⟩ _

end Dialect

/-! ## Operands -/

theorem Framed.parenthesize {parts texts : Int → String} (h : Framed parts texts) :
    Framed parts fun n => parenthesize (texts n) :=
  (h.append_left "(").append_right ")"

/-- An operand that has the literal of a whole number in one place, wherever it stands. -/
structure Operand.Shows (d : Dialect) (o : Int → Operand) : Prop where
  body : Uniformly (Framed d.wholeLiteral) fun n => (o n).body
  list : Uniformly (Framed d.wholeLiteral) fun n => (o n).asList d
  name : Uniformly (Framed d.wholeLiteral) fun n => (o n).asName d
  subquery : ∀ n, (o n).tree.isSubquery = false
  several : ∃ several, ∀ n, (o n).tree.joinsSeveral = several
  bounds : (∀ n, (o n).tree.bounds? = none) ∨ ∃ bounds : Int → Value × Value,
    (∀ n, (o n).tree.bounds? = some (bounds n)) ∧
      Framed d.wholeLiteral fun n =>
        d.literal (bounds n).1 ++ (" " ++ Keyword.and.text ++ " " ++ d.literal (bounds n).2)

namespace Operand.Shows

variable {o : Int → Operand}

theorem standalone (h : Shows d o) :
    Uniformly (Framed d.wholeLiteral) fun n => (o n).standalone := by
  simp only [Operand.standalone, h.subquery]
  exact h.body.bind fun texts htexts => .ok htexts

theorem asOperand (h : Shows d o) :
    Uniformly (Framed d.wholeLiteral) fun n => (o n).asOperand := by
  obtain ⟨several, hseveral⟩ := h.several
  simp only [Operand.asOperand, h.subquery, hseveral, Bool.false_or]
  refine h.body.bind fun texts htexts => ?_
  split
  · exact .ok htexts.parenthesize
  · exact .ok htexts

theorem operandTexts (h : Shows d o) (before after : List Operand) :
    Uniformly (InList (Framed d.wholeLiteral)) fun n => operandTexts (before ++ o n :: after) :=
  .mapM before o after h.asOperand

end Operand.Shows

/-! ## Nodes -/

namespace Operator

open Operand (Shows)

variable {op : Operator} {o : Int → Operand} {before after : List Operand}

theorem uniformly_pair (hop : op.arity = .exact 2)
    (hleft : ∀ right, Uniformly (Framed d.wholeLiteral) fun n => op.layout d [o n, right])
    (hright : ∀ left, Uniformly (Framed d.wholeLiteral) fun n => op.layout d [left, o n]) :
    Uniformly (Framed d.wholeLiteral) fun n => op.layout d (before ++ o n :: after) := by
  -- With more or fewer operands than two there is no text for any number.
  rcases before with _ | ⟨first, _ | ⟨second, before⟩⟩
  · rcases after with _ | ⟨last, _ | ⟨extra, after⟩⟩
    · exact .fails fun n => ⟨_, layout_of_not_accepts d (by rw [hop]; rfl)⟩
    · exact hleft last
    · exact .fails fun n => ⟨_, layout_of_not_accepts d (by simp [hop, Arity.accepts])⟩
  · rcases after with _ | ⟨extra, after⟩
    · exact hright first
    · exact .fails fun n => ⟨_, layout_of_not_accepts d (by simp [hop, Arity.accepts])⟩
  · refine .fails fun n => ⟨_, layout_of_not_accepts d ?_⟩
    simp only [hop, Arity.accepts, List.length_append, List.length_cons, beq_eq_false_iff_ne]
    omega

theorem uniformly_single (hop : op.arity = .exact 1)
    (h : Uniformly (Framed d.wholeLiteral) fun n => op.layout d [o n]) :
    Uniformly (Framed d.wholeLiteral) fun n => op.layout d (before ++ o n :: after) := by
  rcases before with _ | ⟨first, before⟩
  · rcases after with _ | ⟨extra, after⟩
    · exact h
    · exact .fails fun n => ⟨_, layout_of_not_accepts d (by simp [hop, Arity.accepts])⟩
  · refine .fails fun n => ⟨_, layout_of_not_accepts d ?_⟩
    simp only [hop, Arity.accepts, List.length_append, List.length_cons, beq_eq_false_iff_ne]
    omega

theorem uniformly_infix {keyword : Keyword} (hop : op.infixKeyword? = some keyword)
    (harity : op.arity = .exact 2) (h : Shows d o) :
    Uniformly (Framed d.wholeLiteral) fun n => op.layout d (before ++ o n :: after) := by
  refine uniformly_pair harity (fun right => ?_) (fun left => ?_)
  all_goals simp only [layout_of_keyword d hop]
  · refine h.asOperand.bind fun texts htexts => .bind_const _ fun rightText => .ok ?_
    exact ((htexts.append_right _).append_right _).append_right _ |>.append_right _
  · exact .bind_const _ fun leftText => h.asOperand.bind fun texts htexts =>
      .ok (htexts.append_left _)

theorem uniformly_memberText (keyword : Keyword) (h : Shows d o) :
    (∀ right, Uniformly (Framed d.wholeLiteral) fun n => memberText d keyword (o n) right) ∧
      ∀ left, Uniformly (Framed d.wholeLiteral) fun n => memberText d keyword left (o n) := by
  refine ⟨fun right => ?_, fun left => ?_⟩
  · refine h.asOperand.bind fun texts htexts => .bind_const _ fun rightText => .ok ?_
    exact ((htexts.append_right _).append_right _).append_right _ |>.append_right _
  · exact .bind_const _ fun leftText => h.list.bind fun texts htexts =>
      .ok (htexts.parenthesize.append_left _)

theorem uniformly_betweenText (op : Operator) (keyword : Keyword) (h : Shows d o) :
    (∀ right, Uniformly (Framed d.wholeLiteral) fun n => betweenText d op keyword (o n) right) ∧
      ∀ left, Uniformly (Framed d.wholeLiteral) fun n => betweenText d op keyword left (o n) := by
  refine ⟨fun right => ?_, fun left => ?_⟩
  · simp only [betweenText]
    split
    · refine h.asOperand.bind fun texts htexts => .ok ?_
      simp only [String.append_assoc]
      exact htexts.append_right _
    · exact .error _
  · rcases h.bounds with hnone | ⟨bounds, hbounds, hframed⟩
    · simp only [betweenText, hnone]
      exact .error _
    · simp only [betweenText, hbounds]
      refine .bind_const _ fun leftText => .ok ?_
      have hright := hframed.append_left (leftText ++ " " ++ keyword.text ++ " ")
      simpa only [String.append_assoc] using hright

theorem uniformly_any (h : Shows d o) :
    Uniformly (Framed d.wholeLiteral) fun n => any.layout d (before ++ o n :: after) := by
  rcases before with _ | ⟨first, _ | ⟨second, before⟩⟩
  · rcases after with _ | ⟨last, _ | ⟨extra, after⟩⟩
    · exact h.body.bind fun texts htexts => .ok (htexts.parenthesize.append_left _)
    · refine h.asOperand.bind fun texts htexts => .bind_const _ fun lastText => .ok ?_
      exact ((htexts.append_right _).append_right _).append_right _ |>.append_right _
    · exact .error _
  · rcases after with _ | ⟨extra, after⟩
    · exact .bind_const _ fun leftText => h.body.bind fun texts htexts =>
        .ok (htexts.parenthesize.append_left _)
    · exact .error _
  · cases before with
    | _ => exact .error _

theorem uniformly_joinTexts (keyword : Keyword) (h : Shows d o) :
    Uniformly (Framed d.wholeLiteral) fun n => do
      return joinTexts keyword (← operandTexts (before ++ o n :: after)) := by
  refine (h.operandTexts before after).bind fun lists hlists => .ok ?_
  -- Empty texts are left out, but a text with a literal in it is not empty.
  refine Framed.intercalate (hlists.filter fun texts htexts n => ?_) _
  simpa using htexts.ne_empty (d.literal_ne_empty (Value.ofInt n))

theorem uniformly_layout (op : Operator) (h : Shows d o) :
    Uniformly (Framed d.wholeLiteral) fun n => op.layout d (before ++ o n :: after) := by
  cases op with
  | and => exact uniformly_joinTexts .and h
  | or => exact uniformly_joinTexts .or h
  | not =>
      refine uniformly_single rfl ?_
      exact h.standalone.bind fun texts htexts => .ok (htexts.parenthesize.append_left _)
  | between =>
      have hsides := uniformly_betweenText .between .between h
      exact uniformly_pair rfl hsides.1 hsides.2
  | notBetween =>
      have hsides := uniformly_betweenText .notBetween .notBetween h
      exact uniformly_pair rfl hsides.1 hsides.2
  | «in» => exact uniformly_pair rfl (uniformly_memberText .in h).1 (uniformly_memberText .in h).2
  | notIn =>
      exact uniformly_pair rfl (uniformly_memberText .notIn h).1 (uniformly_memberText .notIn h).2
  | any => exact uniformly_any h
  | «exists» | notExists =>
      refine uniformly_single rfl ?_
      exact h.body.bind fun texts htexts => .ok (htexts.parenthesize.append_left _)
  | distinct =>
      have htexts : Uniformly (Framed d.wholeLiteral) fun n => do
          return Keyword.distinct.text ++ " " ++
            ", ".intercalate (← operandTexts (before ++ o n :: after)) :=
        (h.operandTexts before after).bind fun lists hlists =>
          .ok ((Framed.intercalate hlists _).append_left _)
      cases before with
      | _ => exact htexts
  | as =>
      refine uniformly_pair rfl (fun name => ?_) (fun expr => ?_)
      · refine .bind_const _ fun nameText => h.asOperand.bind fun texts htexts => .ok ?_
        exact ((htexts.append_right _).append_right _).append_right _ |>.append_right _
      · exact h.name.bind fun texts htexts => .bind_const _ fun exprText =>
          .ok (htexts.append_left _)
  | function name =>
      have hne : ∀ n, (before ++ o n :: after).isEmpty = false := by simp
      simp only [layout, hne, Bool.false_and]
      exact (h.operandTexts before after).bind fun lists hlists =>
        .ok ((Framed.intercalate hlists _).parenthesize.append_left _)
  | _ => exact uniformly_infix rfl rfl h

end Operator

/-! ## Conditions -/

namespace Condition

variable {c : Int → Condition}

theorem isEmpty_of_carries (h : Carries c) (n : Int) : (c n).isEmpty = false := by
  induction h with
  | value h => rfl
  | operand op before after _ ih =>
      rw [isEmpty, Bool.and_eq_false_iff]
      exact .inr (allEmpty_eq_false (List.mem_append_right _ List.mem_cons_self) ih)

theorem asName_of_carries {v : Int → Value} (h : Value.Carries v) (n : Int) :
    Operand.asName d ⟨.value (v n), .ok (d.literal (v n))⟩ = .ok (d.literal (v n)) := by
  rcases Value.carries_cases h n with ⟨m, hv⟩ | ⟨x, hv⟩ | ⟨items, hv⟩
  all_goals
    rw [hv]
    rfl

theorem asList_of_carries {v : Int → Value} (h : Value.Carries v) :
    Uniformly (Framed d.wholeLiteral) fun n =>
      Operand.asList d ⟨.value (v n), .ok (d.literal (v n))⟩ := by
  cases h with
  | here =>
      have hlist : ∀ n, Operand.asList d ⟨.value (Value.ofInt n), .ok (d.literal (Value.ofInt n))⟩ =
          .ok (d.literal (Value.ofInt n)) := by
        intro n
        rcases Value.ofInt_cases n with ⟨m, hv⟩ | ⟨x, hv⟩
        all_goals
          rw [hv]
          rfl
      simp only [hlist]
      exact .ok (Dialect.framed_literal .here)
  | @item v before after h =>
      have hlist : ∀ n, Operand.asList d ⟨.value (.array (before ++ v n :: after)),
          .ok (d.literal (.array (before ++ v n :: after)))⟩ =
            .ok (", ".intercalate ((before ++ v n :: after).map d.literal)) := by
        intro n
        cases before with
        | _ => rfl
      simp only [hlist]
      exact .ok (Dialect.framed_list before after h)

theorem bounds_of_carries {v : Int → Value} (h : Value.Carries v) :
    (∀ n, (Condition.value (v n)).bounds? = none) ∨ ∃ bounds : Int → Value × Value,
      (∀ n, (Condition.value (v n)).bounds? = some (bounds n)) ∧
        Framed d.wholeLiteral fun n =>
          d.literal (bounds n).1 ++ (" " ++ Keyword.and.text ++ " " ++ d.literal (bounds n).2) := by
  cases h with
  | here =>
      refine .inl fun n => ?_
      rcases Value.ofInt_cases n with ⟨m, hv⟩ | ⟨x, hv⟩
      all_goals
        rw [hv]
        rfl
  | @item v before after h =>
      have hframed := Dialect.framed_literal (d := d) h
      -- Only a list of two items is a pair of bounds, and the number is in the first or the second.
      rcases before with _ | ⟨first, _ | ⟨second, _ | ⟨third, before⟩⟩⟩
      · rcases after with _ | ⟨last, _ | ⟨extra, after⟩⟩
        · exact .inl fun n => rfl
        · exact .inr ⟨fun n => (v n, last), fun n => rfl,
            hframed.append_right (" " ++ Keyword.and.text ++ " " ++ d.literal last)⟩
        · exact .inl fun n => rfl
      · cases after with
        | nil =>
            have hlast := hframed.append_left (" " ++ Keyword.and.text ++ " ")
            exact .inr ⟨fun n => (first, v n), fun n => rfl, hlast.append_left (d.literal first)⟩
        | cons extra after => exact .inl fun n => rfl
      · exact .inl fun n => rfl
      · exact .inl fun n => rfl

theorem shows_value {v : Int → Value} (h : Value.Carries v) :
    Operand.Shows d fun n => ⟨.value (v n), .ok (d.literal (v n))⟩ where
  body := .ok (Dialect.framed_literal h)
  list := asList_of_carries h
  name := by
    simp only [asName_of_carries h]
    exact .ok (Dialect.framed_literal h)
  subquery _ := rfl
  several := ⟨false, fun _ => rfl⟩
  bounds := bounds_of_carries h

/-- A condition with a whole number in one place shows its literal. -/
theorem shows_body (d : Dialect) (h : Carries c) :
    Operand.Shows d fun n => ⟨c n, (c n).body d⟩ := by
  induction h with
  | value h => exact shows_value h
  | @operand c op before after hc ih =>
      have hbody : Uniformly (Framed d.wholeLiteral)
          fun n => (node op (before ++ c n :: after)).body d := by
        simp only [body, operandBodies_eq_map, List.map_append, List.map_cons]
        exact op.uniformly_layout ih
      refine ⟨hbody, hbody, ?_, fun _ => rfl, ?_, .inl fun n => rfl⟩
      · exact hbody.bind fun texts htexts => .ok htexts
      · refine ⟨op.isConjunction && decide (1 < (before.filter fun o => !o.isEmpty).length +
          ((after.filter fun o => !o.isEmpty).length + 1)), fun n => ?_⟩
        have hafter : (c n :: after).filter (fun o => !o.isEmpty) =
            c n :: after.filter fun o => !o.isEmpty :=
          List.filter_cons_of_pos (by rw [isEmpty_of_carries hc]; rfl)
        rw [joinsSeveral, List.filter_append, hafter, List.length_append, List.length_cons]

/-- A document with a whole number in one place has no text for any number, or the texts of all numbers are
one text around the literal. -/
theorem uniformly_render (d : Dialect) {json : Int → Json} (h : Json.Carries json) :
    Uniformly (Framed d.wholeLiteral) fun n => ofJson (json n) >>= render d :=
  (keepsPlace_of_carries h).condition.bind fun _ hc => (shows_body d hc).standalone

end Condition

end RecordMapper
