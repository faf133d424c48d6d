import RecordMapper.Proofs.Condition.Guarded
import RecordMapper.Proofs.Condition.Truth

/-!
# A key beside constraints

The related rows of an entity are those with its key that also meet the constraints of the relation.
The comparison of the key and the text of the constraints stand side by side in one clause, so that
the comparison binds every row exactly if the constraints are read as a conjunction.  They are if
each of them is guarded, or is a verbatim conjunction.
-/

namespace RecordMapper

/-! ## Clauses -/

namespace Dialect

variable {d : Dialect} {part clause : String}

/-- The text is one of the conjuncts of a clause. -/
def Requires (d : Dialect) (part clause : String) : Prop :=
  ∃ found, d.conjuncts? clause = some found ∧ part ∈ found

/-- The clause is true: all its conjuncts are.  What each of them says is known by its text. -/
def Holds (d : Dialect) (truth : String → Option Bool) (clause : String) : Prop :=
  ∃ found, d.conjuncts? clause = some found ∧ allTrue (found.map truth) = some true

theorem truth_of_requires {truth : String → Option Bool} (h : d.Requires part clause)
    (hclause : d.Holds truth clause) : truth part = some true := by
  obtain ⟨found, hfound, hpart⟩ := h
  obtain ⟨found', hfound', htrue⟩ := hclause
  cases hfound.symm.trans hfound'
  exact allTrue_eq_true.mp htrue _ (List.mem_map_of_mem hpart)

/-- The statement applies only to rows that the key selects: its clause requires the comparison of the
key, and is true of no other row, whatever else stands in it. -/
def KeepsTo (d : Dialect) (key : Condition) (head sql : String) : Prop :=
  ∃ clause keyText, sql = head ++ " WHERE " ++ clause ∧ key.render d = .ok keyText ∧
    d.Requires keyText clause ∧
    ∀ (row : Row) (truth : String → Option Bool), truth keyText = key.truth row →
      d.Holds truth clause → key.selects row

theorem keepsTo_iff {key : Condition} {head keyText : String} (hkey : key.render d = .ok keyText) :
    d.KeepsTo key head (head ++ " WHERE " ++ clause) ↔ d.Requires keyText clause := by
  constructor
  · rintro ⟨clause', keyText', hsql, hkey', hrequires, -⟩
    cases hkey.symm.trans hkey'
    have hclause : clause = clause' := by
      rw [← String.toList_inj] at hsql ⊢
      simpa using hsql
    rwa [hclause]
  · intro h
    refine ⟨clause, keyText, rfl, hkey, h, fun row truth htruth hclause => ?_⟩
    rw [Condition.selects, ← htruth]
    exact truth_of_requires h hclause

end Dialect

/-! ## Texts of conjunctions -/

namespace Condition

theorem joinTexts_cons {keyword : Keyword} {first : String} (hfirst : first ≠ "")
    (texts : List String) : joinTexts keyword (first :: texts) =
      if joinTexts keyword texts = "" then first
      else first ++ " " ++ keyword.text ++ " " ++ joinTexts keyword texts := by
  have hkeeps : (first :: texts).filter (fun text => !text.isEmpty) =
      first :: texts.filter fun text => !text.isEmpty := by
    rw [List.filter_cons, if_pos (by simpa using hfirst)]
  cases hkept : texts.filter fun text => !text.isEmpty with
  | nil =>
      have hnone : joinTexts keyword texts = "" := by
        rw [joinTexts, hkept]
        rfl
      rw [hnone, if_pos rfl, joinTexts, hkeeps, hkept, String.intercalate_singleton]
  | cons next more =>
      have hnext : next ∈ texts.filter fun text => !text.isEmpty := by
        rw [hkept]
        exact List.mem_cons_self
      have hcontent : next ≠ "" := by simpa using (List.mem_filter.mp hnext).2
      rw [if_neg (joinTexts_ne_empty (List.mem_of_mem_filter hnext) hcontent), joinTexts, hkeeps,
        hkept, String.intercalate_cons_cons, joinTexts, hkept]
      simp only [String.append_assoc]

theorem append_and (first rest : String) :
    first ++ " " ++ Keyword.and.text ++ " " ++ rest = first ++ " AND " ++ rest := by
  simp only [String.append_assoc]
  rfl

theorem isSome_conjuncts?_joinTexts {d : Dialect} {texts : List String}
    (h : ∀ text ∈ texts, (d.conjuncts? text).isSome = true) :
    (d.conjuncts? (joinTexts .and texts)).isSome = true := by
  induction texts with
  | nil => cases d <;> decide
  | cons text rest ih =>
      have hrest := ih fun other hother => h other (List.mem_cons_of_mem text hother)
      by_cases hempty : text = ""
      · have hskip : joinTexts .and (text :: rest) = joinTexts .and rest := by
          rw [hempty]
          rfl
        rwa [hskip]
      · rw [joinTexts_cons hempty]
        split
        next => exact h text List.mem_cons_self
        next =>
            obtain ⟨found, hfound⟩ := Option.isSome_iff_exists.mp (h text List.mem_cons_self)
            obtain ⟨more, hmore⟩ := Option.isSome_iff_exists.mp hrest
            rw [append_and, Dialect.conjuncts?_and hfound, hmore]
            rfl

/-! ## Constraints -/

variable {d : Dialect} {key constraints : Condition} {sql : String}

theorem render_eq_body (h : key.isSubquery = false) : key.render d = key.body d := by
  rw [render, Operand.standalone, h]
  cases key.body d <;> rfl

/-- The text of the constraints is read as a conjunction. -/
def Conjoins (d : Dialect) (constraints : Condition) : Prop :=
  ∃ text, (and constraints.conjuncts).render d = .ok text ∧ (d.conjuncts? text).isSome = true

/-- Each of the constraints is guarded, or is a verbatim conjunction. -/
def Conjoinable (d : Dialect) (constraints : Condition) : Prop :=
  ∀ operand ∈ constraints.conjuncts, operand.Guarded d ∨
    ∃ sql, operand = .raw sql ∧ (d.conjuncts? sql).isSome = true

theorem isSome_conjuncts?_of_guarded {operand : Condition} (h : operand.Guarded d) {text : String}
    (htext : Operand.asOperand ⟨operand, operand.body d⟩ = .ok text) :
    (d.conjuncts? text).isSome = true := by
  have hstands := Operand.stands_asOperand (fits d operand h) htext
  rw [Dialect.isConjunct_of_stands hstands]
  rfl

theorem conjoins_of_conjoinable (h : constraints.Conjoinable d) {text : String}
    (htext : (and constraints.conjuncts).render d = .ok text) : constraints.Conjoins d := by
  refine ⟨text, htext, ?_⟩
  rw [render_eq_body (by rfl)] at htext
  obtain ⟨texts, htexts, hjoin⟩ := attempt_bind_eq_ok.mp htext
  cases hjoin
  refine isSome_conjuncts?_joinTexts fun part hpart => ?_
  obtain ⟨operand, hoperand, hbody⟩ := exists_operand_of_mem htexts hpart
  rcases h operand hoperand with hguarded | ⟨sql, rfl, hsql⟩
  · exact isSome_conjuncts?_of_guarded hguarded hbody
  · cases hbody
    exact hsql

theorem conjoinable_both {first second : Condition} (hfirst : first.Conjoinable d)
    (hsecond : second.Conjoinable d) : (first.both second).Conjoinable d := by
  rw [both]
  split
  next => exact hsecond
  next =>
      split
      next => exact hfirst
      next =>
          intro operand hoperand
          exact (List.mem_append.mp hoperand).elim (hfirst operand) (hsecond operand)

theorem conjoinable_addConstraints {options : TieOptions} {conditions : List Condition}
    (hoptions : options.constraints.Conjoinable d)
    (hconditions : ∀ condition ∈ conditions, condition.Conjoinable d) :
    (conditions.foldl TieOptions.addConstraint options).constraints.Conjoinable d := by
  induction conditions generalizing options with
  | nil => exact hoptions
  | cons condition rest ih =>
      have hadded : (options.addConstraint condition).constraints.Conjoinable d :=
        conjoinable_both hoptions (hconditions condition List.mem_cons_self)
      exact ih hadded fun other hother => hconditions other (List.mem_cons_of_mem condition hother)

/-! ## Comparisons of keys -/

/-- The condition stands beside others without parentheses. -/
structure IsSingle (d : Dialect) (key : Condition) : Prop where
  flat : key.conjuncts = [key]
  speaks : key.Speaks d
  several : key.joinsSeveral = false
  subquery : key.isSubquery = false

structure IsComparison (d : Dialect) (key : Condition) : Prop extends key.IsSingle d where
  guarded : key.Guarded d

theorem isSingle_eq (d : Dialect) (path : String) (value : Value) :
    (eq (ofPath path) (.value value)).IsSingle d where
  flat := rfl
  speaks := speaks_eq _ _
  several := rfl
  subquery := rfl

theorem isSingle_inList (d : Dialect) (path : String) (values : List Value) :
    (inList (ofPath path) values).IsSingle d where
  flat := rfl
  speaks := speaks_inList _ _
  several := rfl
  subquery := rfl

theorem isComparison_eq (d : Dialect) (path : String) {value : Value}
    (h : value.isScalar = true) : (eq (ofPath path) (.value value)).IsComparison d where
  toIsSingle := isSingle_eq d path value
  guarded := ⟨trivial, .inl trivial, .inl h, trivial⟩

theorem isComparison_inList (d : Dialect) (path : String) {values : List Value}
    (h : ∀ value ∈ values, value.isScalar = true) :
    (inList (ofPath path) values).IsComparison d where
  toIsSingle := isSingle_inList d path values
  guarded := ⟨trivial, .inl trivial, .inr ⟨rfl, rfl, h⟩, trivial⟩

theorem asOperand_eq_body (h : key.IsSingle d) :
    Operand.asOperand ⟨key, key.body d⟩ = key.body d := by
  rw [Operand.asOperand, h.several, h.subquery]
  cases key.body d <;> rfl

theorem isConjunct_of_isComparison (h : key.IsComparison d) {keyText : String}
    (htext : key.render d = .ok keyText) : d.IsConjunct keyText := by
  rw [render_eq_body h.subquery] at htext
  exact Dialect.isConjunct_of_stands ((fits d key h.guarded).stands htext h.several h.subquery)

theorem isEmpty_and_conjuncts (h : constraints.isEmpty = true) :
    (and constraints.conjuncts).isEmpty = true := by
  unfold conjuncts
  split
  next => exact h
  next => simp [and, isEmpty, allEmpty, h, Operator.isConjunction]

/-- The text of a key and constraints is that of the key and, if they have one, that of the
constraints. -/
theorem render_both_eq_ok (hkey : key.IsSingle d)
    (h : (key.both constraints).render d = .ok sql) :
    ∃ keyText rest, key.render d = .ok keyText ∧
      (and constraints.conjuncts).render d = .ok rest ∧
      sql = if rest = "" then keyText else keyText ++ " AND " ++ rest := by
  rw [both, if_neg (by simp [hkey.speaks.content])] at h
  split at h
  next hempty =>
      have hnothing : (and constraints.conjuncts).render d = .ok "" := by
        rw [render_eq_body (by rfl)]
        exact body_of_isEmpty d _ (isEmpty_and_conjuncts hempty)
      exact ⟨sql, "", h, hnothing, by rw [if_pos rfl]⟩
  next =>
      rw [hkey.flat, List.singleton_append, render_eq_body (by rfl)] at h
      obtain ⟨texts, htexts, hjoin⟩ := attempt_bind_eq_ok.mp h
      cases hjoin
      rw [operandBodies, operandTexts, List.mapM_cons, asOperand_eq_body hkey] at htexts
      obtain ⟨keyText, hkeyText, htexts⟩ := attempt_bind_eq_ok.mp htexts
      obtain ⟨others, hothers, htexts⟩ := attempt_bind_eq_ok.mp htexts
      cases htexts
      have hrest : (and constraints.conjuncts).render d = .ok (joinTexts .and others) := by
        rw [render_eq_body (by rfl)]
        exact attempt_bind_eq_ok.mpr ⟨others, hothers, rfl⟩
      have hcontent : keyText ≠ "" := hkey.speaks.text_ne keyText hkeyText
      refine ⟨keyText, joinTexts .and others, ?_, hrest, ?_⟩
      · rw [render_eq_body hkey.subquery, hkeyText]
      · rw [joinTexts_cons hcontent others, append_and]

/-- The comparison of the key binds every row exactly if the constraints are read as a conjunction. -/
theorem requires_both (hkey : key.IsComparison d)
    (h : (key.both constraints).render d = .ok sql) :
    ∃ keyText, key.render d = .ok keyText ∧
      (d.Requires keyText sql ↔ constraints.Conjoins d) ∧
      (constraints.Conjoinable d → d.Requires keyText sql) := by
  obtain ⟨keyText, rest, hkeyText, hrest, rfl⟩ := render_both_eq_ok hkey.toIsSingle h
  have hconjunct := isConjunct_of_isComparison hkey hkeyText
  have hconjoins : constraints.Conjoins d ↔ (d.conjuncts? rest).isSome = true := by
    simp [Conjoins, hrest]
  have hrequires : d.Requires keyText (if rest = "" then keyText else keyText ++ " AND " ++ rest) ↔
      constraints.Conjoins d := by
    rw [hconjoins]
    split
    next hempty =>
        rw [hempty]
        exact iff_of_true ⟨[keyText], hconjunct, List.mem_singleton_self _⟩ (by cases d <;> decide)
    next =>
        rw [Dialect.Requires, Dialect.conjuncts?_and hconjunct]
        cases d.conjuncts? rest with
        | none => simp
        | some more => simp
  exact ⟨keyText, hkeyText, hrequires, fun hconstraints =>
    hrequires.mpr (conjoins_of_conjoinable hconstraints hrest)⟩

end Condition

end RecordMapper
