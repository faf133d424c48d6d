import RecordMapper.Proofs.Condition.Phrases
import RecordMapper.Proofs.Condition.Reading
import RecordMapper.Proofs.Statement.Layouts

/-!
# Operands that keep to their conjunct

An operand fits if its text stands within a conjunct, or if parentheses are put around it where it
needs them.  `Operator.stands_layout` says of each operator that what it writes stands if its
operands fit, and `fits_joined` says the same of conjunctions and disjunctions.
-/

namespace RecordMapper

/-! ## What may stand as an operand -/

namespace Operator

/-- Whether the last operand may be an array of values. -/
def takesList : Operator → Bool
  | .between | .notBetween | .in | .notIn => true
  | _ => false

/-- What an operator writes verbatim is read as one conjunct, and a label needs no parentheses. -/
def Guarded (d : Dialect) : Operator → List Condition → Prop
  | .function name, _ => d.IsConjunct name
  | .as, operands => ∀ label ∈ operands.getLast?, label.joinsSeveral = false
  | _, _ => True

end Operator

namespace Condition

def IsList : Condition → Prop
  | .value (.array items) => ∀ item ∈ items, item.isScalar = true
  | _ => False

theorem exists_items {condition : Condition} (h : condition.IsList) :
    ∃ items, condition = .value (.array items) := by
  unfold IsList at h
  split at h
  next items => exact ⟨items, rfl⟩
  next => cases h

end Condition

/-! ## Operands -/

variable {d : Dialect} {text : String}

namespace Operand

/-- The body stands within a conjunct, unless parentheses are put around it beside an operator. -/
structure Fits (d : Dialect) (o : Operand) : Prop where
  notList : ∀ items, o.tree ≠ .value (.array items)
  encloses : ∀ {text}, o.body = .ok text → d.Encloses text
  stands : ∀ {text}, o.body = .ok text → o.tree.joinsSeveral = false → o.tree.isSubquery = false →
    d.Stands text

variable {o : Operand}

theorem stands_asOperand (h : o.Fits d) (htext : o.asOperand = .ok text) : d.Stands text := by
  obtain ⟨body, hbody, htext⟩ := attempt_bind_eq_ok.mp htext
  cases htext
  split
  next => exact (Dialect.follows_parenthesize (h.encloses hbody)).stands
  next hplain =>
      rw [Bool.or_eq_true, not_or, Bool.not_eq_true, Bool.not_eq_true] at hplain
      exact h.stands hbody hplain.2 hplain.1

theorem encloses_standalone (h : o.Fits d) (htext : o.standalone = .ok text) :
    d.Encloses text := by
  obtain ⟨body, hbody, htext⟩ := attempt_bind_eq_ok.mp htext
  cases htext
  split
  next => exact Dialect.encloses_parenthesize (h.encloses hbody)
  next => exact h.encloses hbody

theorem stands_standalone (h : o.Fits d) (hseveral : o.tree.joinsSeveral = false)
    (htext : o.standalone = .ok text) : d.Stands text := by
  obtain ⟨body, hbody, htext⟩ := attempt_bind_eq_ok.mp htext
  cases htext
  split
  next => exact (Dialect.follows_parenthesize (h.encloses hbody)).stands
  next hsubquery => exact h.stands hbody hseveral (Bool.eq_false_iff.mpr hsubquery)

theorem stands_asName (h : o.Fits d) (hseveral : o.tree.joinsSeveral = false)
    (htext : o.asName d = .ok text) : d.Stands text := by
  unfold asName at htext
  split at htext
  next =>
      cases htext
      exact (Dialect.follows_quoted (Dialect.isQuoted_quoteIdentifier d _)).stands
  next =>
      cases htext
      exact (Dialect.follows_quoted (Dialect.isQuoted_quoteIdentifier d _)).stands
  next => exact stands_standalone h hseveral htext

end Operand

/-- Operands that fit.  The last one may be a list of values if the operator takes one. -/
def OperandsFit (d : Dialect) (takesList : Bool) : List Operand → Prop
  | [] => True
  | o :: rest =>
      (o.Fits d ∨ takesList = true ∧ rest = [] ∧ o.tree.IsList) ∧ OperandsFit d takesList rest

theorem fits_of_mem {operands : List Operand} (h : OperandsFit d false operands) {o : Operand}
    (ho : o ∈ operands) : o.Fits d := by
  induction operands with
  | nil => cases ho
  | cons first rest ih =>
      obtain ⟨hfirst, hrest⟩ := h
      rcases List.mem_cons.mp ho with rfl | ho
      · exact hfirst.resolve_right fun hlist => Bool.false_ne_true hlist.1
      · exact ih hrest ho

theorem fits_pair {left right : Operand} (h : OperandsFit d true [left, right]) :
    left.Fits d ∧ (right.Fits d ∨ right.tree.IsList) := by
  obtain ⟨hleft, hright, -⟩ := h
  refine ⟨hleft.resolve_right fun hlist => List.cons_ne_nil _ _ hlist.2.1, ?_⟩
  exact hright.imp_right fun hlist => hlist.2.2

theorem stands_of_mem {operands : List Operand} {texts : List String}
    (h : ∀ o ∈ operands, o.Fits d) (htexts : operandTexts operands = .ok texts) :
    ∀ text ∈ texts, d.Stands text := by
  intro text htext
  obtain ⟨o, ho, hbody⟩ := exists_of_mem_right (attempt_mapM_eq_ok.mp htexts) htext
  exact Operand.stands_asOperand (h o ho) hbody

namespace Dialect

theorem stands_commas {texts : List String} (h : ∀ text ∈ texts, d.Stands text) :
    d.Stands (", ".intercalate texts) := by
  induction texts with
  | nil => exact follows_empty.stands
  | cons text rest ih =>
      have htext := h text List.mem_cons_self
      cases rest with
      | nil => simpa using htext
      | cons next rest =>
          have hrest := ih fun other hother => h other (List.mem_cons_of_mem text hother)
          rw [String.intercalate_cons_cons, String.append_assoc]
          exact stands_append htext (follows_comma hrest)

theorem stands_nested {keyword : Keyword}
    (h : keyword.text.toList.all isWordChar = true ∧ connective? keyword.text.toList = none)
    (htext : d.Encloses text) : d.Stands (keyword.text ++ " " ++ parenthesize text) :=
  stands_blank (stands_word h.1 h.2) (follows_parenthesize htext).stands

end Dialect

namespace Operator

open Dialect

variable {op : Operator} {left right : Operand}

theorem stands_infix {keyword : Keyword} (hop : op.infixKeyword? = some keyword)
    (hleft : left.Fits d) (hright : right.Fits d) (htext : op.layout d [left, right] = .ok text) :
    d.Stands text := by
  rw [layout_of_keyword d hop] at htext
  obtain ⟨leftText, hleftText, htext⟩ := attempt_bind_eq_ok.mp htext
  obtain ⟨rightText, hrightText, htext⟩ := attempt_bind_eq_ok.mp htext
  cases htext
  have hbehind := follows_keyword hop (Operand.stands_asOperand hright hrightText)
  have hall := stands_append (Operand.stands_asOperand hleft hleftText) hbehind
  simpa only [String.append_assoc] using hall

theorem stands_betweenText (hleft : left.Fits d) (hright : right.Fits d ∨ right.tree.IsList)
    {keyword : Keyword} (hkeyword : keyword = .between ∨ keyword = .notBetween)
    (htext : betweenText d op keyword left right = .ok text) : d.Stands text := by
  unfold betweenText at htext
  split at htext
  next low high hbounds =>
      obtain ⟨leftText, hleftText, htext⟩ := attempt_bind_eq_ok.mp htext
      cases htext
      have htree := Condition.bounds?_eq_some.mp hbounds
      have hscalar := hright.resolve_left fun hfits => hfits.notList _ htree
      rw [htree] at hscalar
      have hlow := stands_literal d (hscalar low List.mem_cons_self)
      have hhigh := stands_literal d (hscalar high (List.mem_cons_of_mem low List.mem_cons_self))
      have hstands := Operand.stands_asOperand hleft hleftText
      have hbounds := follows_between hlow hhigh
      have hphrase : ∀ first, first ++ " " ++ "BETWEEN" ++ " " ++ d.literal low ++ " " ++ "AND" ++ " " ++
          d.literal high = first ++ (" BETWEEN " ++ d.literal low ++ " AND " ++ d.literal high) := by
        intro first
        rw [← String.toList_inj]
        simp
      rcases hkeyword with rfl | rfl
      · exact hphrase leftText ▸ stands_append hstands hbounds
      · have hnot : d.Stands "NOT" := stands_word (by decide) (by decide)
        have hall := stands_append (stands_blank hstands hnot) hbounds
        rw [← hphrase] at hall
        have hwords : leftText ++ " " ++ "NOT" ++ " " ++ "BETWEEN" =
            leftText ++ " " ++ Keyword.notBetween.text := by
          rw [← String.toList_inj]
          simp [Keyword.text]
        rwa [hwords] at hall
  next => cases htext

theorem encloses_asList (h : right.Fits d ∨ right.tree.IsList)
    (htext : right.asList d = .ok text) : d.Encloses text := by
  unfold Operand.asList at htext
  split at htext
  next =>
      cases htext
      exact encloses_of_stands (stands_word (by decide) (by decide))
  next items _ htree =>
      cases htext
      have hscalar := h.resolve_left fun hfits => hfits.notList _ htree
      rw [htree] at hscalar
      refine encloses_of_stands (stands_commas ?_)
      intro text htext
      obtain ⟨item, hitem, rfl⟩ := List.mem_map.mp htext
      exact stands_literal d (hscalar item hitem)
  next hitems =>
      rcases h with hfits | hlist
      · exact hfits.encloses htext
      · obtain ⟨items, htree⟩ := Condition.exists_items hlist
        exact absurd htree (hitems items)

theorem stands_memberText (hleft : left.Fits d) (hright : right.Fits d ∨ right.tree.IsList)
    {keyword : Keyword} (hkeyword : keyword = .in ∨ keyword = .notIn)
    (htext : memberText d keyword left right = .ok text) : d.Stands text := by
  obtain ⟨leftText, hleftText, htext⟩ := attempt_bind_eq_ok.mp htext
  obtain ⟨listText, hlistText, htext⟩ := attempt_bind_eq_ok.mp htext
  cases htext
  have hstands := Operand.stands_asOperand hleft hleftText
  have hlist := (follows_parenthesize (encloses_asList hright hlistText)).stands
  have hin : d.Stands "IN" := stands_word (by decide) (by decide)
  rcases hkeyword with rfl | rfl
  · exact stands_blank (stands_blank hstands hin) hlist
  · have hnot : d.Stands ("NOT" ++ " " ++ "IN") := stands_phrase "NOT" "IN" (by decide) (by decide)
    exact stands_blank (stands_blank hstands hnot) hlist

theorem stands_call {name : String} {operands : List Operand} (hname : d.IsConjunct name)
    (h : ∀ o ∈ operands, o.Fits d) (htext : (function name).layout d operands = .ok text) :
    d.Stands text := by
  rw [layout] at htext
  split at htext
  next =>
      cases htext
      have hstar : d.Encloses Keyword.star.text := encloses_plain (by decide)
      have hall := stands_append (stands_of_isConjunct hname) (follows_parenthesize hstar)
      simpa only [parenthesize, String.append_assoc] using hall
  next =>
      obtain ⟨texts, htexts, htext⟩ := attempt_bind_eq_ok.mp htext
      cases htext
      have hlist := encloses_of_stands (stands_commas (stands_of_mem h htexts))
      exact stands_append (stands_of_isConjunct hname) (follows_parenthesize hlist)

theorem arity_of_infixKeyword? {keyword : Keyword} (hop : op.infixKeyword? = some keyword) :
    op.arity = .exact 2 := by
  cases op <;> first | rfl | cases hop

theorem stands_not {operand : Operand} (h : operand.Fits d)
    (htext : Operator.not.layout d [operand] = .ok text) : d.Stands text := by
  obtain ⟨inner, hinner, htext⟩ := attempt_bind_eq_ok.mp htext
  cases htext
  exact stands_nested (by decide) (Operand.encloses_standalone h hinner)

theorem stands_exists {source : Operand} (h : source.Fits d)
    (htext : Operator.exists.layout d [source] = .ok text) : d.Stands text := by
  obtain ⟨inner, hinner, htext⟩ := attempt_bind_eq_ok.mp htext
  cases htext
  exact stands_nested (by decide) (h.encloses hinner)

theorem stands_notExists {source : Operand} (h : source.Fits d)
    (htext : Operator.notExists.layout d [source] = .ok text) : d.Stands text := by
  obtain ⟨inner, hinner, htext⟩ := attempt_bind_eq_ok.mp htext
  cases htext
  have hphrase : d.Stands ("NOT" ++ " " ++ "EXISTS") :=
    stands_phrase "NOT" "EXISTS" (by decide) (by decide)
  exact stands_blank hphrase (follows_parenthesize (h.encloses hinner)).stands

theorem stands_any {operands : List Operand} (h : ∀ o ∈ operands, o.Fits d)
    (htext : Operator.any.layout d operands = .ok text) : d.Stands text := by
  rcases operands with _ | ⟨first, _ | ⟨second, _ | ⟨third, more⟩⟩⟩
  · cases htext
  · obtain ⟨inner, hinner, htext⟩ := attempt_bind_eq_ok.mp htext
    cases htext
    exact stands_nested (by decide) ((h first List.mem_cons_self).encloses hinner)
  · obtain ⟨leftText, hleftText, htext⟩ := attempt_bind_eq_ok.mp htext
    obtain ⟨inner, hinner, htext⟩ := attempt_bind_eq_ok.mp htext
    cases htext
    have hsecond := h second (List.mem_cons_of_mem first List.mem_cons_self)
    have hnested : d.Stands (Keyword.any.text ++ " " ++ parenthesize inner) :=
      stands_nested (by decide) (hsecond.encloses hinner)
    have hall := stands_blank (Operand.stands_asOperand (h first List.mem_cons_self) hleftText) hnested
    simpa only [String.append_assoc] using hall
  · cases htext

theorem stands_distinct {operands : List Operand} (h : ∀ o ∈ operands, o.Fits d)
    (htext : Operator.distinct.layout d operands = .ok text) : d.Stands text := by
  rcases operands with _ | ⟨first, rest⟩
  · cases htext
  · obtain ⟨texts, htexts, htext⟩ := attempt_bind_eq_ok.mp htext
    cases htext
    exact stands_blank (stands_word (by decide) (by decide)) (stands_commas (stands_of_mem h htexts))

theorem stands_as {expr label : Operand} (hexpr : expr.Fits d) (hlabel : label.Fits d)
    (hseveral : label.tree.joinsSeveral = false)
    (htext : Operator.as.layout d [expr, label] = .ok text) : d.Stands text := by
  obtain ⟨labelText, hlabelText, htext⟩ := attempt_bind_eq_ok.mp htext
  obtain ⟨exprText, hexprText, htext⟩ := attempt_bind_eq_ok.mp htext
  cases htext
  have has : d.Stands Keyword.as.text := stands_word (by decide) (by decide)
  exact stands_blank (stands_blank (Operand.stands_asOperand hexpr hexprText) has)
    (Operand.stands_asName hlabel hseveral hlabelText)

theorem stands_of_infixKeyword? {keyword : Keyword} (hop : op.infixKeyword? = some keyword)
    {operands : List Operand} (h : OperandsFit d op.takesList operands)
    (htext : op.layout d operands = .ok text) : d.Stands text := by
  have hlist : op.takesList = false := by cases op <;> first | rfl | cases hop
  obtain ⟨left, right, rfl⟩ := exists_binary (arity_of_infixKeyword? hop) htext
  rw [hlist] at h
  exact stands_infix hop (fits_of_mem h List.mem_cons_self)
    (fits_of_mem h (List.mem_cons_of_mem left List.mem_cons_self)) htext

/-- The text of an operator that joins no conditions stands within a conjunct if its operands fit. -/
theorem stands_layout {operands : List Operand} (hop : op.isConjunction = false)
    (hguarded : op.Guarded d (operands.map Operand.tree))
    (h : OperandsFit d op.takesList operands) (htext : op.layout d operands = .ok text) :
    d.Stands text := by
  cases op with
  | and => cases hop
  | or => cases hop
  | not =>
      obtain ⟨operand, rfl⟩ := exists_unary rfl htext
      exact stands_not (fits_of_mem h List.mem_cons_self) htext
  | between =>
      obtain ⟨left, right, rfl⟩ := exists_binary rfl htext
      obtain ⟨hleft, hright⟩ := fits_pair h
      exact stands_betweenText hleft hright (.inl rfl) htext
  | notBetween =>
      obtain ⟨left, right, rfl⟩ := exists_binary rfl htext
      obtain ⟨hleft, hright⟩ := fits_pair h
      exact stands_betweenText hleft hright (.inr rfl) htext
  | «in» =>
      obtain ⟨left, right, rfl⟩ := exists_binary rfl htext
      obtain ⟨hleft, hright⟩ := fits_pair h
      exact stands_memberText hleft hright (.inl rfl) htext
  | notIn =>
      obtain ⟨left, right, rfl⟩ := exists_binary rfl htext
      obtain ⟨hleft, hright⟩ := fits_pair h
      exact stands_memberText hleft hright (.inr rfl) htext
  | any => exact stands_any (fun o ho => fits_of_mem h ho) htext
  | «exists» =>
      obtain ⟨source, rfl⟩ := exists_unary rfl htext
      exact stands_exists (fits_of_mem h List.mem_cons_self) htext
  | notExists =>
      obtain ⟨source, rfl⟩ := exists_unary rfl htext
      exact stands_notExists (fits_of_mem h List.mem_cons_self) htext
  | distinct => exact stands_distinct (fun o ho => fits_of_mem h ho) htext
  | as =>
      obtain ⟨expr, label, rfl⟩ := exists_binary rfl htext
      exact stands_as (fits_of_mem h List.mem_cons_self)
        (fits_of_mem h (List.mem_cons_of_mem expr List.mem_cons_self)) (hguarded _ rfl) htext
  | function name => exact stands_call hguarded (fun o ho => fits_of_mem h ho) htext
  | _ => exact stands_of_infixKeyword? rfl h htext

end Operator

/-! ## Nodes that join conditions -/

theorem Condition.isSubquery_of_isEmpty {condition : Condition} (h : condition.isEmpty = true) :
    condition.isSubquery = false := by
  cases condition with
  | subquery select => cases h
  | value _ | field _ | raw _ | node _ _ => rfl

mutual

theorem Condition.body_of_isEmpty (d : Dialect) : (condition : Condition) →
    condition.isEmpty = true → condition.body d = .ok ""
  | .node op operands, h => by
      rw [Condition.isEmpty, Bool.and_eq_true] at h
      obtain ⟨hop, hempty⟩ := h
      obtain ⟨texts, htexts, hnothing⟩ := exists_emptyTexts d operands hempty
      have hjoin : ∀ keyword, joinTexts keyword texts = "" := by
        intro keyword
        rw [joinTexts, List.filter_eq_nil_iff.mpr (by simpa using hnothing)]
        rfl
      cases op <;> cases hop
      all_goals
        rw [Condition.body, Operator.layout, htexts]
        exact congrArg Except.ok (hjoin _)
  | .value _, h => by cases h
  | .field _, h => by cases h
  | .raw _, h => by cases h
  | .subquery _, h => by cases h

theorem exists_emptyTexts (d : Dialect) : (operands : List Condition) →
    Condition.allEmpty operands = true →
    ∃ texts, operandTexts (operandBodies d operands) = .ok texts ∧ ∀ text ∈ texts, text = ""
  | [], _ => ⟨[], rfl, nofun⟩
  | operand :: rest, h => by
      rw [Condition.allEmpty, Bool.and_eq_true] at h
      obtain ⟨texts, htexts, hnothing⟩ := exists_emptyTexts d rest h.2
      refine ⟨"" :: texts, ?_, by simpa using hnothing⟩
      have hoperand : Operand.asOperand ⟨operand, operand.body d⟩ = .ok "" := by
        rw [Operand.asOperand, Condition.body_of_isEmpty d operand h.1,
          Condition.joinsSeveral_of_isEmpty h.1, Condition.isSubquery_of_isEmpty h.1]
        rfl
      rw [operandBodies, operandTexts, List.mapM_cons, hoperand]
      change (operandTexts (operandBodies d rest) >>= fun texts => .ok ("" :: texts)) = _
      rw [htexts]
      rfl

end

theorem length_filter_texts_le (d : Dialect) {operands : List Condition} {texts : List String}
    (htexts : operandTexts (operandBodies d operands) = .ok texts) :
    (texts.filter fun text => !text.isEmpty).length ≤
      (operands.filter fun operand => !operand.isEmpty).length := by
  induction operands generalizing texts with
  | nil =>
      cases htexts
      exact Nat.le_refl 0
  | cons operand rest ih =>
      rw [operandBodies, operandTexts, List.mapM_cons] at htexts
      obtain ⟨text, htext, htexts⟩ := attempt_bind_eq_ok.mp htexts
      obtain ⟨others, hothers, htexts⟩ := attempt_bind_eq_ok.mp htexts
      cases htexts
      have hrest := ih hothers
      rw [List.filter_cons, List.filter_cons]
      cases hempty : operand.isEmpty with
      | true =>
          have hnone : text = "" := by
            have hbody := Condition.body_of_isEmpty d operand hempty
            simp only [Operand.asOperand, hbody, Condition.joinsSeveral_of_isEmpty hempty,
              Condition.isSubquery_of_isEmpty hempty] at htext
            cases htext
            rfl
          simpa [hnone] using hrest
      | false =>
          split
          · simpa using hrest
          · exact Nat.le_trans hrest (Nat.le_succ _)

namespace Dialect

theorem stands_joinTexts {keyword : Keyword} {texts : List String}
    (h : ∀ text ∈ texts, d.Stands text)
    (hcount : (texts.filter fun text => !text.isEmpty).length ≤ 1) :
    d.Stands (joinTexts keyword texts) := by
  have hall : ∀ text ∈ texts.filter (fun text => !text.isEmpty), d.Stands text :=
    fun text htext => h text (List.mem_of_mem_filter htext)
  rw [joinTexts]
  generalize texts.filter (fun text => !text.isEmpty) = kept at hall hcount
  rcases kept with _ | ⟨text, _ | ⟨second, more⟩⟩
  · exact follows_empty.stands
  · simpa using hall text List.mem_cons_self
  · simp at hcount

theorem encloses_joinTexts {keyword : Keyword} (hkeyword : keyword = .and ∨ keyword = .or)
    {texts : List String} (h : ∀ text ∈ texts, d.Stands text) :
    d.Encloses (joinTexts keyword texts) := by
  have hseparator : d.Encloses (" " ++ keyword.text ++ " ") := by
    rcases hkeyword with rfl | rfl <;> exact encloses_plain (by decide)
  exact encloses_intercalate hseparator fun text htext =>
    encloses_of_stands (h text (List.mem_of_mem_filter htext))

end Dialect

theorem fits_joined {op : Operator} {keyword : Keyword} (hop : op.isConjunction = true)
    (hkeyword : keyword = .and ∨ keyword = .or)
    (hlayout : ∀ bodies, op.layout d bodies =
      operandTexts bodies >>= fun texts => .ok (joinTexts keyword texts))
    {operands : List Condition} (h : ∀ o ∈ operandBodies d operands, o.Fits d) :
    Operand.Fits d ⟨.node op operands, (Condition.node op operands).body d⟩ := by
  have hbody : ∀ {text}, (Condition.node op operands).body d = .ok text →
      ∃ texts, operandTexts (operandBodies d operands) = .ok texts ∧
        text = joinTexts keyword texts := by
    intro text htext
    rw [Condition.body, hlayout] at htext
    obtain ⟨texts, htexts, htext⟩ := attempt_bind_eq_ok.mp htext
    exact ⟨texts, htexts, (Except.ok.inj htext).symm⟩
  refine ⟨nofun, fun htext => ?_, fun htext hseveral _ => ?_⟩
  · obtain ⟨texts, htexts, rfl⟩ := hbody htext
    exact Dialect.encloses_joinTexts hkeyword (stands_of_mem h htexts)
  · obtain ⟨texts, htexts, rfl⟩ := hbody htext
    rw [Condition.joinsSeveral, hop, Bool.true_and, decide_eq_false_iff_not, Nat.not_lt] at hseveral
    exact Dialect.stands_joinTexts (stands_of_mem h htexts)
      (Nat.le_trans (length_filter_texts_le d htexts) hseveral)

end RecordMapper
