import RecordMapper.Proofs.Attempt
import RecordMapper.Proofs.Condition.Formula

/-!
# Conditions read back

Conditions of comparisons that are joined by `AND`, `OR` and `NOT` are written with just the
parentheses that a reader needs.  The text is read as the formula of the condition: its operators over
the texts of its comparisons, without what says nothing.
-/

namespace RecordMapper

namespace Operator

def comparisons : List Operator :=
  [.eq, .ne, .lt, .le, .gt, .ge, .like, .notLike, .is, .isNot]

def words : Operator → List String
  | .eq => ["="]
  | .ne => ["<>"]
  | .lt => ["<"]
  | .le => ["<="]
  | .gt => [">"]
  | .ge => [">="]
  | .like => ["LIKE"]
  | .notLike => ["NOT", "LIKE"]
  | .is => ["IS"]
  | .isNot => ["IS", "NOT"]
  | _ => []

end Operator

namespace Condition

/-- Comparisons of fields with literals, joined by `AND`, `OR` and `NOT`.  What says nothing is not
negated. -/
inductive IsBoolean : Condition → Prop
  | comparison {op : Operator} {ref : FieldRef} {v : Value} (hop : op ∈ Operator.comparisons)
      (href : ref.NamesField) (hv : v.isScalar = true) : IsBoolean (.node op [.field ref, .value v])
  | between {op : Operator} {ref : FieldRef} {low high : Value}
      (hop : op = .between ∨ op = .notBetween) (href : ref.NamesField) (hlow : low.isScalar = true)
      (hhigh : high.isScalar = true) :
      IsBoolean (.node op [.field ref, .value (.array [low, high])])
  | member {op : Operator} {ref : FieldRef} {values : List Value} (hop : op = .in ∨ op = .notIn)
      (href : ref.NamesField) (hvalues : ∀ v ∈ values, v.isScalar = true) :
      IsBoolean (.node op [.field ref, .value (.array values)])
  | joined {op : Operator} {operands : List Condition} (hop : op = .and ∨ op = .or)
      (h : ∀ operand ∈ operands, IsBoolean operand) : IsBoolean (.node op operands)
  | not {operand : Condition} (h : IsBoolean operand) (hcontent : operand.isEmpty = false) :
      IsBoolean (.node .not [operand])

def atomText (d : Dialect) (condition : Condition) : String :=
  match condition.body d with
  | .ok text => text
  | .error _ => ""

mutual

/-- The formula of a condition.  A conjunction or disjunction without operands says nothing, and one
of a single operand is that operand. -/
def formula? (d : Dialect) : Condition → Option Formula
  | .node .and operands =>
      match formulas d operands with
      | [] => none
      | found => some (.allOf found)
  | .node .or operands =>
      match formulas d operands with
      | [] => none
      | found => some (.anyOf found)
  | .node .not operands => (formulas d operands).head?.map .not
  | condition => some (.atom (condition.atomText d))

def formulas (d : Dialect) : List Condition → List Formula
  | [] => []
  | operand :: rest => (formula? d operand).toList ++ formulas d rest

end

end Condition

namespace Dialect

def ReadsOperand (d : Dialect) (text : String) (formula : Formula) : Prop :=
  ∃ parts, d.Lexes text parts ∧ Reader.IsOperand parts formula

def ReadsGroup (d : Dialect) (text : String) (formula : Formula) : Prop :=
  ∃ parts, d.Lexes text parts ∧ Reader.IsGroup parts formula

variable {d : Dialect} {text : String} {formula : Formula}

theorem readsGroup_of_readsOperand (h : d.ReadsOperand text formula) : d.ReadsGroup text formula := by
  obtain ⟨parts, hlexes, hread⟩ := h
  exact ⟨parts, hlexes, Reader.isGroup_of_isOperand hread⟩

theorem readsOperand_parenthesize (h : d.ReadsGroup text formula) :
    d.ReadsOperand (parenthesize text) formula := by
  obtain ⟨parts, hlexes, hread⟩ := h
  exact ⟨_, lexes_parenthesize hlexes, Reader.isOperand_parenthesized hread⟩

theorem readsOperand_not (h : d.ReadsGroup text formula) :
    d.ReadsOperand (Keyword.not.text ++ " " ++ parenthesize text) (.not formula) := by
  obtain ⟨parts, hlexes, hread⟩ := readsOperand_parenthesize h
  have hnot : d.IsWord Keyword.not.text := isWord_keyword d (by decide)
  exact ⟨_, lexes_blank (lexes_word hnot) hlexes, Reader.isOperand_not hread⟩

theorem readFormula_of_readsGroup (h : d.ReadsGroup text formula) :
    d.readFormula text = some (some formula) := by
  obtain ⟨parts, hlexes, group, rfl, hread⟩ := h
  have hparts := lexemes_of_lexes hlexes
  have hformula : Reader.start.read parts = some group.formula := by
    have hall := hread [] [] .atEnd
    rwa [List.append_nil] at hall
  rw [readFormula, hparts]
  cases parts with
  | nil => cases hformula
  | cons first rest =>
      dsimp only
      rw [hformula]
      rfl

theorem ne_empty_of_readsGroup (h : d.ReadsGroup text formula) : text ≠ "" := by
  rintro rfl
  have hread := readFormula_of_readsGroup h
  cases hread

/-! ## Atoms -/

open Reader (spaced spacedParts)

theorem lexes_spaced {first : String} {parts : List Lexeme} (h : d.Lexes first parts)
    {words : List String} (hwords : ∀ word ∈ words, d.IsWord word) :
    d.Lexes (spaced first words) (parts ++ spacedParts words) := by
  induction words generalizing first parts with
  | nil => simpa [spaced, spacedParts] using h
  | cons word words ih =>
      have hfirst := lexes_blank h (lexes_word (hwords word List.mem_cons_self))
      have hall := ih hfirst fun other hother => hwords other (List.mem_cons_of_mem word hother)
      simpa [spaced, spacedParts] using hall

theorem isWord_words {op : Operator} (hop : op ∈ Operator.comparisons) :
    ∀ word ∈ op.words, d.IsWord word ∧ IsInert word := by
  have hplain : ∀ op ∈ Operator.comparisons, ∀ word ∈ op.words,
      word.toList ≠ [] ∧ word.toList.all d.isPlain = true ∧ IsInert word := by
    cases d <;> decide
  intro word hword
  obtain ⟨hnonempty, hall, hinert⟩ := hplain op hop word hword
  exact ⟨isWord_plain hnonempty hall, hinert⟩

theorem spaced_phrase (text first second literal : String) :
    text ++ " " ++ (first ++ " " ++ second) ++ " " ++ literal =
      spaced text ([first, second] ++ [literal]) := by
  simp only [spaced, List.cons_append, List.nil_append, List.foldl_cons, List.foldl_nil,
    String.append_assoc]

theorem body_comparison {op : Operator} (hop : op ∈ Operator.comparisons) (d : Dialect)
    (ref : FieldRef) (v : Value) :
    (Condition.node op [.field ref, .value v]).body d =
      .ok (spaced (ref.render d) (op.words ++ [d.literal v])) := by
  have hnotLike := spaced_phrase (ref.render d) "NOT" "LIKE" (d.literal v)
  have hisNot := spaced_phrase (ref.render d) "IS" "NOT" (d.literal v)
  simp only [Operator.comparisons, List.mem_cons, List.not_mem_nil, or_false] at hop
  rcases hop with rfl | rfl | rfl | rfl | rfl | rfl | rfl | rfl | rfl | rfl
  case inr.inr.inr.inr.inr.inr.inr.inl => exact congrArg Except.ok hnotLike
  case inr.inr.inr.inr.inr.inr.inr.inr.inr => exact congrArg Except.ok hisNot
  all_goals rfl

/-- The words before the last one of `NOT BETWEEN` and `NOT IN`. -/
def negation : Operator → List String
  | .notBetween | .notIn => [Keyword.not.text]
  | _ => []

theorem isWord_negation (d : Dialect) (op : Operator) :
    ∀ word ∈ negation op, d.IsWord word ∧ IsInert word := by
  have hnot : d.IsWord Keyword.not.text ∧ IsInert Keyword.not.text :=
    ⟨isWord_keyword d (by decide), by decide⟩
  unfold negation
  split <;> simp [hnot]

theorem body_between {op : Operator} (hop : op = .between ∨ op = .notBetween) (d : Dialect)
    (ref : FieldRef) (low high : Value) :
    (Condition.node op [.field ref, .value (.array [low, high])]).body d =
      .ok (spaced (ref.render d) (negation op ++
        [Keyword.between.text, d.literal low, Keyword.and.text, d.literal high])) := by
  rcases hop with rfl | rfl
  · rfl
  · refine congrArg Except.ok ?_
    have hphrase := spaced_phrase (ref.render d) "NOT" "BETWEEN" (d.literal low)
    exact congrArg (fun text => text ++ " " ++ Keyword.and.text ++ " " ++ d.literal high) hphrase

/-- Literals with commas between them are words: all but the last one end with their comma. -/
theorem exists_items (d : Dialect) {values : List Value} (hne : values ≠ [])
    (h : ∀ v ∈ values, v.isScalar = true) :
    ∃ first items, ", ".intercalate (values.map d.literal) = spaced first items ∧
      d.IsWord first ∧ ∀ item ∈ items, d.IsWord item := by
  have hcomma : d.IsWord "," := isWord_plain (by decide) (by cases d <;> decide)
  induction values with
  | nil => exact absurd rfl hne
  | cons v rest ih =>
      have hv := (isWord_literal d (h v List.mem_cons_self)).1
      cases rest with
      | nil => exact ⟨d.literal v, [], by simp [spaced], hv, nofun⟩
      | cons next rest =>
          obtain ⟨first, items, htext, hfirst, hitems⟩ := ih (List.cons_ne_nil _ _)
            fun other hother => h other (List.mem_cons_of_mem v hother)
          refine ⟨d.literal v ++ ",", first :: items, ?_, isWord_append hv hcomma, ?_⟩
          · rw [List.map_cons, List.map_cons, String.intercalate_cons_cons, ← List.map_cons, htext]
            have hseparator : ", " = "," ++ " " := rfl
            rw [hseparator, ← String.append_assoc, ← Reader.spaced_append]
            rfl
          · intro item hitem
            rcases List.mem_cons.mp hitem with rfl | hitem
            · exact hfirst
            · exact hitems item hitem

theorem exists_listWords (d : Dialect) {values : List Value}
    (h : ∀ v ∈ values, v.isScalar = true) :
    ∃ first items, Operand.asList d ⟨.value (.array values), (Condition.value (.array values)).body d⟩ =
        .ok (spaced first items) ∧ d.IsWord first ∧ ∀ item ∈ items, d.IsWord item := by
  cases values with
  | nil => exact ⟨"NULL", [], rfl, isWord_plain (by decide) (by cases d <;> decide), nofun⟩
  | cons v rest =>
      obtain ⟨first, items, htext, hwords⟩ := exists_items d (List.cons_ne_nil v rest) h
      exact ⟨first, items, congrArg Except.ok htext, hwords⟩

theorem body_member {op : Operator} (hop : op = .in ∨ op = .notIn) {ref : FieldRef}
    {values : List Value} {list : String}
    (hlist : Operand.asList d ⟨.value (.array values), (Condition.value (.array values)).body d⟩ =
      .ok list) :
    (Condition.node op [.field ref, .value (.array values)]).body d =
      .ok (spaced (ref.render d) (negation op ++ [Keyword.in.text]) ++ " " ++ parenthesize list) := by
  have hbody : ∀ keyword, Operator.memberText d keyword ⟨.field ref, (Condition.field ref).body d⟩
      ⟨.value (.array values), (Condition.value (.array values)).body d⟩ =
        .ok (ref.render d ++ " " ++ keyword.text ++ " " ++ parenthesize list) := by
    intro keyword
    rw [Operator.memberText, hlist]
    rfl
  rcases hop with rfl | rfl
  · exact hbody .in
  · refine (hbody .notIn).trans (congrArg Except.ok ?_)
    exact spaced_phrase (ref.render d) "NOT" "IN" (parenthesize list)

def ReadsAtom (d : Dialect) (condition : Condition) : Prop :=
  ∃ text, condition.body d = .ok text ∧ d.ReadsOperand text (.atom text)

theorem readsAtom_comparison {op : Operator} (hop : op ∈ Operator.comparisons) {ref : FieldRef}
    (href : ref.NamesField) {v : Value} (hv : v.isScalar = true) :
    d.ReadsAtom (.node op [.field ref, .value v]) := by
  have hname := isName_field d href
  have hliteral := isWord_literal d hv
  have hwords : ∀ word ∈ op.words ++ [d.literal v], d.IsWord word ∧ IsInert word := by
    intro word hword
    rcases List.mem_append.mp hword with hword | hword
    · exact isWord_words hop word hword
    · rw [List.mem_singleton.mp hword]
      exact hliteral
  exact ⟨_, body_comparison hop d ref v, _,
    lexes_spaced (lexes_word hname.word) fun word hword => (hwords word hword).1,
    Reader.isOperand_comparison hname.ne_not fun word hword => (hwords word hword).2⟩

theorem readsAtom_between {op : Operator} (hop : op = .between ∨ op = .notBetween) {ref : FieldRef}
    (href : ref.NamesField) {low high : Value} (hlow : low.isScalar = true)
    (hhigh : high.isScalar = true) :
    d.ReadsAtom (.node op [.field ref, .value (.array [low, high])]) := by
  have hname := isName_field d href
  have hlowWord := isWord_literal d hlow
  have hhighWord := isWord_literal d hhigh
  have hbetween : d.IsWord Keyword.between.text := isWord_keyword d (by decide)
  have hand : d.IsWord Keyword.and.text := isWord_keyword d (by decide)
  have hwords : ∀ word ∈ negation op ++
      [Keyword.between.text, d.literal low, Keyword.and.text, d.literal high], d.IsWord word := by
    intro word hword
    rcases List.mem_append.mp hword with hword | hword
    · exact (isWord_negation d op word hword).1
    · simp only [List.mem_cons, List.not_mem_nil, or_false] at hword
      rcases hword with rfl | rfl | rfl | rfl
      · exact hbetween
      · exact hlowWord.1
      · exact hand
      · exact hhighWord.1
  exact ⟨_, body_between hop d ref low high, _, lexes_spaced (lexes_word hname.word) hwords,
    Reader.isOperand_between hname.ne_not (fun word hword => (isWord_negation d op word hword).2)
      hlowWord.2 hhighWord.2⟩

theorem readsAtom_member {op : Operator} (hop : op = .in ∨ op = .notIn) {ref : FieldRef}
    (href : ref.NamesField) {values : List Value} (hvalues : ∀ v ∈ values, v.isScalar = true) :
    d.ReadsAtom (.node op [.field ref, .value (.array values)]) := by
  have hname := isName_field d href
  obtain ⟨first, items, hlist, hfirst, hitems⟩ := exists_listWords d hvalues
  have hin : d.IsWord Keyword.in.text ∧ IsInert Keyword.in.text :=
    ⟨isWord_keyword d (by decide), by decide⟩
  have hwords : ∀ word ∈ negation op ++ [Keyword.in.text], d.IsWord word ∧ IsInert word := by
    intro word hword
    rcases List.mem_append.mp hword with hword | hword
    · exact isWord_negation d op word hword
    · rw [List.mem_singleton.mp hword]
      exact hin
  have hbefore := lexes_spaced (lexes_word hname.word) fun word hword => (hwords word hword).1
  have hinside := lexes_parenthesize (lexes_spaced (lexes_word hfirst) hitems)
  exact ⟨_, body_member hop hlist, _, lexes_blank hbefore hinside,
    Reader.isOperand_member hname.ne_not (fun word hword => (hwords word hword).2) first items⟩

/-! ## Joined conditions -/

theorem lexes_joined {word : String} (hword : d.IsWord word) {texts : List String}
    {partsOf : List (List Lexeme)} (h : List.Forall₂ d.Lexes texts partsOf) (hne : texts ≠ []) :
    d.Lexes ((" " ++ word ++ " ").intercalate texts) (Reader.joined word partsOf) := by
  induction h with
  | nil => exact absurd rfl hne
  | @cons text parts texts partsOf hfirst hothers ih =>
      cases hothers with
      | nil => simpa [Reader.joined] using hfirst
      | @cons next nextParts texts partsOf hnext hmore =>
          have hrest := lexes_blank (lexes_blank hfirst (lexes_word hword))
            (ih (List.cons_ne_nil _ _))
          rw [String.intercalate_cons_cons]
          have htext : text ++ (" " ++ word ++ " ") ++
              (" " ++ word ++ " ").intercalate (next :: texts) =
                text ++ " " ++ word ++ " " ++ (" " ++ word ++ " ").intercalate (next :: texts) := by
            simp only [String.append_assoc]
          rw [htext]
          simpa [Reader.joined] using hrest

theorem exists_parts {texts : List String} {formulas : List Formula}
    (h : List.Forall₂ d.ReadsOperand texts formulas) :
    ∃ partsOf, List.Forall₂ d.Lexes texts partsOf ∧
      List.Forall₂ Reader.IsOperand partsOf formulas := by
  induction h with
  | nil => exact ⟨[], .nil, .nil⟩
  | cons hfirst _ ih =>
      obtain ⟨parts, hlexes, hread⟩ := hfirst
      obtain ⟨partsOf, hlexesAll, hreadAll⟩ := ih
      exact ⟨parts :: partsOf, .cons hlexes hlexesAll, .cons hread hreadAll⟩

theorem readsGroup_joined {keyword : Keyword} {gather : List Formula → Formula}
    (hword : d.IsWord keyword.text)
    (hgather : ∀ {partsOf formulas}, List.Forall₂ Reader.IsOperand partsOf formulas →
      formulas ≠ [] → Reader.IsGroup (Reader.joined keyword.text partsOf) (gather formulas))
    {texts : List String} {formulas : List Formula}
    (h : List.Forall₂ d.ReadsOperand texts formulas) (hne : formulas ≠ []) :
    d.ReadsGroup ((" " ++ keyword.text ++ " ").intercalate texts) (gather formulas) := by
  obtain ⟨partsOf, hlexes, hread⟩ := exists_parts h
  have htexts : texts ≠ [] := by
    rintro rfl
    cases h
    exact hne rfl
  exact ⟨_, lexes_joined hword hlexes htexts, hgather hread hne⟩

end Dialect

namespace Condition

open Dialect

/-- The condition has a text, and it is read as the formula of the condition.  Without parentheses
around it, it is one operand unless it joins others. -/
def Reads (d : Dialect) (condition : Condition) : Prop :=
  ∃ text, condition.body d = .ok text ∧
    match condition.formula? d with
    | none => condition.isEmpty = true ∧ text = ""
    | some formula => condition.isEmpty = false ∧ d.ReadsGroup text formula ∧
        (condition.joinsSeveral = false → d.ReadsOperand text formula)

variable {d : Dialect} {condition : Condition} {operands : List Condition}

theorem reads_of_readsAtom (hformula : condition.formula? d = some (.atom (condition.atomText d)))
    (hcontent : condition.isEmpty = false) (h : d.ReadsAtom condition) : condition.Reads d := by
  obtain ⟨text, hbody, hread⟩ := h
  have htext : condition.atomText d = text := by rw [atomText, hbody]
  refine ⟨text, hbody, ?_⟩
  rw [hformula, htext]
  exact ⟨hcontent, readsGroup_of_readsOperand hread, fun _ => hread⟩

theorem filter_eq_nil_of_allEmpty (h : allEmpty operands = true) :
    (operands.filter fun operand => !operand.isEmpty) = [] := by
  induction operands with
  | nil => rfl
  | cons operand rest ih =>
      rw [allEmpty, Bool.and_eq_true] at h
      rw [List.filter_cons, h.1]
      exact ih h.2

theorem joinsSeveral_of_isEmpty (h : condition.isEmpty = true) : condition.joinsSeveral = false := by
  cases condition with
  | node op operands =>
      rw [isEmpty, Bool.and_eq_true] at h
      rw [joinsSeveral, filter_eq_nil_of_allEmpty h.2]
      simp
  | value _ | field _ | raw _ | subquery _ => rfl

theorem exists_operandText (hsubquery : condition.isSubquery = false) (h : condition.Reads d) :
    ∃ text, Operand.asOperand ⟨condition, condition.body d⟩ = .ok text ∧
      match condition.formula? d with
      | none => condition.isEmpty = true ∧ text = ""
      | some formula => condition.isEmpty = false ∧ d.ReadsOperand text formula := by
  obtain ⟨text, hbody, hread⟩ := h
  have hoperand : Operand.asOperand ⟨condition, condition.body d⟩ =
      .ok (if condition.joinsSeveral then parenthesize text else text) := by
    rw [Operand.asOperand, hbody, hsubquery, Bool.false_or]
    rfl
  refine ⟨_, hoperand, ?_⟩
  cases hformula : condition.formula? d with
  | none =>
      rw [hformula] at hread
      obtain ⟨hempty, rfl⟩ := hread
      exact ⟨hempty, by simp [joinsSeveral_of_isEmpty hempty]⟩
  | some formula =>
      rw [hformula] at hread
      obtain ⟨hcontent, hgroup, hoperand⟩ := hread
      refine ⟨hcontent, ?_⟩
      cases hseveral : condition.joinsSeveral with
      | true => exact readsOperand_parenthesize hgroup
      | false => exact hoperand hseveral

theorem exists_operandTexts (h : ∀ operand ∈ operands, operand.isSubquery = false ∧ operand.Reads d) :
    ∃ texts, operandTexts (operandBodies d operands) = .ok texts ∧
      List.Forall₂ d.ReadsOperand (texts.filter fun text => !text.isEmpty) (formulas d operands) ∧
      (operands.filter fun operand => !operand.isEmpty).length = (formulas d operands).length ∧
      allEmpty operands = (formulas d operands).isEmpty := by
  induction operands with
  | nil => exact ⟨[], rfl, .nil, rfl, rfl⟩
  | cons operand rest ih =>
      obtain ⟨texts, htexts, hread, hcount, hempty⟩ :=
        ih fun other hother => h other (List.mem_cons_of_mem operand hother)
      obtain ⟨hsubquery, hoperand⟩ := h operand List.mem_cons_self
      obtain ⟨text, htext, hformula⟩ := exists_operandText hsubquery hoperand
      have hall : operandTexts (operandBodies d (operand :: rest)) = .ok (text :: texts) := by
        rw [operandBodies, operandTexts, List.mapM_cons, htext]
        change (operandTexts (operandBodies d rest) >>= fun texts => .ok (text :: texts)) = _
        rw [htexts]
        rfl
      refine ⟨text :: texts, hall, ?_⟩
      cases hfound : operand.formula? d with
      | none =>
          rw [hfound] at hformula
          obtain ⟨hnothing, rfl⟩ := hformula
          rw [formulas, hfound, List.filter_cons, List.filter_cons, allEmpty, hnothing]
          exact ⟨hread, hcount, hempty⟩
      | some formula =>
          rw [hfound] at hformula
          obtain ⟨hcontent, hformula⟩ := hformula
          have htextContent : text.isEmpty = false := by
            have hne := ne_empty_of_readsGroup (readsGroup_of_readsOperand hformula)
            simpa using hne
          rw [formulas, hfound, List.filter_cons, List.filter_cons, allEmpty, hcontent, htextContent]
          exact ⟨.cons hformula hread, congrArg Nat.succ hcount, rfl⟩

/-- What a node that joins its operands by a keyword is read as.  Of one operand that says something
it is read as that operand. -/
theorem reads_joined {op : Operator} {keyword : Keyword} {gather : List Formula → Formula}
    (hop : op.isConjunction = true)
    (hlayout : ∀ bodies, op.layout d bodies =
      operandTexts bodies >>= fun texts => .ok (joinTexts keyword texts))
    (hformula : (node op operands).formula? d =
      if (formulas d operands).isEmpty then none else some (gather (formulas d operands)))
    (hsingle : ∀ formula, gather [formula] = formula) (hword : d.IsWord keyword.text)
    (hgather : ∀ {partsOf formulas}, List.Forall₂ Reader.IsOperand partsOf formulas →
      formulas ≠ [] → Reader.IsGroup (Reader.joined keyword.text partsOf) (gather formulas))
    (h : ∀ operand ∈ operands, operand.isSubquery = false ∧ operand.Reads d) :
    (node op operands).Reads d := by
  obtain ⟨texts, htexts, hread, hcount, hempty⟩ := exists_operandTexts h
  refine ⟨joinTexts keyword texts, ?_, ?_⟩
  · rw [body, hlayout, htexts]
    rfl
  -- the texts that are not empty, the operands with content and their formulas are as many
  rw [hformula, isEmpty, hop, Bool.true_and, hempty, joinsSeveral, hop, Bool.true_and, hcount,
    joinTexts]
  generalize texts.filter (fun text => !text.isEmpty) = texts at hread ⊢
  generalize formulas d operands = found at hread ⊢
  cases hread with
  | nil => exact ⟨rfl, rfl⟩
  | @cons text formula texts found hfirst hothers =>
      have hgroup :=
        readsGroup_joined hword hgather (.cons hfirst hothers) (List.cons_ne_nil _ _)
      refine ⟨rfl, hgroup, fun hseveral => ?_⟩
      -- without parentheses around it, the node has just one operand that says something
      cases hothers with
      | nil =>
          rw [hsingle]
          simpa using hfirst
      | cons hsecond hmore => simp at hseveral

theorem reads_and (h : ∀ operand ∈ operands, operand.isSubquery = false ∧ operand.Reads d) :
    (node .and operands).Reads d := by
  refine reads_joined rfl (fun _ => rfl) ?_ (fun _ => rfl) (isWord_keyword d (by decide))
    Reader.isGroup_joined_and h
  rw [formula?]
  cases formulas d operands <;> rfl

theorem reads_or (h : ∀ operand ∈ operands, operand.isSubquery = false ∧ operand.Reads d) :
    (node .or operands).Reads d := by
  refine reads_joined rfl (fun _ => rfl) ?_ (fun _ => rfl) (isWord_keyword d (by decide))
    Reader.isGroup_joined_or h
  rw [formula?]
  cases formulas d operands <;> rfl

theorem reads_not (hsubquery : condition.isSubquery = false) (hcontent : condition.isEmpty = false)
    (h : condition.Reads d) : (node .not [condition]).Reads d := by
  obtain ⟨text, hbody, hread⟩ := h
  cases hformula : condition.formula? d with
  | none =>
      rw [hformula, hcontent] at hread
      cases hread.1
  | some formula =>
      rw [hformula] at hread
      obtain ⟨-, hgroup, -⟩ := hread
      have hnot := readsOperand_not hgroup
      refine ⟨Keyword.not.text ++ " " ++ parenthesize text, ?_, ?_⟩
      · rw [body, operandBodies, operandBodies, Operator.layout, Operand.standalone, hbody, hsubquery]
        rfl
      · rw [formula?, formulas, hformula]
        exact ⟨rfl, readsGroup_of_readsOperand hnot, fun _ => hnot⟩

theorem isSubquery_of_isBoolean (h : condition.IsBoolean) : condition.isSubquery = false := by
  cases h <;> rfl

theorem reads_of_isBoolean (d : Dialect) (h : condition.IsBoolean) : condition.Reads d := by
  induction h with
  | @comparison op ref v hop href hv =>
      have hatom := readsAtom_comparison (d := d) hop href hv
      simp only [Operator.comparisons, List.mem_cons, List.not_mem_nil, or_false] at hop
      rcases hop with rfl | rfl | rfl | rfl | rfl | rfl | rfl | rfl | rfl | rfl <;>
        exact reads_of_readsAtom rfl rfl hatom
  | between hop href hlow hhigh =>
      have hatom := readsAtom_between (d := d) hop href hlow hhigh
      rcases hop with rfl | rfl <;> exact reads_of_readsAtom rfl rfl hatom
  | member hop href hvalues =>
      have hatom := readsAtom_member (d := d) hop href hvalues
      rcases hop with rfl | rfl <;> exact reads_of_readsAtom rfl rfl hatom
  | joined hop hoperands ih =>
      have hall := fun operand hoperand =>
        And.intro (isSubquery_of_isBoolean (hoperands operand hoperand)) (ih operand hoperand)
      rcases hop with rfl | rfl
      · exact reads_and hall
      · exact reads_or hall
  | not h hcontent ih => exact reads_not (isSubquery_of_isBoolean h) hcontent ih

/-- In every dialect a condition of comparisons has a text, which is empty if the condition says
nothing and only then, and which is read as the formula of the condition. -/
theorem render_reads (d : Dialect) (h : condition.IsBoolean) :
    ∃ sql, condition.render d = .ok sql ∧ (sql = "" ↔ condition.isEmpty = true) ∧
      d.readFormula sql = some (condition.formula? d) := by
  obtain ⟨text, hbody, hread⟩ := reads_of_isBoolean d h
  have hrender : condition.render d = .ok text := by
    rw [render, Operand.standalone, hbody, isSubquery_of_isBoolean h]
    rfl
  refine ⟨text, hrender, ?_⟩
  cases hformula : condition.formula? d with
  | none =>
      rw [hformula] at hread
      obtain ⟨hempty, rfl⟩ := hread
      exact ⟨iff_of_true rfl hempty, rfl⟩
  | some formula =>
      rw [hformula] at hread
      obtain ⟨hcontent, hgroup, -⟩ := hread
      have hne := ne_empty_of_readsGroup hgroup
      exact ⟨iff_of_false hne (by simp [hcontent]), readFormula_of_readsGroup hgroup⟩

/-- A text with all that a reader could stumble over, and a negated interval, beside a disjunction
that says nothing. -/
def quotedOrInterval : Condition :=
  .and [.or [.node .eq [.field ⟨none, "a AND b"⟩, .value (.text "it's) OR (")], .and []],
    .or [.and [], .and []],
    .not (.node .between [.field ⟨some "t", "n"⟩, .value (.array [.integer 1, .integer 2])])]

theorem isBoolean_quotedOrInterval : quotedOrInterval.IsBoolean := by
  have hnothing : (Condition.and []).IsBoolean := .joined (.inl rfl) nofun
  have hquoted : (Condition.node .eq
      [.field ⟨none, "a AND b"⟩, .value (.text "it's) OR (")]).IsBoolean :=
    .comparison (by decide) ⟨by decide, nofun⟩ rfl
  have hinterval : (Condition.node .between
      [.field ⟨some "t", "n"⟩, .value (.array [.integer 1, .integer 2])]).IsBoolean := by
    refine .between (.inl rfl) ⟨by decide, ?_⟩ rfl rfl
    intro table htable part hpart
    cases htable
    have hparts : Text.split '.' "t" = ["t"] := by decide +kernel
    rw [hparts] at hpart
    rw [List.mem_singleton.mp hpart]
    decide
  refine .joined (.inl rfl) fun operand hoperand => ?_
  simp only [List.mem_cons, List.not_mem_nil, or_false] at hoperand
  rcases hoperand with rfl | rfl | rfl
  · exact .joined (.inr rfl) (by simpa using ⟨hquoted, hnothing⟩)
  · exact .joined (.inr rfl) (by simpa using hnothing)
  · exact .not hinterval rfl

theorem render_reads_quotedOrInterval :
    quotedOrInterval.render .generic =
        .ok "\"a AND b\" = 'it''s) OR (' AND NOT (\"t\".\"n\" BETWEEN 1 AND 2)" ∧
      Dialect.readFormula .generic
          "\"a AND b\" = 'it''s) OR (' AND NOT (\"t\".\"n\" BETWEEN 1 AND 2)" =
        some (some (.and [.atom "\"a AND b\" = 'it''s) OR ('",
          .not (.atom "\"t\".\"n\" BETWEEN 1 AND 2")])) := by
  obtain ⟨sql, hrender, -, hread⟩ := render_reads .generic isBoolean_quotedOrInterval
  have htext : quotedOrInterval.render .generic =
      .ok "\"a AND b\" = 'it''s) OR (' AND NOT (\"t\".\"n\" BETWEEN 1 AND 2)" := by rfl
  cases htext.symm.trans hrender
  exact ⟨htext, hread⟩

end Condition

end RecordMapper
