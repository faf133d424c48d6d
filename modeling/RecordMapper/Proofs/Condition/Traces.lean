import RecordMapper.Proofs.Condition.Normal
import RecordMapper.Proofs.Condition.Operands
import RecordMapper.Proofs.Condition.Pieces

/-!
# Traces of operands without a text

An operand without a text is left out of a conjunction or disjunction, but every other operator is
written around it.  `Condition.wording` is the structure of the text of a condition, and so it tells
for which conditions nothing is missing.
-/

namespace RecordMapper

/-! ## Wordings of conditions -/

namespace Wording

def separated (join : Wording → Wording → Wording) : List Wording → Wording
  | [] => nothing
  | [w] => w
  | w :: rest => join w (separated join rest)

def joined (keyword : Keyword) (ws : List Wording) : Wording :=
  separated (join keyword) (ws.filter fun w => !w.isSilent)

end Wording

structure Worded where
  tree : Condition
  wording : Wording

namespace Worded

def asOperand (o : Worded) : Wording :=
  if o.tree.joinsSeveral then .group o.wording else o.wording

def asList (o : Worded) : Wording :=
  match o.tree with
  | .value (.array []) => .literal .null
  | .value (.array items) => .literals items
  | _ => o.wording

def asName (o : Worded) : Wording :=
  match o.tree with
  | .field ref => .label ref.name
  | .value (.text name) => .label name
  | _ => o.wording

end Worded

namespace Operator

def boundsWording (keyword : Keyword) (left pair : Worded) : Wording :=
  match pair.tree.bounds? with
  | some (low, high) =>
      .join keyword left.asOperand (.join .and (.literal low) (.literal high))
  | none => .nothing

def wording (op : Operator) (operands : List Worded) : Wording :=
  match op, operands with
  | .and, operands => .joined .and (operands.map Worded.asOperand)
  | .or, operands => .joined .or (operands.map Worded.asOperand)
  | .not, [operand] => .lead .not (.group operand.wording)
  | .between, [left, pair] => boundsWording .between left pair
  | .notBetween, [left, pair] => boundsWording .notBetween left pair
  | .in, [left, list] => .join .in left.asOperand (.group list.asList)
  | .notIn, [left, list] => .join .notIn left.asOperand (.group list.asList)
  | .any, [source] => .lead .any (.group source.wording)
  | .any, [left, source] => .join .any left.asOperand (.group source.wording)
  | .exists, [source] => .lead .exists (.group source.wording)
  | .notExists, [source] => .lead .notExists (.group source.wording)
  | .distinct, operands => .lead .distinct (.separated .comma (operands.map Worded.asOperand))
  | .as, [expr, name] => .join .as expr.asOperand name.asName
  | .function name, operands =>
      if operands.isEmpty && name == "COUNT" then .call name (.raw Keyword.star.text)
      else .call name (.separated .comma (operands.map Worded.asOperand))
  | op, [left, right] =>
      match op.infixKeyword? with
      | some keyword => .join keyword left.asOperand right.asOperand
      | none => .nothing
  | _, _ => .nothing

end Operator

namespace Condition

mutual

/-- The structure of the text of a condition without nested selections. -/
def wording : Condition → Wording
  | .value v => .literal v
  | .field ref => .field ref
  | .raw sql => .raw sql
  | .subquery _ => .nothing
  | .node op operands => op.wording (operandWordings operands)

def operandWordings : List Condition → List Worded
  | [] => []
  | operand :: rest => ⟨operand, wording operand⟩ :: operandWordings rest

end

mutual

def hasSelection : Condition → Bool
  | .subquery _ => true
  | .node _ operands => anyHasSelection operands
  | _ => false

def anyHasSelection : List Condition → Bool
  | [] => false
  | operand :: rest => hasSelection operand || anyHasSelection rest

end

end Condition

/-! ## Spelling -/

namespace Wording

variable {d : Dialect} {w a b : Wording} {s t : String}

/-- The pieces of a wording spell a text, and none of them is empty. -/
structure Spells (d : Dialect) (w : Wording) (text : String) : Prop where
  spell_eq : spell (w.pieces d) = text
  ne_empty : ∀ piece ∈ w.pieces d, piece.text ≠ ""

theorem pieces_eq_nil_iff : w.pieces d = [] ↔ w.isSilent = true := by
  cases w with
  | nothing => simp [pieces, isSilent]
  | raw sql => simp [pieces, isSilent]
  | _ => simp [pieces, isSilent]

theorem Spells.isSilent_eq (h : w.Spells d t) : w.isSilent = t.isEmpty := by
  rw [Bool.eq_iff_iff, String.isEmpty_iff, ← pieces_eq_nil_iff (d := d),
    ← spell_eq_empty_iff h.ne_empty, h.spell_eq]

theorem spells_nothing : nothing.Spells d "" :=
  ⟨rfl, nofun⟩

theorem spells_content (hpieces : w.pieces d = [.content t]) (ht : t ≠ "") : w.Spells d t := by
  refine ⟨?_, ?_⟩
  · rw [hpieces, spell, spell, String.append_empty]
    rfl
  · rw [hpieces]
    intro piece hpiece
    cases List.mem_singleton.mp hpiece
    exact ht

theorem spells_literal (d : Dialect) (v : Value) : (literal v).Spells d (d.literal v) :=
  spells_content rfl (Dialect.literal_ne_empty d v)

theorem spells_literals (d : Dialect) {values : List Value} (h : values ≠ []) :
    (literals values).Spells d (", ".intercalate (values.map d.literal)) := by
  refine spells_content rfl ?_
  cases values with
  | nil => exact absurd rfl h
  | cons v rest =>
      cases rest with
      | nil => simpa using Dialect.literal_ne_empty d v
      | cons next more => simp [String.intercalate_cons_cons, Dialect.literal_ne_empty d v]

theorem spells_field (d : Dialect) (ref : FieldRef) : (field ref).Spells d (ref.render d) :=
  spells_content rfl (Dialect.ne_empty_of_isWord (Dialect.isWord_field d ref))

theorem spells_label (d : Dialect) (name : String) :
    (label name).Spells d (d.quoteIdentifier name) :=
  spells_content rfl
    (Dialect.ne_empty_of_isWord (Dialect.isWord_quoted (Dialect.isQuoted_quoteIdentifier d name)))

theorem spells_raw (sql : String) : (raw sql).Spells d sql := by
  by_cases hsql : sql = ""
  · rw [hsql]
    exact ⟨rfl, nofun⟩
  · refine spells_content ?_ hsql
    rw [pieces, if_neg (by simpa using hsql)]

theorem spells_enclosed {p : Piece} (hp : ∀ text, p ≠ .content text) (h : a.Spells d s)
    (hpieces : w.pieces d = p :: (a.pieces d ++ [.closing])) : w.Spells d (p.text ++ s ++ ")") := by
  refine ⟨?_, ?_⟩
  · rw [hpieces, spell, spell_append, h.spell_eq, String.append_assoc]
    rfl
  · rw [hpieces, List.forall_mem_cons, List.forall_mem_append, List.forall_mem_singleton]
    exact ⟨Piece.text_ne_empty hp, h.ne_empty, by decide⟩

theorem spells_group (h : a.Spells d s) : (group a).Spells d (parenthesize s) :=
  spells_enclosed (p := .opening) nofun h rfl

theorem spells_call (name : String) (h : a.Spells d s) :
    (call name a).Spells d (name ++ parenthesize s) := by
  have hcall : (call name a).Spells d (name ++ "(" ++ s ++ ")") :=
    spells_enclosed (p := .calling name) nofun h rfl
  rw [parenthesize, ← String.append_assoc, ← String.append_assoc]
  exact hcall

theorem spells_lead (keyword : Keyword) (h : a.Spells d s) :
    (lead keyword a).Spells d (keyword.text ++ " " ++ s) := by
  refine ⟨?_, ?_⟩
  · rw [pieces, spell, h.spell_eq]
    rfl
  · rw [pieces, List.forall_mem_cons]
    exact ⟨Piece.text_ne_empty (by simp), h.ne_empty⟩

theorem spells_between {p : Piece} (hp : ∀ text, p ≠ .content text) (ha : a.Spells d s)
    (hb : b.Spells d t) (hpieces : w.pieces d = a.pieces d ++ p :: b.pieces d) :
    w.Spells d (s ++ p.text ++ t) := by
  refine ⟨?_, ?_⟩
  · rw [hpieces, spell_append, spell, ha.spell_eq, hb.spell_eq, String.append_assoc]
  · rw [hpieces, List.forall_mem_append, List.forall_mem_cons]
    exact ⟨ha.ne_empty, Piece.text_ne_empty hp, hb.ne_empty⟩

theorem spells_join (keyword : Keyword) (ha : a.Spells d s) (hb : b.Spells d t) :
    (join keyword a b).Spells d (s ++ (" " ++ keyword.text ++ " ") ++ t) :=
  spells_between (p := .joining keyword) nofun ha hb rfl

theorem spells_spaced (keyword : Keyword) (ha : a.Spells d s) (hb : b.Spells d t) :
    (join keyword a b).Spells d (s ++ " " ++ keyword.text ++ " " ++ t) := by
  simpa only [String.append_assoc] using spells_join keyword ha hb

theorem spells_comma (ha : a.Spells d s) (hb : b.Spells d t) :
    (comma a b).Spells d (s ++ ", " ++ t) :=
  spells_between (p := .comma) nofun ha hb rfl

theorem spells_separated {join : Wording → Wording → Wording} {separator : String}
    (hjoin : ∀ {a b s t}, a.Spells d s → b.Spells d t → (join a b).Spells d (s ++ separator ++ t))
    {ws : List Wording} {texts : List String} (h : List.Forall₂ (Spells d) ws texts) :
    (separated join ws).Spells d (separator.intercalate texts) := by
  induction h with
  | nil => exact spells_nothing
  | cons hfirst hrest ih =>
      cases hrest with
      | nil => simpa [separated] using hfirst
      | cons hnext hmore =>
          rw [separated, String.intercalate_cons_cons]
          · exact hjoin hfirst ih
          · nofun

theorem spells_joined (keyword : Keyword) {ws : List Wording} {texts : List String}
    (h : List.Forall₂ (Spells d) ws texts) :
    (joined keyword ws).Spells d (joinTexts keyword texts) := by
  refine spells_separated (spells_join keyword) (forall₂_filter h fun w t hw => ?_)
  rw [hw.isSilent_eq]

end Wording

/-! ## Operands -/

section Operands

variable {d : Dialect} {text : String}

structure Words (d : Dialect) (o : Operand) (w : Worded) : Prop where
  tree_eq : w.tree = o.tree
  isSubquery : o.tree.isSubquery = false
  spells : ∀ text, o.body = .ok text → w.wording.Spells d text

namespace Words

variable {o : Operand} {w : Worded} {operands : List Operand} {worded : List Worded}

theorem asOperand (h : Words d o w) (htext : o.asOperand = .ok text) :
    w.asOperand.Spells d text := by
  obtain ⟨body, hbody, htext⟩ := attempt_bind_eq_ok.mp htext
  cases htext
  have hspells := h.spells body hbody
  rw [Worded.asOperand, h.tree_eq, h.isSubquery, Bool.false_or]
  split
  · exact Wording.spells_group hspells
  · exact hspells

theorem standalone (h : Words d o w) (htext : o.standalone = .ok text) :
    w.wording.Spells d text := by
  obtain ⟨body, hbody, htext⟩ := attempt_bind_eq_ok.mp htext
  cases htext
  rw [h.isSubquery, if_neg Bool.false_ne_true]
  exact h.spells body hbody

theorem asList (h : Words d o w) (htext : o.asList d = .ok text) : w.asList.Spells d text := by
  unfold Operand.asList at htext
  split at htext
  next hempty =>
      cases htext
      rw [Worded.asList, h.tree_eq, hempty]
      exact Wording.spells_literal d .null
  next items hsome hitems =>
      cases htext
      rw [Worded.asList, h.tree_eq, hitems]
      split
      next hempty =>
          cases hempty
          exact absurd rfl hsome
      next hitems' =>
          cases hitems'
          exact Wording.spells_literals d hsome
      next hother => exact absurd rfl (hother items)
  next hempty hitems =>
      rw [Worded.asList, h.tree_eq]
      split
      next h' => exact absurd h' hempty
      next h' => exact absurd h' (hitems _)
      next => exact h.spells text htext

theorem asName (h : Words d o w) (htext : o.asName d = .ok text) : w.asName.Spells d text := by
  unfold Operand.asName at htext
  split at htext
  next ref href =>
      cases htext
      rw [Worded.asName, h.tree_eq, href]
      exact Wording.spells_label d ref.name
  next name hname =>
      cases htext
      rw [Worded.asName, h.tree_eq, hname]
      exact Wording.spells_label d name
  next hfield hname =>
      rw [Worded.asName, h.tree_eq]
      split
      next h' => exact absurd h' (hfield _)
      next h' => exact absurd h' (hname _)
      next => exact h.standalone htext

theorem asOperands (h : List.Forall₂ (Words d) operands worded) {texts : List String}
    (htexts : operandTexts operands = .ok texts) :
    List.Forall₂ (Wording.Spells d) (worded.map Worded.asOperand) texts := by
  rw [List.forall₂_map_left_iff]
  exact forall₂_comp h.flip (attempt_mapM_eq_ok.mp htexts) fun _ _ _ hwords htext =>
    asOperand hwords htext

end Words

namespace Operator

variable {op : Operator} {operands : List Operand} {worded : List Worded}

theorem spells_bounds {keyword : Keyword} {left pair : Operand} {wl wp : Worded}
    (hl : Words d left wl) (hp : Words d pair wp)
    (htext : betweenText d op keyword left pair = .ok text) :
    (boundsWording keyword wl wp).Spells d text := by
  unfold betweenText at htext
  split at htext
  next low high hbounds =>
      obtain ⟨leftText, hleft, htext⟩ := attempt_bind_eq_ok.mp htext
      cases htext
      rw [boundsWording, hp.tree_eq, hbounds]
      have hboth := Wording.spells_spaced .and (Wording.spells_literal d low)
        (Wording.spells_literal d high)
      have hall := Wording.spells_spaced keyword (hl.asOperand hleft) hboth
      simpa only [String.append_assoc] using hall
  next => cases htext

theorem words_unary {o : Operand} (h : List.Forall₂ (Words d) [o] worded) :
    ∃ w, Words d o w ∧ worded = [w] := by
  cases h with
  | cons hw hnil =>
      cases hnil
      exact ⟨_, hw, rfl⟩

theorem words_binary {left right : Operand} (h : List.Forall₂ (Words d) [left, right] worded) :
    ∃ wl wr, Words d left wl ∧ Words d right wr ∧ worded = [wl, wr] := by
  cases h with
  | cons hl hrest =>
      obtain ⟨wr, hr, rfl⟩ := words_unary hrest
      exact ⟨_, wr, hl, hr, rfl⟩

theorem exists_words_unary (hop : op.arity = .exact 1) (h : List.Forall₂ (Words d) operands worded)
    (htext : op.layout d operands = .ok text) :
    ∃ o w, Words d o w ∧ operands = [o] ∧ worded = [w] := by
  obtain ⟨o, rfl⟩ := exists_unary hop htext
  obtain ⟨w, hw, rfl⟩ := words_unary h
  exact ⟨o, w, hw, rfl, rfl⟩

theorem exists_words_binary (hop : op.arity = .exact 2)
    (h : List.Forall₂ (Words d) operands worded) (htext : op.layout d operands = .ok text) :
    ∃ left right wl wr, Words d left wl ∧ Words d right wr ∧
      operands = [left, right] ∧ worded = [wl, wr] := by
  obtain ⟨left, right, rfl⟩ := exists_binary hop htext
  obtain ⟨wl, wr, hl, hr, rfl⟩ := words_binary h
  exact ⟨left, right, wl, wr, hl, hr, rfl, rfl⟩

theorem spells_member {keyword : Keyword} {left list : Operand} {wl ws : Worded}
    (hl : Words d left wl) (hs : Words d list ws)
    (htext : memberText d keyword left list = .ok text) :
    (Wording.join keyword wl.asOperand (.group ws.asList)).Spells d text := by
  obtain ⟨leftText, hleft, htext⟩ := attempt_bind_eq_ok.mp htext
  obtain ⟨listText, hlist, htext⟩ := attempt_bind_eq_ok.mp htext
  cases htext
  exact Wording.spells_spaced keyword (hl.asOperand hleft) (Wording.spells_group (hs.asList hlist))

theorem spells_any (h : List.Forall₂ (Words d) operands worded)
    (htext : any.layout d operands = .ok text) : (any.wording worded).Spells d text := by
  rcases operands with _ | ⟨first, _ | ⟨source, _ | ⟨third, rest⟩⟩⟩
  · cases htext
  · obtain ⟨w, hw, rfl⟩ := words_unary h
    obtain ⟨inner, hinner, htext⟩ := attempt_bind_eq_ok.mp htext
    cases htext
    exact Wording.spells_lead .any (Wording.spells_group (hw.spells inner hinner))
  · obtain ⟨wl, ws, hl, hs, rfl⟩ := words_binary h
    obtain ⟨leftText, hleft, htext⟩ := attempt_bind_eq_ok.mp htext
    obtain ⟨inner, hinner, htext⟩ := attempt_bind_eq_ok.mp htext
    cases htext
    exact Wording.spells_spaced .any (hl.asOperand hleft)
      (Wording.spells_group (hs.spells inner hinner))
  · cases htext

theorem spells_function {name : String} (h : List.Forall₂ (Words d) operands worded)
    (htext : (function name).layout d operands = .ok text) :
    ((function name).wording worded).Spells d text := by
  have hempty : worded.isEmpty = operands.isEmpty := by
    cases h with
    | nil => rfl
    | cons _ _ => rfl
  simp only [layout] at htext
  simp only [wording, hempty]
  split at htext
  next hcount =>
      cases htext
      rw [if_pos hcount]
      have hcall := Wording.spells_call (d := d) name (Wording.spells_raw Keyword.star.text)
      simpa only [parenthesize, String.append_assoc] using hcall
  next hcount =>
      obtain ⟨texts, htexts, htext⟩ := attempt_bind_eq_ok.mp htext
      cases htext
      rw [if_neg hcount]
      exact Wording.spells_call name
        (Wording.spells_separated Wording.spells_comma (Words.asOperands h htexts))

theorem wording_of_infixKeyword? {keyword : Keyword} (hop : op.infixKeyword? = some keyword)
    (left right : Worded) :
    op.wording [left, right] = .join keyword left.asOperand right.asOperand := by
  cases op <;> cases hop <;> rfl

theorem spells_infix {keyword : Keyword} (hop : op.infixKeyword? = some keyword)
    (h : List.Forall₂ (Words d) operands worded) (htext : op.layout d operands = .ok text) :
    (op.wording worded).Spells d text := by
  obtain ⟨left, right, wl, wr, hl, hr, rfl, rfl⟩ :=
    exists_words_binary (arity_of_infixKeyword? hop) h htext
  rw [layout_of_keyword d hop] at htext
  obtain ⟨leftText, hleft, htext⟩ := attempt_bind_eq_ok.mp htext
  obtain ⟨rightText, hright, htext⟩ := attempt_bind_eq_ok.mp htext
  cases htext
  rw [wording_of_infixKeyword? hop]
  exact Wording.spells_spaced keyword (hl.asOperand hleft) (hr.asOperand hright)

/-- What an operator writes is spelled by its wording if its operands are. -/
theorem spells_layout (h : List.Forall₂ (Words d) operands worded)
    (htext : op.layout d operands = .ok text) : (op.wording worded).Spells d text := by
  cases op with
  | and | or =>
      obtain ⟨texts, htexts, htext⟩ := attempt_bind_eq_ok.mp htext
      cases htext
      exact Wording.spells_joined _ (Words.asOperands h htexts)
  | not =>
      obtain ⟨operand, w, hw, rfl, rfl⟩ := exists_words_unary rfl h htext
      obtain ⟨inner, hinner, htext⟩ := attempt_bind_eq_ok.mp htext
      cases htext
      exact Wording.spells_lead .not (Wording.spells_group (hw.standalone hinner))
  | between | notBetween =>
      obtain ⟨left, pair, wl, wp, hl, hp, rfl, rfl⟩ := exists_words_binary rfl h htext
      exact spells_bounds hl hp htext
  | «in» | notIn =>
      obtain ⟨left, list, wl, ws, hl, hs, rfl, rfl⟩ := exists_words_binary rfl h htext
      exact spells_member hl hs htext
  | any => exact spells_any h htext
  | «exists» | notExists =>
      obtain ⟨source, w, hw, rfl, rfl⟩ := exists_words_unary rfl h htext
      obtain ⟨inner, hinner, htext⟩ := attempt_bind_eq_ok.mp htext
      cases htext
      exact Wording.spells_lead _ (Wording.spells_group (hw.spells inner hinner))
  | distinct =>
      rcases operands with _ | ⟨first, rest⟩
      · cases htext
      · obtain ⟨texts, htexts, htext⟩ := attempt_bind_eq_ok.mp htext
        cases htext
        exact Wording.spells_lead .distinct
          (Wording.spells_separated Wording.spells_comma (Words.asOperands h htexts))
  | as =>
      obtain ⟨expr, name, we, wn, he, hn, rfl, rfl⟩ := exists_words_binary rfl h htext
      obtain ⟨nameText, hname, htext⟩ := attempt_bind_eq_ok.mp htext
      obtain ⟨exprText, hexpr, htext⟩ := attempt_bind_eq_ok.mp htext
      cases htext
      exact Wording.spells_spaced .as (he.asOperand hexpr) (hn.asName hname)
  | function name => exact spells_function h htext
  | _ => exact spells_infix rfl h htext

end Operator

end Operands

namespace Condition

theorem isSubquery_of_hasSelection {c : Condition} (h : c.hasSelection = false) :
    c.isSubquery = false := by
  cases c with
  | subquery select => cases h
  | value _ | field _ | raw _ | node _ _ => rfl

mutual

theorem spells_body (d : Dialect) : (c : Condition) → c.hasSelection = false →
    ∀ text, c.body d = .ok text → c.wording.Spells d text
  | .value v, _, _, h => by
      cases h
      exact Wording.spells_literal d v
  | .field ref, _, _, h => by
      cases h
      exact Wording.spells_field d ref
  | .raw sql, _, _, h => by
      cases h
      exact Wording.spells_raw sql
  | .subquery _, hselection, _, _ => by cases hselection
  | .node op operands, hselection, _, h =>
      op.spells_layout (words_operands d operands hselection) h

theorem words_operands (d : Dialect) : (operands : List Condition) →
    anyHasSelection operands = false →
    List.Forall₂ (Words d) (operandBodies d operands) (operandWordings operands)
  | [], _ => .nil
  | operand :: rest, hselection => by
      obtain ⟨hoperand, hrest⟩ := Bool.or_eq_false_iff.mp hselection
      exact .cons ⟨rfl, isSubquery_of_hasSelection hoperand, spells_body d operand hoperand⟩
        (words_operands d rest hrest)

end

theorem anyHasSelection_eq_false {operands : List Condition}
    (h : ∀ operand ∈ operands, operand.hasSelection = false) : anyHasSelection operands = false := by
  induction operands with
  | nil => rfl
  | cons operand rest ih =>
      obtain ⟨hoperand, hrest⟩ := List.forall_mem_cons.mp h
      exact Bool.or_eq_false_iff.mpr ⟨hoperand, ih hrest⟩

theorem hasSelection_of_isNormal {c : Condition} (h : c.IsNormal) : c.hasSelection = false := by
  induction h with
  | value v => rfl
  | field ref => rfl
  | raw sql => rfl
  | node _ _ ih => exact anyHasSelection_eq_false ih

/-! ## Traces -/

/-- The text of a condition in JSON is spelled by the pieces of its wording, none of which is empty,
and nothing is missing in it if and only if the wording is whole. -/
theorem leaves_no_trace_iff {json : Json} {c : Condition} {d : Dialect} {sql : String}
    (hjson : ofJson json = .ok c) (hsql : c.render d = .ok sql) :
    spell (c.wording.pieces d) = sql ∧ (∀ piece ∈ c.wording.pieces d, piece.text ≠ "") ∧
      (Whole (c.wording.pieces d) ↔ c.wording.isWhole = true) := by
  have hselection := hasSelection_of_isNormal (isNormal_of_ofJson json c hjson)
  have hwords : Words d ⟨c, c.body d⟩ ⟨c, c.wording⟩ :=
    ⟨rfl, isSubquery_of_hasSelection hselection, spells_body d c hselection⟩
  have hspells := hwords.standalone hsql
  exact ⟨hspells.spell_eq, hspells.ne_empty, c.wording.whole_pieces_iff d⟩

/-- A disjunction with an empty mapping in it, beside a comparison. -/
def sparse : Json :=
  .object [("a", .integer 1), (":or", .array [.object [], .object [("b", .integer 2)]])]

/-- The empty mapping is left out without a trace. -/
theorem leaves_no_trace_sparse : ∃ c, ofJson sparse = .ok c ∧
    c.render .generic = .ok "\"a\" = 1 AND \"b\" = 2" ∧
    spell (c.wording.pieces .generic) = "\"a\" = 1 AND \"b\" = 2" ∧
    Whole (c.wording.pieces .generic) := by
  have hjson : ofJson sparse = .ok (and [eq (ofPath "a") (.value (.integer 1)),
      or [and [], eq (ofPath "b") (.value (.integer 2))]]) := by with_unfolding_all rfl
  have hsql : (and [eq (ofPath "a") (.value (.integer 1)),
      or [and [], eq (ofPath "b") (.value (.integer 2))]]).render .generic =
        .ok "\"a\" = 1 AND \"b\" = 2" := by rfl
  obtain ⟨hspell, -, hwhole⟩ := leaves_no_trace_iff hjson hsql
  exact ⟨_, hjson, hsql, hspell, hwhole.mpr (by decide)⟩

/-- A comparison beside the negation of an empty mapping. -/
def negatedNothing : Json :=
  .object [("a", .integer 1), (":not", .object [])]

/-- An empty mapping that is negated leaves a `NOT` with empty parentheses. -/
theorem leaves_trace_negatedNothing : ∃ c, ofJson negatedNothing = .ok c ∧
    c.render .generic = .ok "\"a\" = 1 AND NOT ()" ∧
    spell (c.wording.pieces .generic) = "\"a\" = 1 AND NOT ()" ∧
    ¬ Whole (c.wording.pieces .generic) := by
  refine ⟨and [eq (ofPath "a") (.value (.integer 1)), not (and [])], ?_, by rfl, by rfl, ?_⟩
  · with_unfolding_all rfl
  · rw [Wording.whole_pieces_iff]
    decide

end Condition

end RecordMapper
