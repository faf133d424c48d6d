import RecordMapper.Proofs.Condition.Operands

/-!
# Conditions that keep to their conjunct

Verbatim SQL may be anything.  A tree is guarded if each raw text and function name in it is read as
one conjunct, arrays stand only where a list is written, and no label joins conditions.
`Condition.fits` goes through all parts of conditions and selections: the text of a guarded tree
stands within a conjunct, or parentheses are put around it.
-/

namespace RecordMapper

/-! ## Guarded trees -/

mutual

def Condition.Guarded (d : Dialect) : Condition → Prop
  | .value v => v.isScalar = true
  | .field _ => True
  | .raw sql => d.IsConjunct sql
  | .subquery select => select.Guarded d
  | .node op operands => op.Guarded d operands ∧ operandsGuarded d op.takesList operands

/-- The last operand may be a list of values if the operator takes one. -/
def operandsGuarded (d : Dialect) (takesList : Bool) : List Condition → Prop
  | [] => True
  | operand :: rest =>
      (operand.Guarded d ∨ takesList = true ∧ rest = [] ∧ operand.IsList) ∧
        operandsGuarded d takesList rest

def Column.Guarded (d : Dialect) : Column → Prop
  | .field _ _ => True
  | .expr tree _ => tree.Guarded d
  | .subquery select _ => select.Guarded d

def columnsGuarded (d : Dialect) : List Column → Prop
  | [] => True
  | column :: rest => column.Guarded d ∧ columnsGuarded d rest

def Source.Guarded (d : Dialect) : Source → Prop
  | .table _ _ => True
  | .subquery select _ => select.Guarded d

def sourcesGuarded (d : Dialect) : List Source → Prop
  | [] => True
  | source :: rest => source.Guarded d ∧ sourcesGuarded d rest

def Join.Guarded (d : Dialect) : Join → Prop
  | ⟨_, source, on⟩ => source.Guarded d ∧ on.Guarded d

def joinsGuarded (d : Dialect) : List Join → Prop
  | [] => True
  | join :: rest => join.Guarded d ∧ joinsGuarded d rest

def Order.Guarded (d : Dialect) : Order → Prop
  | ⟨expr, _⟩ => expr.Guarded d

def ordersGuarded (d : Dialect) : List Order → Prop
  | [] => True
  | entry :: rest => entry.Guarded d ∧ ordersGuarded d rest

def Select.Guarded (d : Dialect) : Select → Prop
  | ⟨_, _, columns, sources, joins, filter, group, having, order, _, _, _⟩ =>
      columnsGuarded d columns ∧ sourcesGuarded d sources ∧ joinsGuarded d joins ∧
        filter.Guarded d ∧ columnsGuarded d group ∧ having.Guarded d ∧ ordersGuarded d order

end

variable {d : Dialect} {text : String}

/-! ## Parts of selections -/

namespace Dialect

theorem encloses_empty : d.Encloses "" :=
  encloses_of_stands follows_empty.stands

theorem encloses_blank : d.Encloses " " :=
  encloses_plain (by decide)

theorem encloses_keyword (d : Dialect) {keyword : Keyword}
    (h : keyword ≠ .minus ∧ keyword ≠ .slash) : d.Encloses keyword.text := by
  have hplain : ∀ keyword ∈ Keyword.all, keyword ≠ .minus → keyword ≠ .slash →
      keyword.text.toList.all (fun c => isWordChar c || isSign c) = true := by decide
  exact encloses_plain (hplain keyword (Keyword.mem_all keyword) h.1 h.2)

theorem encloses_behind {keyword : Keyword} (h : keyword ≠ .minus ∧ keyword ≠ .slash)
    (htext : d.Encloses text) : d.Encloses (" " ++ keyword.text ++ " " ++ text) :=
  encloses_append
    (encloses_append (encloses_append encloses_blank (encloses_keyword d h)) encloses_blank) htext

theorem encloses_marked {keyword : Keyword} (h : keyword ≠ .minus ∧ keyword ≠ .slash)
    (marked : Bool) : d.Encloses (if marked then " " ++ keyword.text else "") := by
  cases marked with
  | false => exact encloses_empty
  | true => exact encloses_append encloses_blank (encloses_keyword d h)

theorem encloses_withAlias (h : d.Encloses text) (label : String) :
    d.Encloses (withAlias d text label) := by
  have hlabel := encloses_of_stands (follows_quoted (isQuoted_quoteIdentifier d label)).stands
  have hkeyword : Keyword.as ≠ .minus ∧ Keyword.as ≠ .slash := by decide
  have hall := encloses_append h (encloses_behind hkeyword hlabel)
  simpa only [withAlias, String.append_assoc] using hall

theorem encloses_clauseText {keyword : Keyword} (hkeyword : keyword ≠ .minus ∧ keyword ≠ .slash)
    {condition : Condition} {attempt : Attempt String}
    (h : ∀ {text}, attempt = .ok text → d.Encloses text)
    (htext : clauseText keyword condition attempt = .ok text) : d.Encloses text := by
  rw [clauseText] at htext
  split at htext
  next =>
      cases htext
      exact encloses_empty
  next =>
      obtain ⟨sql, hsql, htext⟩ := attempt_bind_eq_ok.mp htext
      cases htext
      split
      next => exact encloses_empty
      next => exact encloses_behind hkeyword (h hsql)

theorem encloses_join {texts : List String} (h : ∀ text ∈ texts, d.Encloses text) :
    d.Encloses (String.join texts) := by
  induction texts with
  | nil => exact encloses_empty
  | cons text rest ih =>
      rw [String.join_cons]
      exact encloses_append (h text List.mem_cons_self)
        (ih fun other hother => h other (List.mem_cons_of_mem text hother))

theorem encloses_modifier (d : Dialect) (modifier : Modifier) :
    d.Encloses (" " ++ modifier.text) := by
  have hplain : (" " ++ modifier.text).toList.all (fun c => isWordChar c || isSign c) = true := by
    cases modifier <;> decide
  exact encloses_plain hplain

theorem encloses_modifiersText {kind : StatementKind} {modifiers : Modifiers}
    (htext : modifiersText d kind modifiers = .ok text) : d.Encloses text := by
  obtain ⟨texts, htexts, hjoin⟩ := attempt_bind_eq_ok.mp htext
  cases hjoin
  refine encloses_join fun text hmem => ?_
  obtain ⟨i, hi, rfl⟩ := List.getElem_of_mem hmem
  have hall := attempt_mapM_eq_ok.mp htexts
  have hmodifier := hall.get (hall.length_eq ▸ hi) hi
  dsimp only [List.get_eq_getElem] at hmodifier
  split at hmodifier
  next =>
      rw [← Except.ok.inj hmodifier]
      exact encloses_modifier d _
  next => cases hmodifier

theorem encloses_commas {texts : List String} (h : ∀ text ∈ texts, d.Encloses text) :
    d.Encloses (", ".intercalate texts) :=
  encloses_intercalate (encloses_plain (by decide)) h

theorem encloses_columnListText {texts : List String} (h : ∀ text ∈ texts, d.Encloses text) :
    d.Encloses (columnListText texts) :=
  encloses_commas fun text htext => h text (List.mem_eraseDups.mp htext)

theorem encloses_orderText {entries : List String} (h : ∀ text ∈ entries, d.Encloses text) :
    d.Encloses (orderText entries) := by
  rw [orderText]
  split
  next => exact encloses_empty
  next => exact encloses_behind (by decide) (encloses_commas h)

theorem encloses_number (d : Dialect) (n : Nat) : d.Encloses (toString n) :=
  encloses_of_stands (stands_number (isNumber_nat n))

theorem encloses_limitText (limit : Option UInt64) : d.Encloses (limitText limit) := by
  cases limit with
  | none => exact encloses_empty
  | some n => exact encloses_behind (by decide) (encloses_number d n.toNat)

theorem encloses_offsetText (limit offset : Option UInt64) :
    d.Encloses (offsetText limit offset) := by
  unfold offsetText
  split
  next => exact encloses_behind (by decide) (encloses_number d _)
  next => exact encloses_empty

end Dialect

/-! ## Whole trees -/

theorem map_tree_operandBodies (d : Dialect) (operands : List Condition) :
    (operandBodies d operands).map Operand.tree = operands := by
  simp [operandBodies_eq_map, Function.comp_def]

open Dialect in
mutual

/-- The body of a guarded condition stands within a conjunct, unless parentheses are put around it. -/
theorem Condition.fits (d : Dialect) : (condition : Condition) → condition.Guarded d →
    Operand.Fits d ⟨condition, condition.body d⟩
  | .value v, h => by
      have hliteral := stands_literal d h
      refine ⟨?_, fun htext => ?_, fun htext _ _ => ?_⟩
      · rintro items htree
        cases htree
        cases h
      · cases htext
        exact encloses_of_stands hliteral
      · cases htext
        exact hliteral
  | .field ref, _ => by
      have hfield := (follows_field d ref).stands
      refine ⟨nofun, fun htext => ?_, fun htext _ _ => ?_⟩
      · cases htext
        exact encloses_of_stands hfield
      · cases htext
        exact hfield
  | .raw sql, h => by
      have hraw := stands_of_isConjunct h
      refine ⟨nofun, fun htext => ?_, fun htext _ _ => ?_⟩
      · cases htext
        exact encloses_of_stands hraw
      · cases htext
        exact hraw
  | .subquery select, h => ⟨nofun, fun htext => Select.encloses_render d select h htext, nofun⟩
  | .node op operands, h => by
      obtain ⟨hguarded, hoperands⟩ := h
      have hfit := operandsFit_bodies d op.takesList operands hoperands
      cases hop : op.isConjunction with
      | true =>
          cases op with
          | and => exact fits_joined rfl (.inl rfl) (fun _ => rfl) fun o ho => fits_of_mem hfit ho
          | or => exact fits_joined rfl (.inr rfl) (fun _ => rfl) fun o ho => fits_of_mem hfit ho
          | _ => cases hop
      | false =>
          rw [← map_tree_operandBodies d operands] at hguarded
          have hstands : ∀ {text}, (Condition.node op operands).body d = .ok text → d.Stands text :=
            fun htext => Operator.stands_layout hop hguarded hfit htext
          exact ⟨nofun, fun htext => encloses_of_stands (hstands htext),
            fun htext _ _ => hstands htext⟩

theorem operandsFit_bodies (d : Dialect) (takesList : Bool) : (operands : List Condition) →
    operandsGuarded d takesList operands → OperandsFit d takesList (operandBodies d operands)
  | [], _ => trivial
  | operand :: rest, h => by
      refine ⟨?_, operandsFit_bodies d takesList rest h.2⟩
      rcases h.1 with hguarded | ⟨hlist, rfl, hitems⟩
      · exact .inl (Condition.fits d operand hguarded)
      · exact .inr ⟨hlist, rfl, hitems⟩

theorem Column.encloses_render (d : Dialect) (starAllowed : Bool) : (column : Column) →
    column.Guarded d → ∀ {text}, column.render d starAllowed = .ok text → d.Encloses text
  | .field ref label?, _, text, htext => by
      have hfield := encloses_of_stands (follows_field d ref).stands
      unfold Column.render at htext
      split at htext
      · cases htext
      · split at htext
        · cases htext
          exact encloses_withAlias hfield _
        · cases htext
          exact hfield
  | .expr tree label?, h, text, htext => by
      obtain ⟨sql, hsql, htext⟩ := attempt_bind_eq_ok.mp htext
      have htree := Operand.encloses_standalone (Condition.fits d tree h) hsql
      split at htext
      · cases htext
        exact encloses_withAlias htree _
      · cases htext
        exact htree
  | .subquery select label, h, text, htext => by
      obtain ⟨sql, hsql, htext⟩ := attempt_bind_eq_ok.mp htext
      cases htext
      exact encloses_withAlias
        (encloses_parenthesize (Select.encloses_render d select h hsql)) label

theorem encloses_columnTexts (d : Dialect) (starAllowed : Bool) : (columns : List Column) →
    columnsGuarded d columns → ∀ {texts}, columnTexts d starAllowed columns = .ok texts →
    ∀ text ∈ texts, d.Encloses text
  | [], _, texts, htexts => by
      cases htexts
      exact nofun
  | column :: rest, h, texts, htexts => by
      obtain ⟨text, htext, htexts⟩ := attempt_bind_eq_ok.mp htexts
      obtain ⟨others, hothers, htexts⟩ := attempt_bind_eq_ok.mp htexts
      cases htexts
      exact List.forall_mem_cons.mpr ⟨Column.encloses_render d starAllowed column h.1 htext,
        encloses_columnTexts d starAllowed rest h.2 hothers⟩

theorem Source.encloses_render (d : Dialect) : (source : Source) → source.Guarded d →
    ∀ {text}, source.render d = .ok text → d.Encloses text
  | .table name label?, _, text, htext => by
      have hname := encloses_of_stands (follows_parts d (Text.split '.' name)).stands
      cases label? with
      | none =>
          cases htext
          exact hname
      | some label =>
          cases htext
          exact encloses_withAlias hname label
  | .subquery select label, h, text, htext => by
      obtain ⟨sql, hsql, htext⟩ := attempt_bind_eq_ok.mp htext
      cases htext
      exact encloses_withAlias
        (encloses_parenthesize (Select.encloses_render d select h hsql)) label

theorem encloses_sourceTexts (d : Dialect) : (sources : List Source) → sourcesGuarded d sources →
    ∀ {texts}, sourceTexts d sources = .ok texts → ∀ text ∈ texts, d.Encloses text
  | [], _, texts, htexts => by
      cases htexts
      exact nofun
  | source :: rest, h, texts, htexts => by
      obtain ⟨text, htext, htexts⟩ := attempt_bind_eq_ok.mp htexts
      obtain ⟨others, hothers, htexts⟩ := attempt_bind_eq_ok.mp htexts
      cases htexts
      exact List.forall_mem_cons.mpr ⟨Source.encloses_render d source h.1 htext,
        encloses_sourceTexts d rest h.2 hothers⟩

theorem Join.encloses_render (d : Dialect) : (join : Join) → join.Guarded d →
    ∀ {text}, join.render d = .ok text → d.Encloses text
  | ⟨kind, source, on⟩, h, text, htext => by
      obtain ⟨sourceText, hsource, htext⟩ := attempt_bind_eq_ok.mp htext
      obtain ⟨clause, hclause, htext⟩ := attempt_bind_eq_ok.mp htext
      cases htext
      have hkind : kind.keyword ≠ .minus ∧ kind.keyword ≠ .slash := by cases kind <;> decide
      have hon := Condition.fits d on h.2
      exact encloses_append (encloses_behind hkind (Source.encloses_render d source h.1 hsource))
        (encloses_clauseText (by decide) (Operand.encloses_standalone hon) hclause)

theorem encloses_joinTextsOf (d : Dialect) : (joins : List Join) → joinsGuarded d joins →
    ∀ {texts}, joinTextsOf d joins = .ok texts → ∀ text ∈ texts, d.Encloses text
  | [], _, texts, htexts => by
      cases htexts
      exact nofun
  | join :: rest, h, texts, htexts => by
      obtain ⟨text, htext, htexts⟩ := attempt_bind_eq_ok.mp htexts
      obtain ⟨others, hothers, htexts⟩ := attempt_bind_eq_ok.mp htexts
      cases htexts
      exact List.forall_mem_cons.mpr ⟨Join.encloses_render d join h.1 htext,
        encloses_joinTextsOf d rest h.2 hothers⟩

theorem Order.encloses_render (d : Dialect) : (entry : Order) → entry.Guarded d →
    ∀ {text}, entry.render d = .ok text → d.Encloses text
  | ⟨expr, direction⟩, h, text, htext => by
      obtain ⟨sql, hsql, htext⟩ := attempt_bind_eq_ok.mp htext
      cases htext
      have hdirection : direction.keyword ≠ .minus ∧ direction.keyword ≠ .slash := by
        cases direction <;> decide
      have hexpr := Operand.encloses_standalone (Condition.fits d expr h) hsql
      exact encloses_append (encloses_append hexpr encloses_blank)
        (encloses_keyword d hdirection)

theorem encloses_orderTexts (d : Dialect) : (entries : List Order) → ordersGuarded d entries →
    ∀ {texts}, orderTexts d entries = .ok texts → ∀ text ∈ texts, d.Encloses text
  | [], _, texts, htexts => by
      cases htexts
      exact nofun
  | entry :: rest, h, texts, htexts => by
      obtain ⟨text, htext, htexts⟩ := attempt_bind_eq_ok.mp htexts
      obtain ⟨others, hothers, htexts⟩ := attempt_bind_eq_ok.mp htexts
      cases htexts
      exact List.forall_mem_cons.mpr ⟨Order.encloses_render d entry h.1 htext,
        encloses_orderTexts d rest h.2 hothers⟩

theorem Select.encloses_render (d : Dialect) : (select : Select) → select.Guarded d →
    ∀ {text}, select.render d = .ok text → d.Encloses text
  | ⟨distinct, modifiers, columns, sources, joins, filter, group, having, order, limit, offset,
      forUpdate⟩, h, text, htext => by
      obtain ⟨hcolumns, hsources, hjoins, hfilter, hgroup, hhaving, horder⟩ := h
      change (if _ then _ else _) = Except.ok text at htext
      split at htext
      · cases htext
      obtain ⟨modifiersSql, hmodifiersSql, htext⟩ := attempt_bind_eq_ok.mp htext
      obtain ⟨columnsSql, hcolumnsSql, htext⟩ := attempt_bind_eq_ok.mp htext
      obtain ⟨sourcesSql, hsourcesSql, htext⟩ := attempt_bind_eq_ok.mp htext
      obtain ⟨joinsSql, hjoinsSql, htext⟩ := attempt_bind_eq_ok.mp htext
      obtain ⟨filterSql, hfilterSql, htext⟩ := attempt_bind_eq_ok.mp htext
      obtain ⟨groupSql, hgroupSql, htext⟩ := attempt_bind_eq_ok.mp htext
      obtain ⟨havingSql, hhavingSql, htext⟩ := attempt_bind_eq_ok.mp htext
      obtain ⟨orderSql, horderSql, htext⟩ := attempt_bind_eq_ok.mp htext
      rw [← Except.ok.inj htext]
      have hhead : d.Encloses (Keyword.select.text ++
          (if distinct then " " ++ Keyword.distinct.text else "") ++ modifiersSql ++ " ") :=
        encloses_append (encloses_append (encloses_append (encloses_keyword d (by decide))
          (encloses_marked (by decide) distinct)) (encloses_modifiersText hmodifiersSql))
          encloses_blank
      have hlist : d.Encloses
          (if columns.isEmpty then Keyword.star.text else columnListText columnsSql) := by
        split
        · exact encloses_keyword d (by decide)
        · exact encloses_columnListText (encloses_columnTexts d true columns hcolumns hcolumnsSql)
      have hfrom := encloses_commas (encloses_sourceTexts d sources hsources hsourcesSql)
      have hjoined := encloses_join (encloses_joinTextsOf d joins hjoins hjoinsSql)
      have hwhere := encloses_clauseText (by decide)
        (Operand.encloses_standalone (Condition.fits d filter hfilter)) hfilterSql
      have hgrouped : d.Encloses (if group.isEmpty then ""
          else " " ++ Keyword.groupBy.text ++ " " ++ columnListText groupSql) := by
        split
        · exact encloses_empty
        · exact encloses_behind (by decide)
            (encloses_columnListText (encloses_columnTexts d false group hgroup hgroupSql))
      have hchosen := encloses_clauseText (by decide)
        (Operand.encloses_standalone (Condition.fits d having hhaving)) hhavingSql
      have hordered := encloses_orderText (encloses_orderTexts d order horder horderSql)
      have hlocked : d.Encloses (if forUpdate then " " ++ Keyword.forUpdate.text else "") :=
        encloses_marked (by decide) forUpdate
      have hsources := encloses_append (encloses_append hhead hlist)
        (encloses_behind (by decide : Keyword.from ≠ .minus ∧ Keyword.from ≠ .slash) hfrom)
      have hall := encloses_append (encloses_append (encloses_append (encloses_append
        (encloses_append (encloses_append (encloses_append (encloses_append hsources hjoined) hwhere)
          hgrouped) hchosen) hordered) (encloses_limitText limit)) (encloses_offsetText limit offset))
        hlocked
      simpa only [String.append_assoc] using hall

end

end RecordMapper
