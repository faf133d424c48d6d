import RecordMapper.Proofs.Condition.Reading
import RecordMapper.Proofs.Condition.Truth

/-!
# Membership read back

A reader takes `IN` and `NOT IN` for a test of a name against the items between the parentheses.  An
empty list is written as a null, and with a null among the items no test is certain that a value is
missing: `IN` over no items is true of nothing, as it should be, but so is `NOT IN`.
-/

namespace RecordMapper

/-- A test of a value against some items. -/
structure Membership (α : Type) where
  negated : Bool
  items : List α

namespace Membership

variable {α β : Type}

def map (f : α → β) (test : Membership α) : Membership β :=
  ⟨test.negated, test.items.map f⟩

/-- What a test says of a stored value, if anything. -/
def truth (test : Membership Value) (stored : Value) : Option Bool :=
  let found := anyTrue (test.items.map fun item => stored.compare item.written)
  if test.negated then found.map (!·) else found

/-- The test whose items are written for a list of values. -/
def ofValues (negated : Bool) (values : List Value) : Membership Value :=
  ⟨negated, if values.isEmpty then [.null] else values⟩

end Membership

namespace Dialect

/-! ## Commas -/

/-- The lexemes of a word after its beginning.  A comma outside quotes is a word of its own. -/
def cutCommas (d : Dialect) : Quotes → List Char → List Char → List Lexeme
  | _, word, [] => Lexeme.ofWord word
  | .outside, word, c :: rest =>
      if c = ',' then Lexeme.ofWord word ++ .word "," :: cutCommas d .outside [] rest
      else cutCommas d (Quotes.next d .outside c) (word ++ [c]) rest
  | quotes, word, c :: rest => cutCommas d (quotes.next d c) (word ++ [c]) rest

/-- No comma outside quotes cuts the characters, which lead from one state to another. -/
def Uncut (d : Dialect) (quotes : Quotes) (text : List Char) (quotes' : Quotes) : Prop :=
  ∀ word rest, d.cutCommas quotes word (text ++ rest) = d.cutCommas quotes' (word ++ text) rest

variable {d : Dialect} {quotes quotes' quotes'' : Quotes} {text text' : List Char} {a b : String}

theorem uncut_nil : d.Uncut quotes [] quotes := by
  intro word rest
  rw [List.nil_append, List.append_nil]

theorem uncut_append (h : d.Uncut quotes text quotes') (h' : d.Uncut quotes' text' quotes'') :
    d.Uncut quotes (text ++ text') quotes'' := by
  intro word rest
  rw [List.append_assoc, h, h', List.append_assoc]

theorem uncut_outside {c : Char} (h : c ≠ ',') :
    d.Uncut .outside [c] (Quotes.next d .outside c) := by
  intro word rest
  rw [List.singleton_append, cutCommas, if_neg h]

theorem uncut_of_spans (h : d.Spans quotes text quotes') : d.Uncut quotes text quotes' := by
  induction text generalizing quotes with
  | nil =>
      cases h
      exact uncut_nil
  | cons c text ih =>
      obtain ⟨hquote, htext⟩ := h
      have hfirst : d.Uncut quotes [c] (quotes.next d c) := by
        cases quotes with
        | outside =>
            refine uncut_outside ?_
            rcases hquote rfl with rfl | rfl
            · decide
            · cases d <;> decide
        | inside quote => exact fun _ _ => rfl
        | protecting quote => exact fun _ _ => rfl
      exact uncut_append hfirst (ih htext)

theorem uncut_plain (h : text.all d.isPlain = true) (hcomma : ',' ∉ text) :
    d.Uncut .outside text .outside := by
  induction text with
  | nil => exact uncut_nil
  | cons c text ih =>
      rw [List.all_cons, Bool.and_eq_true] at h
      rw [List.mem_cons, not_or] at hcomma
      have hplain := h.1
      simp only [isPlain, Bool.and_eq_true, bne_iff_ne] at hplain
      have hfirst := uncut_outside (d := d) (Ne.symm hcomma.1)
      rw [Quotes.next, if_neg (by simp [hplain.1.2, hplain.2])] at hfirst
      exact uncut_append hfirst (ih h.2 hcomma.2)

/-- The text is one word, also for a reader that cuts words at commas. -/
structure IsItem (d : Dialect) (text : String) : Prop where
  word : d.IsWord text
  uncut : d.Uncut .outside text.toList .outside

theorem isItem_of_isTerm (h : d.IsTerm a) : d.IsItem a := by
  refine ⟨isWord_of_isTerm h, ?_⟩
  induction h with
  | plain _ hall hcomma => exact uncut_plain hall hcomma
  | quoted h => exact uncut_of_spans h.spans
  | append _ _ iha ihb =>
      rw [String.toList_append]
      exact uncut_append iha ihb

def cut (d : Dialect) : Lexeme → List Lexeme
  | .word text => d.cutCommas .outside [] text.toList
  | lexeme => [lexeme]

def cutAll (d : Dialect) (parts : List Lexeme) : List Lexeme :=
  parts.flatMap d.cut

theorem cutAll_cons (d : Dialect) (part : Lexeme) (parts : List Lexeme) :
    d.cutAll (part :: parts) = d.cut part ++ d.cutAll parts :=
  List.flatMap_cons

@[simp] theorem cut_blank (d : Dialect) : d.cut .blank = [.blank] :=
  rfl

@[simp] theorem cut_opening (d : Dialect) : d.cut .opening = [.opening] :=
  rfl

@[simp] theorem cut_closing (d : Dialect) : d.cut .closing = [.closing] :=
  rfl

theorem ofWord_toList (h : d.IsItem a) : Lexeme.ofWord a.toList = [.word a] := by
  rw [Lexeme.ofWord, if_neg (by simpa using h.word.nonempty), String.ofList_toList]

theorem cut_item (h : d.IsItem a) : d.cut (.word a) = [.word a] := by
  have hall := h.uncut [] []
  rw [List.append_nil, List.nil_append, cutCommas] at hall
  rw [cut, hall, ofWord_toList h]

theorem cut_comma (h : d.IsItem a) : d.cut (.word (a ++ ",")) = [.word a, .word ","] := by
  rw [cut, String.toList_append, h.uncut, List.nil_append]
  have hcomma : d.cutCommas .outside a.toList ",".toList =
      Lexeme.ofWord a.toList ++ .word "," :: Lexeme.ofWord [] := rfl
  rw [hcomma, ofWord_toList h]
  rfl

/-! ## Reading tests -/

def readItems : List Lexeme → Option (List String)
  | [.word text, .closing] => some [text]
  | .word text :: .word separator :: .blank :: rest =>
      if separator = "," then (readItems rest).map (text :: ·) else none
  | _ => none

def readList : List Lexeme → Option (List String)
  | .word word :: .blank :: .opening :: rest =>
      if word = Keyword.in.text then readItems rest else none
  | _ => none

/-- The test of a text in a dialect, with the name that is tested. -/
def readMembership (d : Dialect) (sql : String) : Option (String × Membership String) :=
  match d.cutAll (d.lexemes .outside [] sql.toList) with
  | .word name :: .blank :: .word word :: .blank :: rest =>
      if word = Keyword.not.text then (readList rest).map fun items => (name, ⟨true, items⟩)
      else (readList (.word word :: .blank :: rest)).map fun items => (name, ⟨false, items⟩)
  | _ => none

def listParts : List String → List Lexeme
  | [] => []
  | [text] => [.word text]
  | text :: next :: more => .word (text ++ ",") :: .blank :: listParts (next :: more)

theorem isItem_keyword (d : Dialect) {keyword : Keyword} (h : keyword ∈ [.not, .in]) :
    d.IsItem keyword.text := by
  have hplain : ∀ keyword ∈ [Keyword.not, .in], keyword.text.toList ≠ [] ∧
      keyword.text.toList.all d.isPlain = true ∧ ',' ∉ keyword.text.toList := by
    cases d <;> decide
  obtain ⟨hnonempty, hall, hcomma⟩ := hplain keyword h
  exact isItem_of_isTerm (.plain hnonempty hall hcomma)

theorem lexes_list {texts : List String} (hne : texts ≠ []) (h : ∀ text ∈ texts, d.IsItem text) :
    d.Lexes (", ".intercalate texts) (listParts texts) := by
  have hcomma : d.IsWord "," := isWord_plain (by decide) (by cases d <;> decide)
  induction texts with
  | nil => exact absurd rfl hne
  | cons text rest ih =>
      have htext := (h text List.mem_cons_self).word
      cases rest with
      | nil => simpa [listParts] using lexes_word htext
      | cons next rest =>
          have hrest := ih (List.cons_ne_nil _ _) fun other hother =>
            h other (List.mem_cons_of_mem text hother)
          have hsplit : text ++ ", " ++ ", ".intercalate (next :: rest) =
              text ++ "," ++ " " ++ ", ".intercalate (next :: rest) := by
            have hseparator : ", " = "," ++ " " := rfl
            rw [hseparator, ← String.append_assoc]
          rw [String.intercalate_cons_cons, hsplit]
          exact lexes_blank (lexes_word (isWord_append htext hcomma)) hrest

theorem readItems_listParts {texts : List String} (hne : texts ≠ [])
    (h : ∀ text ∈ texts, d.IsItem text) :
    readItems (d.cutAll (listParts texts ++ [.closing])) = some texts := by
  induction texts with
  | nil => exact absurd rfl hne
  | cons text rest ih =>
      have htext := h text List.mem_cons_self
      cases rest with
      | nil =>
          rw [listParts, List.singleton_append, cutAll_cons, cut_item htext]
          rfl
      | cons next rest =>
          have hrest := ih (List.cons_ne_nil _ _) fun other hother =>
            h other (List.mem_cons_of_mem text hother)
          rw [listParts, List.cons_append, List.cons_append, cutAll_cons, cutAll_cons,
            cut_comma htext, cut_blank, List.cons_append, List.cons_append, List.nil_append,
            List.singleton_append, readItems, if_pos rfl, hrest]
          rfl

def testWords (negated : Bool) : List String :=
  (if negated then [Keyword.not.text] else []) ++ [Keyword.in.text]

theorem readMembership_of_lexes {sql name : String} {negated : Bool} {texts : List String}
    (hname : d.IsItem name) (hne : texts ≠ []) (h : ∀ text ∈ texts, d.IsItem text)
    (hlexes : d.Lexes sql (.word name :: Reader.spacedParts (testWords negated) ++ .blank ::
      (.opening :: listParts texts ++ [.closing]))) :
    d.readMembership sql = some (name, ⟨negated, texts⟩) := by
  have hlexemes : d.lexemes .outside [] sql.toList =
      .word name :: (Reader.spacedParts (testWords negated) ++ .blank ::
        .opening :: (listParts texts ++ [.closing])) := by
    simpa using lexemes_of_lexes hlexes
  have hitems := readItems_listParts hne h
  have hnot : d.cut (.word Keyword.not.text) = [.word Keyword.not.text] :=
    cut_item (isItem_keyword d (by decide))
  have hin : d.cut (.word Keyword.in.text) = [.word Keyword.in.text] :=
    cut_item (isItem_keyword d (by decide))
  have hlist : ∀ negated, d.cutAll (Reader.spacedParts (testWords negated) ++ .blank ::
      .opening :: (listParts texts ++ [.closing])) =
        Reader.spacedParts (testWords negated) ++ .blank ::
          .opening :: d.cutAll (listParts texts ++ [.closing]) := by
    intro negated
    cases negated <;>
      simp [testWords, Reader.spacedParts, cutAll_cons, hin, hnot]
  have hne : Keyword.in.text ≠ Keyword.not.text := by decide
  rw [readMembership, hlexemes, cutAll_cons, cut_item hname, hlist]
  cases negated <;> simp [testWords, Reader.spacedParts, readList, hitems, hne]

/-! ## Written tests -/

def testOperator (negated : Bool) : Operator :=
  if negated then .notIn else .in

theorem asList_ofValues (d : Dialect) (negated : Bool) (values : List Value) :
    Operand.asList d ⟨.value (.array values), (Condition.value (.array values)).body d⟩ =
      .ok (", ".intercalate ((Membership.ofValues negated values).items.map d.literal)) := by
  cases values with
  | nil => simp [Operand.asList, Membership.ofValues, literal]
  | cons v rest => rfl

/-- A test of a field is read as the test of its name against the literals of the values, or against
a null where there are none. -/
theorem exists_test (d : Dialect) (ref : FieldRef) {values : List Value}
    (hvalues : ∀ v ∈ values, v.isScalar = true) (negated : Bool) :
    ∃ sql, (Condition.node (testOperator negated) [.field ref, .value (.array values)]).render d =
        .ok sql ∧
      d.readMembership sql =
        some (ref.render d, (Membership.ofValues negated values).map d.literal) := by
  have hbody : (Condition.node (testOperator negated)
      [.field ref, .value (.array values)]).body d =
        .ok (Reader.spaced (ref.render d) (testWords negated) ++ " " ++ parenthesize
          (", ".intercalate ((Membership.ofValues negated values).items.map d.literal))) := by
    have hlist := asList_ofValues d negated values
    cases negated with
    | false => exact body_member (.inl rfl) hlist
    | true => exact body_member (.inr rfl) hlist
  have hitems : ∀ text ∈ (Membership.ofValues negated values).items.map d.literal,
      d.IsItem text := by
    intro text htext
    obtain ⟨v, hv, rfl⟩ := List.mem_map.mp htext
    rw [Membership.ofValues] at hv
    cases values with
    | nil =>
        rw [List.mem_singleton.mp hv]
        exact isItem_of_isTerm (isTerm_literal d rfl)
    | cons first rest => exact isItem_of_isTerm (isTerm_literal d (hvalues v hv))
  have hne : (Membership.ofValues negated values).items.map d.literal ≠ [] := by
    cases values <;> simp [Membership.ofValues]
  have hname := isItem_of_isTerm (isTerm_field d ref)
  have hwords : ∀ word ∈ testWords negated, d.IsWord word := by
    have hnot : d.IsWord Keyword.not.text := (isItem_keyword d (by decide)).word
    have hin : d.IsWord Keyword.in.text := (isItem_keyword d (by decide)).word
    cases negated <;> simp [testWords, hnot, hin]
  have hlexes := lexes_blank (lexes_spaced (lexes_word hname.word) hwords)
    (lexes_parenthesize (lexes_list hne hitems))
  refine ⟨_, ?_, readMembership_of_lexes hname hne hitems hlexes⟩
  rw [Condition.render, Operand.standalone, hbody]
  rfl

end Dialect

/-! ## What tests say -/

namespace Value

/-- The value is written as itself, and not as null. -/
def hasLiteral (v : Value) : Bool :=
  !v.written.isNull

theorem compare_written {stored v : Value} (hstored : stored.isNull = false)
    (hv : v.isScalar = true) :
    stored.compare v.written = if v.hasLiteral then some (stored.agrees v) else none := by
  have hwritten : v.hasLiteral = true → v.written = v := by
    intro h
    cases v with
    | float x =>
        rw [hasLiteral, written] at h
        rw [written]
        split at h
        next hfinite => rw [if_pos hfinite]
        next => cases h
    | array items => cases hv
    | null | bool _ | integer _ | text _ | binary _ => rfl
  cases hliteral : v.hasLiteral with
  | false =>
      have hnull : v.written.isNull = true := by simpa [hasLiteral] using hliteral
      rw [compare, hnull, Bool.or_true]
      rfl
  | true =>
      have hnull : v.written.isNull = false := by simpa [hasLiteral] using hliteral
      rw [compare, hnull, hstored, hwritten hliteral]
      rfl

end Value

namespace Membership

variable {stored : Value} {items values : List Value}

theorem truth_mk_false :
    (Membership.mk false items).truth stored = some true ↔
      ∃ item ∈ items, stored.compare item.written = some true := by
  change anyTrue (items.map fun item => stored.compare item.written) = some true ↔ _
  rw [anyTrue_eq_true, List.mem_map]

theorem truth_mk_true :
    (Membership.mk true items).truth stored = some true ↔
      ∀ item ∈ items, stored.compare item.written = some false := by
  change (anyTrue (items.map fun item => stored.compare item.written)).map (!·) = some true ↔ _
  rw [Option.map_eq_some_iff]
  simp [anyTrue_eq_false]

theorem truth_in (hstored : stored.isNull = false) (hvalues : ∀ v ∈ values, v.isScalar = true) :
    (ofValues false values).truth stored = some true ↔
      ∃ v ∈ values, v.hasLiteral = true ∧ stored.agrees v = true := by
  rw [ofValues, truth_mk_false]
  cases values with
  | nil => simp [Value.compare, Value.written, Value.isNull]
  | cons first rest =>
      refine exists_congr fun v => and_congr_right fun hv => ?_
      rw [Value.compare_written hstored (hvalues v hv)]
      simp

theorem truth_notIn (hstored : stored.isNull = false)
    (hvalues : ∀ v ∈ values, v.isScalar = true) :
    (ofValues true values).truth stored = some true ↔
      values ≠ [] ∧ ∀ v ∈ values, v.hasLiteral = true ∧ stored.agrees v = false := by
  rw [ofValues, truth_mk_true]
  cases values with
  | nil => simp [Value.compare, Value.written, Value.isNull]
  | cons first rest =>
      rw [and_iff_right (List.cons_ne_nil _ _)]
      refine forall₂_congr fun v hv => ?_
      rw [Value.compare_written hstored (hvalues v hv)]
      simp

end Membership

namespace Condition

/-- In every dialect a test of a field against scalar values has a text, and the text is read as the
test of its name against the literals.  Of a stored value that is not null, `IN` is true exactly if
the value agrees with one that has a literal.  `NOT IN` is true exactly if all have a literal and
the value agrees with none, and there is one at all. -/
theorem tests_membership (d : Dialect) (ref : FieldRef) {values : List Value}
    (hvalues : ∀ v ∈ values, v.isScalar = true) {stored : Value}
    (hstored : stored.isNull = false) :
    (∃ sql, (inList (.field ref) values).render d = .ok sql ∧
      d.readMembership sql =
        some (ref.render d, (Membership.ofValues false values).map d.literal)) ∧
    (∃ sql, (notInList (.field ref) values).render d = .ok sql ∧
      d.readMembership sql =
        some (ref.render d, (Membership.ofValues true values).map d.literal)) ∧
    ((Membership.ofValues false values).truth stored = some true ↔
      ∃ v ∈ values, v.hasLiteral = true ∧ stored.agrees v = true) ∧
    ((Membership.ofValues true values).truth stored = some true ↔
      values ≠ [] ∧ ∀ v ∈ values, v.hasLiteral = true ∧ stored.agrees v = false) :=
  ⟨Dialect.exists_test d ref hvalues false, Dialect.exists_test d ref hvalues true,
    Membership.truth_in hstored hvalues, Membership.truth_notIn hstored hvalues⟩

/-- The number two among others, and a text with all that could end an item. -/
theorem tests_membership_two :
    (inList (.field ⟨none, "id"⟩) [.integer 1, .text "a, (b)", .integer 2]).render .generic =
        .ok "\"id\" IN (1, 'a, (b)', 2)" ∧
      (Membership.ofValues false [.integer 1, .text "a, (b)", .integer 2]).truth (.integer 2) =
        some true ∧
      (Membership.ofValues true [.integer 1, .text "a, (b)", .integer 2]).truth (.integer 2) ≠
        some true := by
  have hvalues : ∀ v ∈ [Value.integer 1, .text "a, (b)", .integer 2], v.isScalar = true := by decide
  have hstored : (Value.integer 2).isNull = false := rfl
  obtain ⟨-, -, hin, hnotIn⟩ := tests_membership .generic ⟨none, "id"⟩ hvalues hstored
  refine ⟨by rfl, hin.mpr ⟨.integer 2, by simp, rfl, by decide⟩, fun h => ?_⟩
  have hother := ((hnotIn.mp h).2 (.integer 2) (by simp)).2
  cases hother

/-- No value is certain to be missing from an empty list. -/
theorem notInList_nil_selects_nothing :
    (notInList (.field ⟨none, "id"⟩) []).render .generic = .ok "\"id\" NOT IN (NULL)" ∧
      Dialect.readMembership .generic "\"id\" NOT IN (NULL)" = some ("\"id\"", ⟨true, ["NULL"]⟩) ∧
      (Membership.ofValues true []).truth (.integer 1) = none ∧
      ¬ ∃ v ∈ ([] : List Value), (Value.integer 1).agrees v = true := by
  exact ⟨by rfl, by rfl, by rfl, by simp⟩

end Condition

end RecordMapper
