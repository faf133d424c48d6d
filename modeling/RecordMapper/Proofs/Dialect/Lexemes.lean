import RecordMapper.Condition.FieldRef
import RecordMapper.Proofs.Dialect.Quotes
import RecordMapper.Statement.Rendering

/-!
# Lexemes

A reader of SQL cuts a text at the blanks and the parentheses outside quotes.  Quoted names and
literals are single words, whatever they hold.
-/

namespace RecordMapper

inductive Lexeme
  | blank
  | opening
  | closing
  | word (text : String)
  deriving DecidableEq

namespace Lexeme

def ofChar? : Char → Option Lexeme
  | ' ' => some blank
  | '(' => some opening
  | ')' => some closing
  | _ => none

def ofWord (word : List Char) : List Lexeme :=
  if word.isEmpty then [] else [.word (String.ofList word)]

end Lexeme

namespace Dialect

def lexemes (d : Dialect) : Quotes → List Char → List Char → List Lexeme
  | _, word, [] => Lexeme.ofWord word
  | .outside, word, c :: rest =>
      match Lexeme.ofChar? c with
      | some lexeme => Lexeme.ofWord word ++ lexeme :: lexemes d .outside [] rest
      | none => lexemes d (Quotes.next d .outside c) (word ++ [c]) rest
  | quotes, word, c :: rest => lexemes d (quotes.next d c) (word ++ [c]) rest

def InWord (d : Dialect) (quotes : Quotes) (text : List Char) (quotes' : Quotes) : Prop :=
  ∀ word rest, d.lexemes quotes word (text ++ rest) = d.lexemes quotes' (word ++ text) rest

variable {d : Dialect} {quotes quotes' quotes'' : Quotes} {text text' : List Char}

theorem inWord_nil : d.InWord quotes [] quotes := by
  intro word rest
  rw [List.nil_append, List.append_nil]

theorem inWord_append (h : d.InWord quotes text quotes') (h' : d.InWord quotes' text' quotes'') :
    d.InWord quotes (text ++ text') quotes'' := by
  intro word rest
  rw [List.append_assoc, h, h', List.append_assoc]

theorem inWord_outside {c : Char} (h : Lexeme.ofChar? c = none) :
    d.InWord .outside [c] (Quotes.next d .outside c) := by
  intro word rest
  rw [List.singleton_append, lexemes, h]

def isPlain (d : Dialect) (c : Char) : Bool :=
  (Lexeme.ofChar? c).isNone && c != '\'' && c != d.quoteChar

theorem inWord_plain (h : text.all d.isPlain = true) : d.InWord .outside text .outside := by
  induction text with
  | nil => exact inWord_nil
  | cons c text ih =>
      rw [List.all_cons, Bool.and_eq_true] at h
      obtain ⟨hc, htext⟩ := h
      simp only [isPlain, Bool.and_eq_true, Option.isNone_iff_eq_none, bne_iff_ne] at hc
      obtain ⟨⟨hbreak, hquote⟩, hname⟩ := hc
      have hfirst : d.InWord .outside [c] .outside := by
        have hnext := inWord_outside (d := d) hbreak
        rwa [Quotes.next, if_neg (by simp [hquote, hname])] at hnext
      exact inWord_append hfirst (ih htext)

theorem ofChar?_quote {quote : Char} (h : d.IsQuote quote) : Lexeme.ofChar? quote = none := by
  rcases h with rfl | rfl
  · rfl
  · cases d <;> rfl

theorem inWord_of_spans (h : d.Spans quotes text quotes') : d.InWord quotes text quotes' := by
  induction text generalizing quotes with
  | nil =>
      cases h
      exact inWord_nil
  | cons c text ih =>
      obtain ⟨hquote, htext⟩ := h
      have hfirst : d.InWord quotes [c] (quotes.next d c) := by
        cases quotes with
        | outside => exact inWord_outside (ofChar?_quote (hquote rfl))
        | inside quote => exact fun _ _ => rfl
        | protecting quote => exact fun _ _ => rfl
      exact inWord_append hfirst (ih htext)

/-! ## Words -/

structure IsWord (d : Dialect) (text : String) : Prop where
  nonempty : text.toList ≠ []
  whole : d.InWord .outside text.toList .outside

variable {a b : String}

theorem isWord_append (ha : d.IsWord a) (hb : d.IsWord b) : d.IsWord (a ++ b) := by
  refine ⟨?_, ?_⟩
  · rw [String.toList_append]
    exact List.append_ne_nil_of_left_ne_nil ha.nonempty _
  · rw [String.toList_append]
    exact inWord_append ha.whole hb.whole

theorem isWord_plain (hnonempty : a.toList ≠ []) (h : a.toList.all d.isPlain = true) : d.IsWord a :=
  ⟨hnonempty, inWord_plain h⟩

theorem isWord_keyword (d : Dialect) {keyword : Keyword}
    (h : keyword ∈ [.and, .or, .not, .between, .in]) : d.IsWord keyword.text := by
  have hplain : ∀ keyword ∈ [Keyword.and, .or, .not, .between, .in],
      keyword.text.toList ≠ [] ∧ keyword.text.toList.all d.isPlain = true := by
    cases d <;> decide
  exact isWord_plain (hplain keyword h).1 (hplain keyword h).2

theorem isWord_quoted (h : d.IsQuoted a) : d.IsWord a := by
  obtain ⟨quote, inner, -, htext⟩ := h.ends
  exact ⟨by simp [htext], inWord_of_spans h.spans⟩

/-! ## Literals and fields -/

/-- A text of plain characters and quoted parts, such as a literal or the name of a field. -/
inductive IsTerm (d : Dialect) : String → Prop
  | plain {a : String} (nonempty : a.toList ≠ []) (all : a.toList.all d.isPlain = true)
      (comma : ',' ∉ a.toList) : IsTerm d a
  | quoted {a : String} (h : d.IsQuoted a) : IsTerm d a
  | append {a b : String} (ha : IsTerm d a) (hb : IsTerm d b) : IsTerm d (a ++ b)

theorem isWord_of_isTerm (h : d.IsTerm a) : d.IsWord a := by
  induction h with
  | plain hnonempty hall _ => exact isWord_plain hnonempty hall
  | quoted h => exact isWord_quoted h
  | append _ _ iha ihb => exact isWord_append iha ihb

theorem isPlain_of_isDecimal (d : Dialect) {c : Char} (h : isDecimal c = true) :
    d.isPlain c = true := by
  have hne : ∀ other : Char, isDecimal other = false → c ≠ other := by
    rintro other hother rfl
    rw [h] at hother
    cases hother
  have hbreak : Lexeme.ofChar? c = none := by
    unfold Lexeme.ofChar?
    split
    · exact absurd rfl (hne ' ' rfl)
    · exact absurd rfl (hne '(' rfl)
    · exact absurd rfl (hne ')' rfl)
    · rfl
  have hname : c ≠ d.quoteChar := hne _ (by cases d <;> rfl)
  simp [isPlain, hbreak, hne '\'' rfl, hname]

/-- The word neither joins conditions nor asks for bounds. -/
def IsInert (text : String) : Prop :=
  text ≠ Keyword.and.text ∧ text ≠ Keyword.or.text ∧ text ≠ Keyword.between.text

instance (text : String) : Decidable (IsInert text) :=
  inferInstanceAs (Decidable (_ ∧ _ ∧ _))

theorem isInert_of_head {text : String} {c : Char} (hhead : text.toList.head? = some c)
    (hc : c ∉ ['A', 'B', 'O']) : IsInert text := by
  refine ⟨?_, ?_, ?_⟩ <;>
  · rintro rfl
    cases hhead
    exact hc (by decide)

theorem isTerm_number (d : Dialect) (h : IsNumber a) : d.IsTerm a := by
  obtain ⟨sign, magnitude, rfl, hsign, hnonempty, hdecimal⟩ := h
  have hmagnitude : d.IsTerm magnitude :=
    .plain hnonempty (List.all_eq_true.mpr fun c hc => isPlain_of_isDecimal d (hdecimal c hc))
      fun hcomma => absurd (hdecimal _ hcomma) (by decide)
  rcases hsign with rfl | rfl
  · rwa [String.empty_append]
  · exact .append (.plain (by decide) (by cases d <;> decide) (by decide)) hmagnitude

theorem isInert_number (h : IsNumber a) : IsInert a := by
  obtain ⟨sign, magnitude, rfl, hsign, hnonempty, hdecimal⟩ := h
  rcases hsign with rfl | rfl
  · rw [String.empty_append]
    obtain ⟨c, rest, htext⟩ := List.exists_cons_of_ne_nil hnonempty
    refine isInert_of_head (c := c) (by rw [htext]; rfl) fun hc => ?_
    have hfirst := hdecimal c (by simp [htext])
    simp only [List.mem_cons, List.not_mem_nil, or_false] at hc
    rcases hc with rfl | rfl | rfl <;> cases hfirst
  · exact isInert_of_head (c := '-') (by simp) (by decide)

end Dialect

namespace FieldRef

def NamesField (ref : FieldRef) : Prop :=
  ref.name ≠ "*" ∧ ∀ table ∈ ref.table, ∀ part ∈ Text.split '.' table, part ≠ "*"

end FieldRef

namespace Dialect

variable {d : Dialect} {a b : String}

theorem isInert_quoted (h : d.IsQuoted a) : IsInert a := by
  obtain ⟨quote, inner, hquote, htext⟩ := h.ends
  refine isInert_of_head (c := quote) (by rw [htext]; rfl) ?_
  rcases hquote with rfl | rfl
  · decide
  · cases d <;> decide

theorem isTerm_scalarText (h : d.IsScalarText a) : d.IsTerm a := by
  cases h with
  | word htext =>
      have hwords : ∀ text ∈ ["NULL", "TRUE", "FALSE"],
          text.toList ≠ [] ∧ text.toList.all d.isPlain = true ∧ ',' ∉ text.toList := by
        cases d <;> decide
      obtain ⟨hnonempty, hplain, hcomma⟩ := hwords _ htext
      exact .plain hnonempty hplain hcomma
  | number hnumber => exact isTerm_number d hnumber
  | quoted hmark hquoted =>
      rcases hmark with rfl | rfl
      · rw [String.empty_append]
        exact .quoted hquoted
      · exact .append (.plain (by decide) (by cases d <;> decide) (by decide)) (.quoted hquoted)

theorem isInert_scalarText (h : d.IsScalarText a) : IsInert a := by
  cases h with
  | word htext =>
      have hwords : ∀ text ∈ ["NULL", "TRUE", "FALSE"], IsInert text := by decide
      exact hwords _ htext
  | number hnumber => exact isInert_number hnumber
  | quoted hmark hquoted =>
      rcases hmark with rfl | rfl
      · rw [String.empty_append]
        exact isInert_quoted hquoted
      · exact isInert_of_head (c := 'X') (by simp) (by decide)

theorem isTerm_literal (d : Dialect) {v : Value} (h : v.isScalar = true) :
    d.IsTerm (d.literal v) :=
  isTerm_scalarText (isScalarText_literal d h)

theorem isWord_literal (d : Dialect) {v : Value} (h : v.isScalar = true) :
    d.IsWord (d.literal v) ∧ IsInert (d.literal v) :=
  ⟨isWord_of_isTerm (isTerm_literal d h), isInert_scalarText (isScalarText_literal d h)⟩

theorem ne_empty_of_isWord (h : d.IsWord a) : a ≠ "" := by
  rintro rfl
  exact h.nonempty rfl

theorem literal_ne_empty (d : Dialect) (v : Value) : d.literal v ≠ "" := by
  cases hscalar : v.isScalar with
  | true => exact ne_empty_of_isWord (isWord_literal d hscalar).1
  | false =>
      cases v with
      | array items => simp [literal]
      | _ => cases hscalar

theorem isTerm_quotePart (d : Dialect) (part : String) : d.IsTerm (d.quotePart part) := by
  rw [quotePart]
  split
  next hstar =>
      rw [hstar]
      exact .plain (by decide) (by cases d <;> decide) (by decide)
  next => exact .quoted (isQuoted_quoteIdentifier d part)

theorem isTerm_dot (d : Dialect) : d.IsTerm "." :=
  .plain (by decide) (by cases d <;> decide) (by decide)

theorem isTerm_intercalate (d : Dialect) {parts : List String} (hne : parts ≠ []) :
    d.IsTerm (".".intercalate (parts.map d.quotePart)) := by
  induction parts with
  | nil => exact absurd rfl hne
  | cons part rest ih =>
      have hpart := isTerm_quotePart d part
      cases rest with
      | nil => simpa using hpart
      | cons next rest =>
          rw [List.map_cons, List.map_cons, String.intercalate_cons_cons]
          exact .append (.append hpart (isTerm_dot d)) (ih (List.cons_ne_nil _ _))

theorem isTerm_quotePath (d : Dialect) (path : String) : d.IsTerm (d.quotePath path) :=
  isTerm_intercalate d (by simp [Text.split, Text.segments_ne_nil])

/-- A reference is a term, also where a star stands in it. -/
theorem isTerm_field (d : Dialect) (ref : FieldRef) : d.IsTerm (ref.render d) := by
  have hpart := isTerm_quotePart d ref.name
  rw [FieldRef.render]
  cases ref.table with
  | none => exact hpart
  | some table => exact .append (.append (isTerm_quotePath d table) (isTerm_dot d)) hpart

theorem isWord_field (d : Dialect) (ref : FieldRef) : d.IsWord (ref.render d) :=
  isWord_of_isTerm (isTerm_field d ref)

structure IsName (d : Dialect) (text : String) : Prop where
  word : d.IsWord text
  head : text.toList.head? = some d.quoteChar

theorem isName_append (ha : d.IsName a) (hb : d.IsWord b) : d.IsName (a ++ b) := by
  refine ⟨isWord_append ha.word hb, ?_⟩
  rw [String.toList_append, List.head?_append, ha.head]
  rfl

theorem isName_quotePart (d : Dialect) {part : String} (h : part ≠ "*") :
    d.IsName (d.quotePart part) := by
  rw [quotePart, if_neg h]
  exact ⟨isWord_quoted (isQuoted_quoteIdentifier d part),
    by simp [quoteIdentifier, Quoting.enclose]⟩

theorem isWord_dot (d : Dialect) : d.IsWord "." :=
  isWord_of_isTerm (isTerm_dot d)

theorem isName_intercalate (d : Dialect) {parts : List String} (hne : parts ≠ [])
    (h : ∀ part ∈ parts, part ≠ "*") : d.IsName (".".intercalate (parts.map d.quotePart)) := by
  cases parts with
  | nil => exact absurd rfl hne
  | cons part rest =>
      have hpart := isName_quotePart d (h part List.mem_cons_self)
      cases rest with
      | nil => simpa using hpart
      | cons next rest =>
          have hrest := isWord_of_isTerm (isTerm_intercalate d (List.cons_ne_nil next rest))
          rw [List.map_cons, List.map_cons, String.intercalate_cons_cons]
          exact isName_append (isName_append hpart (isWord_dot d)) hrest

theorem isName_quotePath (d : Dialect) {path : String}
    (h : ∀ part ∈ Text.split '.' path, part ≠ "*") : d.IsName (d.quotePath path) := by
  refine isName_intercalate d ?_ h
  simp [Text.split, Text.segments_ne_nil]

theorem isName_field (d : Dialect) {ref : FieldRef} (h : ref.NamesField) :
    d.IsName (ref.render d) := by
  obtain ⟨hname, htable⟩ := h
  have hpart := isName_quotePart d hname
  rw [FieldRef.render]
  cases htableName : ref.table with
  | none => exact hpart
  | some table =>
      have hpath := isName_quotePath d (htable table htableName)
      exact isName_append (isName_append hpath (isWord_dot d)) hpart.word

theorem IsName.ne_not (h : d.IsName a) : a ≠ Keyword.not.text := by
  rintro rfl
  have hhead := h.head
  cases d <;> cases hhead

/-! ## Texts of several words -/

def Breaks (rest : List Char) : Prop :=
  ∀ c ∈ rest.head?, (Lexeme.ofChar? c).isSome = true

/-- The text falls into lexemes, whatever stands behind it at some distance. -/
def Lexes (d : Dialect) (text : String) (parts : List Lexeme) : Prop :=
  ∀ rest, Breaks rest → d.lexemes .outside [] (text.toList ++ rest) =
    parts ++ d.lexemes .outside [] rest

variable {parts parts' : List Lexeme}

theorem lexes_word (h : d.IsWord a) : d.Lexes a [.word a] := by
  intro rest hrest
  rw [h.whole, List.nil_append]
  have hword : Lexeme.ofWord a.toList = [.word a] := by
    rw [Lexeme.ofWord, if_neg (by simpa using h.nonempty), String.ofList_toList]
  cases rest with
  | nil => exact hword
  | cons c rest =>
      have hbreak := hrest c rfl
      rw [lexemes, lexemes]
      cases hc : Lexeme.ofChar? c with
      | none =>
          rw [hc] at hbreak
          cases hbreak
      | some lexeme =>
          dsimp only
          rw [hword]
          rfl

theorem lexemes_of_lexes (h : d.Lexes a parts) : d.lexemes .outside [] a.toList = parts := by
  have hend : Breaks [] := by
    intro c hc
    cases hc
  simpa [lexemes, Lexeme.ofWord] using h [] hend

theorem lexes_blank (ha : d.Lexes a parts) (hb : d.Lexes b parts') :
    d.Lexes (a ++ " " ++ b) (parts ++ .blank :: parts') := by
  intro rest hrest
  rw [String.toList_append, String.toList_append, List.append_assoc, List.append_assoc,
    ha _ (by simp [Breaks, Lexeme.ofChar?])]
  have hblank : d.lexemes .outside [] (" ".toList ++ (b.toList ++ rest)) =
      .blank :: d.lexemes .outside [] (b.toList ++ rest) := rfl
  rw [hblank, hb rest hrest, List.append_assoc]
  rfl

theorem lexes_parenthesize (h : d.Lexes a parts) :
    d.Lexes (parenthesize a) (.opening :: parts ++ [.closing]) := by
  intro rest hrest
  have hopening : d.lexemes .outside [] ((parenthesize a).toList ++ rest) =
      .opening :: d.lexemes .outside [] (a.toList ++ (')' :: rest)) := by
    simp [parenthesize, lexemes, Lexeme.ofChar?, Lexeme.ofWord]
  have hclosing : d.lexemes .outside [] (')' :: rest) =
      .closing :: d.lexemes .outside [] rest := rfl
  rw [hopening, h _ (by simp [Breaks, Lexeme.ofChar?]), hclosing]
  simp

end Dialect

end RecordMapper
