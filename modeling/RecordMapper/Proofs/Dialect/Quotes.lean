import RecordMapper.Dialect.Literal

/-!
# Quoted texts and numbers

A reader of SQL takes what stands in quotes as it is.  A quote that is written twice closes and opens
again, so that it needs no rule of its own; a backslash protects the next character where the dialect
says so.  A literal of a value that is no array is a short word, a number, or stands in quotes,
whatever it holds.
-/

namespace RecordMapper

/-- Whether a reader stands in quotes, and whether the next character is protected. -/
inductive Quotes
  | outside
  | inside (quote : Char)
  | protecting (quote : Char)

namespace Quotes

def next (d : Dialect) : Quotes → Char → Quotes
  | outside, c => if c = '\'' ∨ c = d.quoteChar then inside c else outside
  | inside quote, c =>
      if c = quote then outside
      else if d.escapesBackslash = true ∧ quote = '\'' ∧ c = '\\' then protecting quote
      else inside quote
  | protecting quote, _ => inside quote

end Quotes

namespace Dialect

def IsQuote (d : Dialect) (quote : Char) : Prop :=
  quote = '\'' ∨ quote = d.quoteChar

/-- The text leads from one state to another, and nothing stands outside quotes but what opens
them. -/
def Spans (d : Dialect) : Quotes → List Char → Quotes → Prop
  | quotes, [], quotes' => quotes = quotes'
  | quotes, c :: rest, quotes' =>
      (quotes = .outside → d.IsQuote c) ∧ d.Spans (quotes.next d c) rest quotes'

variable {d : Dialect} {quotes quotes' quotes'' : Quotes} {text text' : List Char}

theorem spans_nil : d.Spans quotes [] quotes :=
  rfl

theorem spans_append (h : d.Spans quotes text quotes') (h' : d.Spans quotes' text' quotes'') :
    d.Spans quotes (text ++ text') quotes'' := by
  induction text generalizing quotes with
  | nil =>
      cases h
      exact h'
  | cons c text ih => exact ⟨h.1, ih h.2⟩

theorem spans_inside (quote c : Char) :
    d.Spans (.inside quote) [c] (Quotes.next d (.inside quote) c) :=
  ⟨nofun, rfl⟩

theorem spans_protecting (quote c : Char) : d.Spans (.protecting quote) [c] (.inside quote) :=
  ⟨nofun, rfl⟩

theorem next_quote {quote : Char} (h : d.IsQuote quote) :
    Quotes.next d .outside quote = .inside quote := by
  have hopen : quote = '\'' ∨ quote = d.quoteChar := h
  rw [Quotes.next, if_pos hopen]

theorem spans_open {quote : Char} (h : d.IsQuote quote) :
    d.Spans .outside [quote] (.inside quote) :=
  ⟨fun _ => h, next_quote h⟩

theorem spans_close (quote : Char) : d.Spans (.inside quote) [quote] .outside := by
  have hnext := spans_inside (d := d) quote quote
  rwa [Quotes.next, if_pos rfl] at hnext

/-- What must be doubled in quotes is doubled, and nothing else but the quote and what protects. -/
structure Doubles (d : Dialect) (quote : Char) (special : Char → Bool) : Prop where
  itself : special quote = true
  others : ∀ c, c ≠ quote →
    (special c = true ↔ d.escapesBackslash = true ∧ quote = '\'' ∧ c = '\\')

theorem spans_double {quote : Char} {special : Char → Bool} (hquote : d.IsQuote quote)
    (h : d.Doubles quote special) (text : List Char) :
    d.Spans (.inside quote) (Quoting.double special text) (.inside quote) := by
  induction text with
  | nil => exact spans_nil
  | cons c text ih =>
      have hsplit : Quoting.double special (c :: text) =
          (if special c then [c, c] else [c]) ++ Quoting.double special text := rfl
      rw [hsplit]
      refine spans_append ?_ ih
      by_cases hc : c = quote
      · subst hc
        -- the first of the two closes the quotes, the second opens them again
        rw [if_pos h.itself]
        exact spans_append (spans_close c) (spans_open hquote)
      · have hnext := spans_inside (d := d) quote c
        rw [Quotes.next, if_neg hc] at hnext
        by_cases hspecial : special c = true
        · rw [if_pos ((h.others c hc).mp hspecial)] at hnext
          -- of two backslashes the first protects the second
          rw [if_pos hspecial]
          exact spans_append hnext (spans_protecting quote c)
        · rw [if_neg fun hescape => hspecial ((h.others c hc).mpr hescape)] at hnext
          rwa [if_neg hspecial]

theorem doubles_identifier (d : Dialect) : d.Doubles d.quoteChar (· == d.quoteChar) := by
  refine ⟨beq_self_eq_true _, fun c hc => ?_⟩
  have hname : d.quoteChar ≠ '\'' := by cases d <;> decide
  simp [hc, hname]

theorem doubles_text (d : Dialect) : d.Doubles '\'' d.isDoubledInText := by
  refine ⟨rfl, fun c hc => ?_⟩
  simp [isDoubledInText, hc]

theorem spans_clean {quote : Char} {text : List Char}
    (h : ∀ c ∈ text, c ≠ quote ∧ ¬ (d.escapesBackslash = true ∧ c = '\\')) :
    d.Spans (.inside quote) text (.inside quote) := by
  induction text with
  | nil => exact spans_nil
  | cons c text ih =>
      obtain ⟨hc, hescape⟩ := h c List.mem_cons_self
      have hnext := spans_inside (d := d) quote c
      rw [Quotes.next, if_neg hc, if_neg fun hall => hescape ⟨hall.1, hall.2.2⟩] at hnext
      exact spans_append hnext (ih fun other hother => h other (List.mem_cons_of_mem c hother))

/-! ## Quoted texts -/

structure IsQuoted (d : Dialect) (text : String) : Prop where
  spans : d.Spans .outside text.toList .outside
  /-- What the text begins and ends with. -/
  ends : ∃ quote inner, d.IsQuote quote ∧ text.toList = quote :: (inner ++ [quote])

theorem isQuoted_ofList {quote : Char} {inner : List Char} (hquote : d.IsQuote quote)
    (h : d.Spans (.inside quote) inner (.inside quote)) :
    d.IsQuoted (String.ofList (quote :: (inner ++ [quote]))) := by
  refine ⟨?_, quote, inner, hquote, String.toList_ofList⟩
  rw [String.toList_ofList]
  exact spans_append (spans_open hquote) (spans_append h (spans_close quote))

theorem isQuoted_quoteIdentifier (d : Dialect) (name : String) :
    d.IsQuoted (d.quoteIdentifier name) :=
  isQuoted_ofList (.inr rfl) (spans_double (.inr rfl) (doubles_identifier d) name.toList)

theorem isQuoted_quoteText (d : Dialect) (text : String) : d.IsQuoted (d.quoteText text) :=
  isQuoted_ofList (.inl rfl) (spans_double (.inl rfl) (doubles_text d) text.toList)

theorem hexByte_clean (byte : UInt8) : ∀ c ∈ Text.hexByte byte,
    (c ≠ '\'' ∧ c ≠ '\\') ∧ c.toUpper ≠ '\'' ∧ c.toUpper ≠ '\\' := by
  have hdigit : ∀ n < 16, (Nat.digitChar n ≠ '\'' ∧ Nat.digitChar n ≠ '\\') ∧
      (Nat.digitChar n).toUpper ≠ '\'' ∧ (Nat.digitChar n).toUpper ≠ '\\' := by decide
  have hbyte : byte.toNat < 256 := byte.toNat_lt
  intro c hc
  simp only [Text.hexByte, List.mem_cons, List.not_mem_nil, or_false] at hc
  rcases hc with rfl | rfl
  · exact hdigit _ (by omega)
  · exact hdigit _ (by omega)

theorem hexBytes_clean (bytes : List UInt8) : ∀ c ∈ Text.hexBytes bytes,
    (c ≠ '\'' ∧ c ≠ '\\') ∧ c.toUpper ≠ '\'' ∧ c.toUpper ≠ '\\' := by
  intro c hc
  obtain ⟨byte, -, hc⟩ := List.mem_flatMap.mp hc
  exact hexByte_clean byte c hc

theorem exists_quoteBinary (d : Dialect) (bytes : List UInt8) :
    ∃ mark quoted, d.quoteBinary bytes = mark ++ quoted ∧ (mark = "" ∨ mark = "X") ∧
      d.IsQuoted quoted := by
  have hdigits := hexBytes_clean bytes
  have hcapital : ∀ d : Dialect, ∀ c ∈ (Text.hexBytes bytes).map Char.toUpper,
      c ≠ '\'' ∧ ¬ (d.escapesBackslash = true ∧ c = '\\') := by
    intro d c hc
    obtain ⟨digit, hdigit, rfl⟩ := List.mem_map.mp hc
    exact ⟨(hdigits digit hdigit).2.1, fun h => (hdigits digit hdigit).2.2 h.2⟩
  have hmarked : ∀ d : Dialect, d.IsQuoted
      (String.ofList ('\'' :: ((Text.hexBytes bytes).map Char.toUpper ++ ['\'']))) :=
    fun d => isQuoted_ofList (.inl rfl) (spans_clean (hcapital d))
  have htext : String.ofList ("X'".toList ++ (Text.hexBytes bytes).map Char.toUpper ++ ['\'']) =
      "X" ++ String.ofList ('\'' :: ((Text.hexBytes bytes).map Char.toUpper ++ ['\''])) := by
    simp
  cases d with
  | postgresql =>
      -- without escapes a backslash is a character like others
      have hclean : ∀ c ∈ '\\' :: 'x' :: Text.hexBytes bytes,
          c ≠ '\'' ∧ ¬ (escapesBackslash postgresql = true ∧ c = '\\') := by
        intro c hc
        refine ⟨?_, nofun⟩
        simp only [List.mem_cons] at hc
        rcases hc with rfl | rfl | hc
        · decide
        · decide
        · exact (hdigits c hc).1.1
      exact ⟨"", _, (String.empty_append).symm, .inl rfl,
        isQuoted_ofList (.inl rfl) (spans_clean hclean)⟩
  | generic | sqlite | mysql => exact ⟨"X", _, htext, .inr rfl, hmarked _⟩

/-! ## Numbers -/

def isDecimal (c : Char) : Bool :=
  c.isDigit || c == '.'

def IsNumber (text : String) : Prop :=
  ∃ sign magnitude, text = sign ++ magnitude ∧ (sign = "" ∨ sign = "-") ∧
    magnitude.toList ≠ [] ∧ ∀ c ∈ magnitude.toList, isDecimal c = true

theorem isDecimal_toDigits (n : Nat) : ∀ c ∈ Nat.toDigits 10 n, isDecimal c = true := by
  intro c hc
  simp [isDecimal, Nat.isDigit_of_mem_toDigits (by decide) (by decide) hc]

theorem isNumber_nat (n : Nat) : IsNumber (toString n) := by
  refine ⟨"", toString n, (String.empty_append).symm, .inl rfl, ?_, ?_⟩
  · change n.repr.toList ≠ []
    simp [Nat.repr]
  · change ∀ c ∈ n.repr.toList, isDecimal c = true
    simpa [Nat.repr] using isDecimal_toDigits n

theorem isNumber_int (n : Int) : IsNumber (toString n) := by
  cases n with
  | ofNat n => exact isNumber_nat n
  | negSucc n =>
      refine ⟨"-", (n + 1).repr, rfl, .inr rfl, ?_, ?_⟩
      · simp [Nat.repr]
      · simpa [Nat.repr] using isDecimal_toDigits (n + 1)

theorem isDecimal_positional (n : Decimal) :
    ∀ c ∈ (n.positional "").toList, isDecimal c = true := by
  have hdigits : ∀ c ∈ n.digitText, isDecimal c = true := isDecimal_toDigits n.digits
  have hleading : ∀ c ∈ "0.".toList, isDecimal c = true := List.all_eq_true.mp (by decide)
  intro c hc
  unfold Decimal.positional at hc
  split at hc
  · simp only [String.append_empty, String.toList_ofList, List.mem_append, List.mem_replicate] at hc
    rcases hc with hc | ⟨-, rfl⟩
    · exact hdigits c hc
    · rfl
  · split at hc
    · simp only [String.toList_append, String.toList_ofList, List.mem_append] at hc
      rcases hc with (hc | hc) | hc
      · exact hdigits c (List.mem_of_mem_take hc)
      · rw [List.mem_singleton.mp hc]
        rfl
      · exact hdigits c (List.mem_of_mem_drop hc)
    · simp only [String.toList_append, String.toList_ofList, List.mem_append] at hc
      rcases hc with hc | hc
      · exact hleading c hc
      · exact hdigits c hc
    · simp only [String.toList_append, String.toList_ofList, List.mem_append,
        List.mem_replicate] at hc
      rcases hc with hc | ⟨-, rfl⟩ | hc
      · exact hleading c hc
      · rfl
      · exact hdigits c hc

theorem positional_nonempty (n : Decimal) : (n.positional "").toList ≠ [] := by
  unfold Decimal.positional
  split
  · simp [Decimal.digitText]
  · split <;> simp

theorem isDecimal_magnitude (x : Binary64) :
    (x.magnitudeText .plain).toList ≠ [] ∧
      ∀ c ∈ (x.magnitudeText .plain).toList, isDecimal c = true := by
  unfold Binary64.magnitudeText
  split
  · exact ⟨by decide, List.all_eq_true.mp (by decide)⟩
  · simp only [NumberLayout.plain, if_true]
    exact ⟨positional_nonempty _, isDecimal_positional _⟩

theorem isNumber_float {x : Binary64} (h : x.isFinite = true) : IsNumber (x.text .plain) := by
  have hnumber := Binary64.isNaN_of_isFinite h
  obtain ⟨hnonempty, hdecimal⟩ := isDecimal_magnitude x
  unfold Binary64.text
  rw [if_neg (by simp [hnumber]), if_pos h]
  refine ⟨_, _, rfl, ?_, hnonempty, hdecimal⟩
  split
  · exact .inr rfl
  · exact .inl rfl

end Dialect

/-! ## Literals -/

namespace Value

/-- Whether a value is no array. -/
def isScalar : Value → Bool
  | array _ => false
  | _ => true

end Value

namespace Dialect

inductive IsScalarText (d : Dialect) : String → Prop
  | word {text : String} (h : text ∈ ["NULL", "TRUE", "FALSE"]) : IsScalarText d text
  | number {text : String} (h : IsNumber text) : IsScalarText d text
  | quoted {mark text : String} (hmark : mark = "" ∨ mark = "X") (h : d.IsQuoted text) :
      IsScalarText d (mark ++ text)

theorem isScalarText_quoted {d : Dialect} {text : String} (h : d.IsQuoted text) :
    d.IsScalarText text := by
  rw [← String.empty_append (s := text)]
  exact .quoted (.inl rfl) h

theorem isScalarText_literal (d : Dialect) {v : Value} (h : v.isScalar = true) :
    d.IsScalarText (d.literal v) := by
  cases v with
  | null =>
      rw [literal]
      exact .word (by decide)
  | bool b =>
      have hstored : ∀ b : Bool, d = .sqlite → d.IsScalarText (d.literal (.bool b)) := by
        rintro b rfl
        cases b
        · exact .number (isNumber_nat 0)
        · exact .number (isNumber_nat 1)
      cases d with
      | sqlite => exact hstored b rfl
      | generic | postgresql | mysql => cases b <;> exact .word (by decide)
  | integer n => exact .number (isNumber_int n.toInt)
  | float x =>
      rw [literal, floatLiteral]
      split
      next hfinite => exact .number (isNumber_float hfinite)
      next => exact .word (by decide)
  | text s => exact isScalarText_quoted (isQuoted_quoteText d s)
  | binary bytes =>
      obtain ⟨mark, quoted, htext, hmark, hquoted⟩ := exists_quoteBinary d bytes
      rw [literal, htext]
      exact .quoted hmark hquoted
  | array items => cases h

end Dialect

end RecordMapper
