import RecordMapper.Proofs.Condition.Conjuncts

/-!
# Texts within a conjunct

A text stands within a conjunct if a reader goes on in the same conjunct: `Stands` says so of a text
behind a blank, `Follows` of a text directly behind another one, and `Encloses` of a text in
parentheses, where words that join do not count.  Words, numbers and quoted texts stand; texts that
stand may be put one after the other, and a text that is read as one conjunct by itself stands
wherever a conjunct goes on.
-/

namespace RecordMapper

namespace Scanner

variable {d : Dialect} {s s' : Scanner} {c : Char} {text : List Char}

/-- The scanner stands outside quotes and parentheses, behind a text of the present conjunct whose
last word joins nothing. -/
structure Rests (s : Scanner) (bounds : Nat) (text : List Char) : Prop where
  quotes : s.quotes = .outside
  depth : s.depth = 0
  bounds_eq : s.bounds = bounds
  inert : connective? s.word = none
  text_eq : s.text = text

theorem rests_mk (bounds : Nat) (before : List Char) :
    Rests ⟨.outside, 0, bounds, before, []⟩ bounds before :=
  ⟨rfl, rfl, rfl, connective?_nil, List.append_nil before⟩

end Scanner

namespace Dialect

variable {d : Dialect} {a b : String}

/-- The text can begin a conjunct or stand behind a blank, and is read on in one conjunct. -/
structure Stands (d : Dialect) (text : String) : Prop where
  safe : isSafe text.toList = true
  reads : ∀ (bounds : Nat) {before : List Char}, isSafe before = true →
    ∃ s', (Scanner.mk .outside 0 bounds before []).read d text.toList = some ([], s') ∧
      s'.Rests bounds (before ++ text.toList)

/-- The text can stand directly behind another one, and is read on in the same conjunct. -/
structure Follows (d : Dialect) (text : String) : Prop where
  safe : isSafe text.toList = true
  reads : ∀ {s : Scanner} {bounds : Nat} {before : List Char}, isSafe before = true →
    s.Rests bounds before →
    ∃ s', s.read d text.toList = some ([], s') ∧ s'.Rests bounds (before ++ text.toList)

theorem isSafe_append {text text' : List Char} (h : isSafe text = true) (h' : isSafe text' = true) :
    isSafe (text ++ text') = true := by
  cases hlast : text'.getLast? with
  | none =>
      rw [List.getLast?_eq_none_iff.mp hlast]
      rwa [List.append_nil]
  | some last =>
      rw [isSafe, List.getLast?_append, hlast, Option.some_or]
      rwa [isSafe, hlast] at h'

theorem Follows.stands (h : d.Follows a) : d.Stands a :=
  ⟨h.safe, fun _ _ hsafe => h.reads hsafe (Scanner.rests_mk _ _)⟩

theorem follows_empty : d.Follows "" := by
  refine ⟨by decide, fun {s _ before} _ hs => ⟨s, rfl, ?_⟩⟩
  have htext : before ++ "".toList = before := List.append_nil before
  rwa [htext]

theorem stands_append (ha : d.Stands a) (hb : d.Follows b) : d.Stands (a ++ b) := by
  refine ⟨?_, fun bounds before hsafe => ?_⟩
  · rw [String.toList_append]
    exact isSafe_append ha.safe hb.safe
  · obtain ⟨s, hread, hs⟩ := ha.reads bounds hsafe
    obtain ⟨s', hread', hs'⟩ := hb.reads (isSafe_append hsafe ha.safe) hs
    refine ⟨s', ?_, ?_⟩
    · rw [String.toList_append, Scanner.read_of_read hread, hread']
    · rwa [String.toList_append, ← List.append_assoc]

theorem follows_append (ha : d.Follows a) (hb : d.Follows b) : d.Follows (a ++ b) := by
  refine ⟨?_, fun {s bounds before} hsafe hs => ?_⟩
  · rw [String.toList_append]
    exact isSafe_append ha.safe hb.safe
  · obtain ⟨s, hread, hs⟩ := ha.reads hsafe hs
    obtain ⟨s', hread', hs'⟩ := hb.reads (isSafe_append hsafe ha.safe) hs
    refine ⟨s', ?_, ?_⟩
    · rw [String.toList_append, Scanner.read_of_read hread, hread']
    · rwa [String.toList_append, ← List.append_assoc]

/-! ## Words and signs -/

def isSign (c : Char) : Bool :=
  !isWordChar c && !(['(', ')', ';', '#', '-', '/', '\'', '"', '\x60', '[', '$'].contains c)

theorem step_sign {c : Char} (hc : isSign c = true) {s : Scanner} {bounds : Nat}
    {before : List Char} (hsafe : isSafe before = true) (hs : s.Rests bounds before) :
    s.step d c = some ([], ⟨.outside, 0, bounds, before ++ [c], []⟩) := by
  obtain ⟨hquotes, hdepth, rfl, hword, rfl⟩ := hs
  simp only [isSign, Bool.and_eq_true, Bool.not_eq_true', List.contains_eq_mem, List.mem_cons,
    List.not_mem_nil, or_false, decide_eq_false_iff_not, not_or] at hc
  obtain ⟨hwordChar, hopening, hclosing, hend, hmark, hminus, -, hquote, hdouble, hback, hbracket,
    hdollar⟩ := hc
  have hhides : d.hides s.text.getLast? c = false := by
    simp only [isSafe, Bool.and_eq_true, bne_iff_ne] at hsafe
    simp [hides, isForeign, hend, hmark, hminus, hdouble, hback, hbracket, hdollar, hsafe.2]
  have hname : c ≠ d.quoteChar := by cases d <;> first | exact hdouble | exact hback
  have hnext : Quotes.next d .outside c = .outside := by
    rw [Quotes.next, if_neg (by simp [hquote, hname])]
  rw [Scanner.step_of_inert hquotes hword hhides hwordChar, Scanner.mark, if_neg hopening,
    if_neg hclosing, hquotes, hnext, Scanner.push, hdepth]
  rfl

theorem isSafe_concat {c : Char} (hminus : c ≠ '-') (hslash : c ≠ '/') (text : List Char) :
    isSafe (text ++ [c]) = true := by
  simp [isSafe, hminus, hslash]

theorem follows_sign {sign : String} {c : Char} (hsign : sign.toList = [c])
    (hc : isSign c = true) (h : d.Stands a) : d.Follows (sign ++ a) := by
  have hchar : c ≠ '-' ∧ c ≠ '/' := by
    simp only [isSign, Bool.and_eq_true, Bool.not_eq_true', List.contains_eq_mem, List.mem_cons,
      List.not_mem_nil, or_false, decide_eq_false_iff_not, not_or] at hc
    obtain ⟨-, -, -, -, -, hminus, hslash, -⟩ := hc
    exact ⟨hminus, hslash⟩
  have hsafe : ∀ before, isSafe (before ++ [c]) = true := isSafe_concat hchar.1 hchar.2
  refine ⟨?_, fun {s bounds before} hbefore hs => ?_⟩
  · rw [String.toList_append, hsign]
    exact isSafe_append (hsafe []) h.safe
  · obtain ⟨s', hread, hs'⟩ := h.reads bounds (hsafe before)
    refine ⟨s', ?_, ?_⟩
    · rw [String.toList_append, hsign, List.singleton_append,
        Scanner.read_of_step (step_sign hc hbefore hs), hread]
    · rwa [String.toList_append, hsign, ← List.append_assoc]

theorem follows_blank (h : d.Stands a) : d.Follows (" " ++ a) :=
  follows_sign rfl (by cases d <;> decide) h

theorem stands_blank (ha : d.Stands a) (hb : d.Stands b) : d.Stands (a ++ " " ++ b) := by
  rw [String.append_assoc]
  exact stands_append ha (follows_blank hb)

theorem follows_comma (h : d.Stands a) : d.Follows (", " ++ a) := by
  have htext : ", " ++ a = "," ++ (" " ++ a) := by
    rw [← String.append_assoc]
    rfl
  rw [htext]
  exact follows_sign rfl (by cases d <;> decide) (follows_blank h).stands

theorem read_word {text : List Char} (h : text.all isWordChar = true) (bounds : Nat)
    (before word : List Char) :
    (Scanner.mk .outside 0 bounds before word).read d text =
      some ([], ⟨.outside, 0, bounds, before, word ++ text⟩) := by
  induction text generalizing word with
  | nil => rw [List.append_nil, Scanner.read]
  | cons c text ih =>
      rw [List.all_cons, Bool.and_eq_true] at h
      obtain ⟨hc, htext⟩ := h
      have hne : ∀ other : Char, isWordChar other = false → c ≠ other := by
        rintro other hother rfl
        rw [hc] at hother
        cases hother
      have hhides : d.hides (before ++ word).getLast? c = false := by
        simp [hides, isForeign, hne ';' rfl, hne '#' rfl, hne '-' rfl, hne '*' rfl, hne '"' rfl,
          hne '\x60' rfl, hne '[' rfl, hne '$' rfl]
      have hstep : (Scanner.mk .outside 0 bounds before word).step d c =
          some ([], ⟨.outside, 0, bounds, before, word ++ [c]⟩) := by
        simp only [Scanner.step, Scanner.extend, Scanner.text, hhides, hc]
        rfl
      rw [Scanner.read_of_step hstep, ih htext, List.append_assoc, List.singleton_append]

theorem isSafe_word {text : List Char} (h : text.all isWordChar = true) : isSafe text = true := by
  rw [isSafe, Bool.and_eq_true, bne_iff_ne, bne_iff_ne]
  constructor
  · intro hlast
    have hc := List.all_eq_true.mp h _ (List.mem_of_getLast? hlast)
    cases hc
  · intro hlast
    have hc := List.all_eq_true.mp h _ (List.mem_of_getLast? hlast)
    cases hc

theorem stands_word (h : a.toList.all isWordChar = true) (hword : connective? a.toList = none) :
    d.Stands a :=
  ⟨isSafe_word h, fun _ before _ => ⟨_, read_word h _ before [], rfl, rfl, rfl, hword, rfl⟩⟩

theorem step_quote {c : Char} (hc : d.IsQuote c) {s : Scanner} (hquotes : s.quotes = .outside)
    (hword : connective? s.word = none) :
    s.step d c = some ([], { s.push c with quotes := .inside c }) := by
  have hplain : isWordChar c = false ∧ c ≠ '(' ∧ c ≠ ')' ∧ ∀ last?, d.hides last? c = false := by
    rcases hc with rfl | rfl
    · exact ⟨by decide, by decide, by decide, fun _ => rfl⟩
    · cases d <;> exact ⟨by decide, by decide, by decide, fun _ => rfl⟩
  obtain ⟨hwordChar, hopening, hclosing, hhides⟩ := hplain
  rw [Scanner.step_of_inert hquotes hword (hhides _) hwordChar, Scanner.mark, if_neg hopening,
    if_neg hclosing, hquotes, next_quote hc]
  rfl

theorem read_spans {quotes quotes' : Quotes} {text : List Char} (h : d.Spans quotes text quotes')
    (depth bounds : Nat) (before : List Char) :
    (Scanner.mk quotes depth bounds before []).read d text =
      some ([], ⟨quotes', depth, bounds, before ++ text, []⟩) := by
  induction text generalizing quotes before with
  | nil =>
      cases h
      rw [List.append_nil, Scanner.read]
  | cons c text ih =>
      obtain ⟨hquote, htext⟩ := h
      have hstep : (Scanner.mk quotes depth bounds before []).step d c =
          some ([], ⟨quotes.next d c, depth, bounds, before ++ [c], []⟩) := by
        cases quotes with
        | outside =>
            rw [step_quote (hquote rfl) rfl Scanner.connective?_nil, next_quote (hquote rfl)]
            simp [Scanner.push, Scanner.text]
        | inside _ | protecting _ => simp [Scanner.step, Scanner.push, Scanner.text]
      rw [Scanner.read_of_step hstep, ih htext, List.append_assoc, List.singleton_append]

theorem follows_quoted (h : d.IsQuoted a) : d.Follows a := by
  obtain ⟨hspans, quote, inner, hquote, htext⟩ := h
  rw [htext] at hspans
  obtain ⟨-, hinner⟩ := hspans
  rw [next_quote hquote] at hinner
  refine ⟨?_, fun {s bounds before} _ hs => ?_⟩
  · have hsafe : quote ≠ '-' ∧ quote ≠ '/' := by
      rcases hquote with rfl | rfl
      · decide
      · cases d <;> decide
    rw [htext, ← List.cons_append]
    exact isSafe_concat hsafe.1 hsafe.2 _
  · obtain ⟨hquotes, hdepth, rfl, hword, rfl⟩ := hs
    have hread := read_spans hinner s.depth s.bounds (s.text ++ [quote])
    refine ⟨_, ?_, Scanner.rests_mk s.bounds _⟩
    rw [htext, Scanner.read_of_step (step_quote hquote hquotes hword)]
    rw [hdepth] at hread
    rw [Scanner.push, hdepth, hread, List.append_assoc, List.singleton_append]

/-! ## Numbers -/

theorem toUpper_digit {c : Char} (h : c.isDigit = true) : c.toUpper = c := by
  have hbound : c.val ≤ 57 := by
    simp only [Char.isDigit, Bool.and_eq_true, decide_eq_true_eq] at h
    exact h.2
  delta Char.toUpper
  rw [dif_neg]
  rintro ⟨hlow, -⟩
  rw [UInt32.le_iff_toNat_le] at hbound hlow
  exact absurd (Nat.le_trans hlow hbound) (by decide)

theorem connective?_digits {word : List Char} (h : ∀ c ∈ word, c.isDigit = true) :
    connective? word = none := by
  have hletters : ∀ keyword ∈ [Keyword.and, .or, .between],
      keyword.text.toList ≠ [] ∧ keyword.text.toList.any Char.isDigit = false := by decide
  rw [connective?, List.find?_eq_none]
  intro keyword hkeyword hsame
  obtain ⟨hnonempty, hletter⟩ := hletters keyword hkeyword
  obtain ⟨letter, hmem⟩ := List.exists_mem_of_ne_nil _ hnonempty
  have hfound := List.any_eq_false.mp hletter letter hmem
  rw [beq_iff_eq.mp hsame, List.mem_map] at hmem
  obtain ⟨c, hc, rfl⟩ := hmem
  rw [toUpper_digit (h c hc)] at hfound
  exact hfound (h c hc)

theorem read_decimal {text : List Char} (h : ∀ c ∈ text, isDecimal c = true) (bounds : Nat)
    (before : List Char) {word : List Char} (hword : ∀ c ∈ word, c.isDigit = true) :
    ∃ s', (Scanner.mk .outside 0 bounds before word).read d text = some ([], s') ∧
      s'.Rests bounds (before ++ word ++ text) := by
  induction text generalizing before word with
  | nil =>
      rw [List.append_nil]
      exact ⟨_, rfl, rfl, rfl, rfl, connective?_digits hword, rfl⟩
  | cons c text ih =>
      have htext : ∀ other ∈ text, isDecimal other = true :=
        fun other hother => h other (List.mem_cons_of_mem c hother)
      have hc := h c List.mem_cons_self
      rw [isDecimal, Bool.or_eq_true, beq_iff_eq] at hc
      rcases hc with hdigit | rfl
      · have hwordChar : [c].all isWordChar = true := by
          simp [isWordChar, Char.isAlphanum, hdigit]
        have hmore : ∀ other ∈ word ++ [c], other.isDigit = true := by
          simpa [or_imp, forall_and] using ⟨hword, hdigit⟩
        obtain ⟨s', hread, hs'⟩ := ih htext before hmore
        refine ⟨s', ?_, ?_⟩
        · rw [← List.singleton_append,
            Scanner.read_of_read (read_word hwordChar bounds before word), hread]
        · simpa using hs'
      · have hstep : (Scanner.mk .outside 0 bounds before word).step d '.' =
            some ([], ⟨.outside, 0, bounds, before ++ word ++ ['.'], []⟩) := by
          rw [Scanner.step_of_inert rfl (connective?_digits hword) rfl rfl]
          cases d <;> rfl
        have hnone : ∀ c ∈ ([] : List Char), c.isDigit = true := List.forall_mem_nil _
        obtain ⟨s', hread, hs'⟩ := ih htext (before ++ word ++ ['.']) hnone
        refine ⟨s', ?_, ?_⟩
        · rw [Scanner.read_of_step hstep, hread]
        · simpa using hs'

theorem stands_number (h : IsNumber a) : d.Stands a := by
  obtain ⟨sign, magnitude, rfl, hsign, hnonempty, hdecimal⟩ := h
  have hnone : ∀ c ∈ ([] : List Char), c.isDigit = true := List.forall_mem_nil _
  refine ⟨?_, fun bounds before hsafe => ?_⟩
  · obtain ⟨last, hlast⟩ := Option.isSome_iff_exists.mp (List.getLast?_isSome.mpr hnonempty)
    have hdigit := hdecimal last (List.mem_of_getLast? hlast)
    rw [String.toList_append, isSafe, List.getLast?_append, hlast, Option.some_or]
    have hne : ∀ other : Char, isDecimal other = false → last ≠ other := by
      rintro other hother rfl
      rw [hdigit] at hother
      cases hother
    simp [hne '-' rfl, hne '/' rfl]
  · rw [String.toList_append]
    rcases hsign with rfl | rfl
    · simpa using read_decimal hdecimal bounds before hnone
    · have hhides : d.hides before.getLast? '-' = false := by
        simp only [isSafe, Bool.and_eq_true, bne_iff_ne] at hsafe
        simp [hides, isForeign, hsafe.1]
      have hstep : (Scanner.mk .outside 0 bounds before []).step d '-' =
          some ([], ⟨.outside, 0, bounds, before ++ ['-'], []⟩) := by
        rw [Scanner.step_of_inert rfl Scanner.connective?_nil (by simpa [Scanner.text] using hhides)
          rfl]
        have hnext : Quotes.next d .outside '-' = .outside := by cases d <;> rfl
        simp [Scanner.mark, Scanner.push, Scanner.text, hnext]
      obtain ⟨s', hread, hs'⟩ := read_decimal (d := d) hdecimal bounds (before ++ ['-']) hnone
      refine ⟨s', ?_, ?_⟩
      · exact (Scanner.read_of_step hstep _).trans hread
      · simpa using hs'

/-! ## Parentheses -/

structure Encloses (d : Dialect) (text : String) : Prop where
  safe : isSafe text.toList = true
  reads : ∀ {depth bounds : Nat} {before : List Char}, isSafe before = true →
    (Scanner.mk .outside (depth + 1) bounds before []).read d text.toList =
      some ([], ⟨.outside, depth + 1, bounds, before ++ text.toList, []⟩)

theorem encloses_append (ha : d.Encloses a) (hb : d.Encloses b) : d.Encloses (a ++ b) := by
  refine ⟨?_, fun {depth bounds before} hsafe => ?_⟩
  · rw [String.toList_append]
    exact isSafe_append ha.safe hb.safe
  · rw [String.toList_append, Scanner.read_of_read (ha.reads hsafe),
      hb.reads (isSafe_append hsafe ha.safe), List.append_assoc]

theorem parenthesize_toList (text : String) :
    (parenthesize text).toList = '(' :: (text.toList ++ [')']) := by
  simp [parenthesize]

theorem step_opening {s : Scanner} (hquotes : s.quotes = .outside)
    (hword : connective? s.word = none) :
    s.step d '(' = some ([], { s.push '(' with depth := s.depth + 1 }) := by
  rw [Scanner.step_of_inert hquotes hword rfl rfl]
  rfl

theorem step_closing (depth bounds : Nat) (before : List Char) :
    (Scanner.mk .outside (depth + 1) bounds before []).step d ')' =
      some ([], ⟨.outside, depth, bounds, before ++ [')'], []⟩) := by
  rw [Scanner.step_of_inert rfl Scanner.connective?_nil rfl rfl]
  simp [Scanner.mark, Scanner.push, Scanner.text]

theorem read_parenthesize (h : d.Encloses a) {s : Scanner} (hquotes : s.quotes = .outside)
    (hword : connective? s.word = none) :
    s.read d (parenthesize a).toList =
      some ([], ⟨.outside, s.depth, s.bounds, s.text ++ (parenthesize a).toList, []⟩) := by
  have hopening : isSafe (s.text ++ ['(']) = true := isSafe_concat (by decide) (by decide) _
  rw [parenthesize_toList, Scanner.read_of_step (step_opening hquotes hword), Scanner.push, hquotes,
    Scanner.read_of_read (h.reads hopening), Scanner.read_of_step (step_closing _ _ _), Scanner.read]
  simp

theorem follows_parenthesize (h : d.Encloses a) : d.Follows (parenthesize a) := by
  refine ⟨?_, fun {s bounds before} _ hs => ?_⟩
  · rw [parenthesize_toList, ← List.cons_append]
    exact isSafe_concat (by decide) (by decide) _
  · obtain ⟨hquotes, hdepth, rfl, hword, rfl⟩ := hs
    have hread := read_parenthesize h hquotes hword
    rw [hdepth] at hread
    exact ⟨_, hread, Scanner.rests_mk _ _⟩

theorem encloses_parenthesize (h : d.Encloses a) : d.Encloses (parenthesize a) := by
  refine ⟨(follows_parenthesize h).safe, fun {depth bounds before} _ => ?_⟩
  rw [read_parenthesize h rfl Scanner.connective?_nil]
  simp [Scanner.text]

theorem encloses_of_stands (h : d.Stands a) : d.Encloses a := by
  have hempty : isSafe [] = true := by decide
  refine ⟨h.safe, fun {depth bounds before} hsafe => ?_⟩
  obtain ⟨s', hread, hs'⟩ := h.reads 0 hempty
  have hwithin := Scanner.read_within hsafe depth bounds hread
  have hafter : s'.within before depth bounds =
      ⟨.outside, depth + 1, bounds, before ++ a.toList, []⟩ := by
    rw [Scanner.within, hs'.quotes, hs'.depth, hs'.text_eq, Nat.zero_add, List.nil_append]
  rw [hafter] at hwithin
  simpa [Scanner.within, Scanner.text] using hwithin

/-! ## Whole conjuncts -/

def IsConjunct (d : Dialect) (text : String) : Prop :=
  d.conjuncts? text = some [text]

instance (d : Dialect) (text : String) : Decidable (d.IsConjunct text) :=
  inferInstanceAs (Decidable (_ = _))

theorem stands_of_isConjunct (h : d.IsConjunct a) : d.Stands a := by
  unfold IsConjunct conjuncts? at h
  split at h
  next => cases h
  next found s hread =>
      obtain ⟨last, hlast, heq⟩ := Option.map_eq_some_iff.mp h
      have hfound : found = [] := by
        have hlength := congrArg List.length heq
        rw [List.length_append] at hlength
        exact List.length_eq_zero_iff.mp (by simpa using hlength)
      subst hfound
      obtain ⟨hquotes, hdepth, hbounds, hword, hsafe, -⟩ := Scanner.last?_eq_some hlast
      have htext : s.text = a.toList := Scanner.text_of_read hread
      rw [htext] at hsafe
      refine ⟨hsafe, fun bounds before hbefore => ?_⟩
      have hbehind := Scanner.read_behind hbefore bounds hread
      refine ⟨s.behind before bounds, by simpa [Scanner.behind, Scanner.start] using hbehind,
        hquotes, hdepth, ?_, hword, ?_⟩
      · simp [Scanner.behind, hbounds]
      · rw [Scanner.text_behind, htext]

theorem isConjunct_of_stands (h : d.Stands a) : d.IsConjunct a := by
  have hempty : isSafe [] = true := by decide
  obtain ⟨s', hread, hs'⟩ := h.reads 0 hempty
  have htext : s'.text = a.toList := hs'.text_eq
  have hlast : s'.last? = some a := by
    simp [Scanner.last?, hs'.quotes, hs'.depth, hs'.bounds_eq, hs'.inert, htext, h.safe]
  rw [IsConjunct, conjuncts?, Scanner.start, hread]
  simp [hlast]

end Dialect

end RecordMapper
