import RecordMapper.Proofs.Condition.Standing

/-!
# Phrases within a conjunct

Names, scalar literals and the keywords of comparisons stand within a conjunct whatever they hold.
The bounds of a `BETWEEN` do so too, although an `AND` joins them.
-/

namespace RecordMapper

namespace Dialect

variable {d : Dialect} {a b : String}

/-! ## Names and literals -/

theorem stands_scalarText (h : d.IsScalarText a) : d.Stands a := by
  cases h with
  | word htext =>
      have hwords : ∀ text ∈ ["NULL", "TRUE", "FALSE"],
          text.toList.all isWordChar = true ∧ connective? text.toList = none := by decide
      exact stands_word (hwords a htext).1 (hwords a htext).2
  | number hnumber => exact stands_number hnumber
  | quoted hmark hquoted =>
      rcases hmark with rfl | rfl
      · rw [String.empty_append]
        exact (follows_quoted hquoted).stands
      · exact stands_append (stands_word (by decide) (by decide)) (follows_quoted hquoted)

theorem stands_literal (d : Dialect) {v : Value} (h : v.isScalar = true) :
    d.Stands (d.literal v) :=
  stands_scalarText (isScalarText_literal d h)

theorem follows_quotePart (d : Dialect) (part : String) : d.Follows (d.quotePart part) := by
  rw [quotePart]
  split
  next hstar =>
      rw [hstar, ← String.append_empty (s := "*")]
      exact follows_sign rfl (by cases d <;> decide) follows_empty.stands
  next => exact follows_quoted (isQuoted_quoteIdentifier d part)

theorem follows_dot (h : d.Stands a) : d.Follows ("." ++ a) :=
  follows_sign rfl (by cases d <;> decide) h

theorem follows_parts (d : Dialect) (parts : List String) :
    d.Follows (".".intercalate (parts.map d.quotePart)) := by
  induction parts with
  | nil => exact follows_empty
  | cons part rest ih =>
      have hpart := follows_quotePart d part
      cases rest with
      | nil => simpa using hpart
      | cons next rest =>
          rw [List.map_cons, List.map_cons, String.intercalate_cons_cons, String.append_assoc]
          exact follows_append hpart (follows_dot ih.stands)

theorem follows_field (d : Dialect) (ref : FieldRef) : d.Follows (ref.render d) := by
  rw [FieldRef.render]
  split
  next table htable =>
      rw [String.append_assoc]
      exact follows_append (follows_parts d _) (follows_dot (follows_quotePart d ref.name).stands)
  next => exact follows_quotePart d ref.name

/-! ## Keywords -/

theorem stands_phrase (first second : String)
    (h : first.toList.all isWordChar = true ∧ connective? first.toList = none)
    (h' : second.toList.all isWordChar = true ∧ connective? second.toList = none) :
    d.Stands (first ++ " " ++ second) :=
  stands_blank (stands_word h.1 h.2) (stands_word h'.1 h'.2)

theorem follows_doubled {sign : String} {c : Char} (hsign : sign.toList = [c])
    (hc : c = '-' ∨ c = '/') (h : d.Stands a) : d.Follows (" " ++ sign ++ " " ++ a) := by
  have htext : (" " ++ sign ++ " " ++ a).toList = ' ' :: c :: ' ' :: a.toList := by
    simp [hsign]
  refine ⟨?_, fun {s bounds before} hbefore hs => ?_⟩
  · rw [htext]
    have hsign : isSafe [' ', c, ' '] = true := by rcases hc with rfl | rfl <;> decide
    exact isSafe_append hsign h.safe
  · have hgap : isSign ' ' = true := by decide
    have hnext : Quotes.next d .outside c = .outside := by
      rcases hc with rfl | rfl <;> cases d <;> rfl
    have hstep : (Scanner.mk .outside 0 bounds (before ++ [' ']) []).step d c =
        some ([], ⟨.outside, 0, bounds, before ++ [' '] ++ [c], []⟩) := by
      have hhides : d.hides (before ++ [' '] ++ []).getLast? c = false := by
        rcases hc with rfl | rfl <;> simp [hides, isForeign]
      rw [Scanner.step_of_inert rfl Scanner.connective?_nil hhides
        (by rcases hc with rfl | rfl <;> decide), Scanner.mark,
        if_neg (by rcases hc with rfl | rfl <;> decide),
        if_neg (by rcases hc with rfl | rfl <;> decide), hnext]
      simp [Scanner.push, Scanner.text]
    have hblank : (Scanner.mk .outside 0 bounds (before ++ [' '] ++ [c]) []).step d ' ' =
        some ([], ⟨.outside, 0, bounds, before ++ [' '] ++ [c] ++ [' '], []⟩) := by
      rw [Scanner.step_of_inert rfl Scanner.connective?_nil rfl rfl]
      have hnext : Quotes.next d .outside ' ' = .outside := by cases d <;> rfl
      simp [Scanner.mark, Scanner.push, Scanner.text, hnext]
    have hsafe : isSafe (before ++ [' '] ++ [c] ++ [' ']) = true :=
      isSafe_concat (by decide) (by decide) _
    obtain ⟨s', hread, hs'⟩ := h.reads bounds hsafe
    refine ⟨s', ?_, ?_⟩
    · rw [htext, Scanner.read_of_step (step_sign hgap hbefore hs), Scanner.read_of_step hstep,
        Scanner.read_of_step hblank, hread]
    · rw [htext]
      simpa using hs'

theorem follows_keyword {op : Operator} {keyword : Keyword} (h : op.infixKeyword? = some keyword)
    (ha : d.Stands a) : d.Follows (" " ++ keyword.text ++ " " ++ a) := by
  have hsign : ∀ {sign : String} {c : Char}, sign.toList = [c] → isSign c = true →
      d.Stands sign := by
    intro sign c hsign hc
    rw [← String.append_empty (s := sign)]
    exact (follows_sign hsign hc follows_empty.stands).stands
  have hstands : d.Stands keyword.text → d.Follows (" " ++ keyword.text ++ " " ++ a) := by
    intro hkeyword
    have hblank := follows_blank (stands_blank hkeyword ha)
    simpa only [String.append_assoc] using hblank
  have hequals : isSign '=' = true := by decide
  have hless : isSign '<' = true := by decide
  have hgreater : isSign '>' = true := by decide
  cases op <;> cases h
  case eq => exact hstands (hsign rfl hequals)
  case ne =>
      have htext : d.Follows ("<" ++ ">") := follows_sign rfl hless (hsign rfl hgreater)
      exact hstands htext.stands
  case lt => exact hstands (hsign rfl hless)
  case le =>
      have htext : d.Follows ("<" ++ "=") := follows_sign rfl hless (hsign rfl hequals)
      exact hstands htext.stands
  case gt => exact hstands (hsign rfl hgreater)
  case ge =>
      have htext : d.Follows (">" ++ "=") := follows_sign rfl hgreater (hsign rfl hequals)
      exact hstands htext.stands
  case add => exact hstands (hsign rfl (by cases d <;> decide))
  case sub => exact follows_doubled rfl (.inl rfl) ha
  case mul => exact hstands (hsign rfl (by cases d <;> decide))
  case div => exact follows_doubled rfl (.inr rfl) ha
  case like => exact hstands (stands_word (by decide) (by decide))
  case notLike => exact hstands (stands_phrase "NOT" "LIKE" (by decide) (by decide))
  case is => exact hstands (stands_word (by decide) (by decide))
  case isNot => exact hstands (stands_phrase "IS" "NOT" (by decide) (by decide))

/-! ## Bounds -/

theorem step_blank (bounds bounds' : Nat) (before word : List Char)
    (h : (Scanner.mk .outside 0 bounds before word).endWord =
      some ([], ⟨.outside, 0, bounds', before, word⟩)) :
    (Scanner.mk .outside 0 bounds before word).step d ' ' =
      some ([], ⟨.outside, 0, bounds', before ++ word ++ [' '], []⟩) := by
  have hnext : Quotes.next d .outside ' ' = .outside := by cases d <;> rfl
  rw [Scanner.step_of_separate rfl rfl rfl, Scanner.separate, h]
  simp [Scanner.mark, Scanner.push, Scanner.text, hnext]

/-- The word `BETWEEN` asks for an `AND` that ends no conjunct. -/
theorem endWord_between (bounds : Nat) (before : List Char) :
    (Scanner.mk .outside 0 bounds before ['B', 'E', 'T', 'W', 'E', 'E', 'N']).endWord =
      some ([], ⟨.outside, 0, bounds + 1, before, ['B', 'E', 'T', 'W', 'E', 'E', 'N']⟩) := by
  have hword : connective? ['B', 'E', 'T', 'W', 'E', 'E', 'N'] = some .between := by decide
  simp [Scanner.endWord, hword]

theorem endWord_bound (bounds : Nat) (before : List Char) :
    (Scanner.mk .outside 0 (bounds + 1) before ['A', 'N', 'D']).endWord =
      some ([], ⟨.outside, 0, bounds, before, ['A', 'N', 'D']⟩) := by
  simp [Scanner.endWord, Scanner.connective?_and]

theorem follows_between (ha : d.Stands a) (hb : d.Stands b) :
    d.Follows (" BETWEEN " ++ a ++ " AND " ++ b) := by
  have hgap : isSign ' ' = true := by decide
  have htext : (" BETWEEN " ++ a ++ " AND " ++ b).toList =
      ' ' :: (['B', 'E', 'T', 'W', 'E', 'E', 'N'] ++ ' ' :: (a.toList ++ ' ' ::
        (['A', 'N', 'D'] ++ ' ' :: b.toList))) := by
    simp
  refine ⟨?_, fun {s bounds before} hbefore hs => ?_⟩
  · have hbefore : isSafe " BETWEEN ".toList = true := by decide
    have hbetween : isSafe " AND ".toList = true := by decide
    rw [String.toList_append, String.toList_append, String.toList_append]
    exact isSafe_append (isSafe_append (isSafe_append hbefore ha.safe) hbetween) hb.safe
  · have hblank : ∀ text, isSafe (text ++ [' ']) = true := isSafe_concat (by decide) (by decide)
    obtain ⟨low, hlow, hlowRests⟩ := ha.reads (bounds + 1)
      (hblank (before ++ [' '] ++ ['B', 'E', 'T', 'W', 'E', 'E', 'N']))
    have hlowSafe := isSafe_append
      (hblank (before ++ [' '] ++ ['B', 'E', 'T', 'W', 'E', 'E', 'N'])) ha.safe
    obtain ⟨high, hhigh, hhighRests⟩ := hb.reads bounds
      (hblank (before ++ [' '] ++ ['B', 'E', 'T', 'W', 'E', 'E', 'N'] ++ [' '] ++ a.toList ++ [' '] ++
        ['A', 'N', 'D']))
    refine ⟨high, ?_, ?_⟩
    · rw [htext, Scanner.read_of_step (step_sign hgap hbefore hs),
        Scanner.read_of_read (read_word (by decide) bounds _ []), List.nil_append,
        Scanner.read_of_step (step_blank _ _ _ _ (endWord_between bounds _)),
        Scanner.read_of_read hlow, Scanner.read_of_step (step_sign hgap hlowSafe hlowRests),
        Scanner.read_of_read (read_word (by decide) (bounds + 1) _ []), List.nil_append,
        Scanner.read_of_step (step_blank _ _ _ _ (endWord_bound bounds _)), hhigh]
    · rw [htext]
      simpa using hhighRests

/-! ## Texts in parentheses -/

theorem isSafe_plain {text : List Char}
    (h : text.all (fun c => isWordChar c || isSign c) = true) : isSafe text = true := by
  have hne : ∀ c, (isWordChar c || isSign c) = false → text.getLast? ≠ some c := by
    intro c hc hlast
    have hlastChar := List.all_eq_true.mp h c (List.mem_of_getLast? hlast)
    rw [hc] at hlastChar
    cases hlastChar
  simp [isSafe, hne '-' (by decide), hne '/' (by decide)]

/-- In parentheses a character of a word or between words only adds to the conjunct. -/
theorem step_plain {c : Char} (hc : (isWordChar c || isSign c) = true) {before : List Char}
    (hbefore : isSafe before = true) (depth bounds : Nat) :
    (Scanner.mk .outside (depth + 1) bounds before []).step d c =
      some ([], ⟨.outside, depth + 1, bounds, before ++ [c], []⟩) := by
  -- A character by itself neither is a word that joins nor ends one.
  obtain ⟨s', hmoves, htext, hquotes, hdepth⟩ : ∃ s', Scanner.Moves d Scanner.start c s' ∧
      s'.text = [c] ∧ s'.quotes = .outside ∧ s'.depth = 0 := by
    cases hword : isWordChar c with
    | true =>
        have hall : [c].all isWordChar = true := by simpa using hword
        obtain ⟨s', hstep, hnil⟩ := Scanner.read_cons_eq_some (read_word (d := d) hall 0 [] [])
        cases hnil
        exact ⟨_, Scanner.moves_of_step hstep, rfl, rfl, rfl⟩
    | false =>
        rw [hword, Bool.false_or] at hc
        have hempty : isSafe [] = true := by decide
        have hstep := step_sign (d := d) hc hempty (Scanner.rests_mk 0 [])
        exact ⟨_, Scanner.moves_of_step hstep, rfl, rfl, rfl⟩
  have hwithin := hmoves.within hbefore depth bounds
  have hafter : s'.within before depth bounds =
      ⟨.outside, depth + 1, bounds, before ++ [c], []⟩ := by
    rw [Scanner.within, hquotes, hdepth, htext, Nat.zero_add]
  rw [hafter] at hwithin
  simpa [Scanner.within, Scanner.start, Scanner.text] using hwithin

theorem encloses_plain (h : a.toList.all (fun c => isWordChar c || isSign c) = true) :
    d.Encloses a := by
  refine ⟨isSafe_plain h, fun {depth bounds before} hbefore => ?_⟩
  generalize a.toList = text at h
  induction text generalizing before with
  | nil =>
      rw [List.append_nil]
      rfl
  | cons c text ih =>
      rw [List.all_cons, Bool.and_eq_true] at h
      obtain ⟨hc, htext⟩ := h
      have hmore : isSafe (before ++ [c]) = true :=
        isSafe_append hbefore (isSafe_plain (by simpa using hc))
      rw [Scanner.read_of_step (step_plain hc hbefore depth bounds), ih hmore htext,
        List.append_assoc, List.singleton_append]

theorem encloses_intercalate {separator : String} (hseparator : d.Encloses separator)
    {texts : List String} (h : ∀ text ∈ texts, d.Encloses text) :
    d.Encloses (separator.intercalate texts) := by
  induction texts with
  | nil => exact encloses_of_stands follows_empty.stands
  | cons text rest ih =>
      have htext := h text List.mem_cons_self
      cases rest with
      | nil => simpa using htext
      | cons next rest =>
          have hrest := ih fun other hother => h other (List.mem_cons_of_mem text hother)
          rw [String.intercalate_cons_cons]
          exact encloses_append (encloses_append htext hseparator) hrest

end Dialect

end RecordMapper
