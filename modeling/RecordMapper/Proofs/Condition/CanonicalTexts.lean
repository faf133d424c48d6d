import Mathlib
import RecordMapper.Condition.Operator
import RecordMapper.Proofs.Dialect.ColumnNames
import RecordMapper.Proofs.Statement.ColumnLists

/-!
# Canonical texts of operators and paths

An operator is written with one symbol, whatever it was read from: `parse?_symbol` reads the symbol back, and
`symbol_eq_canonical` says that it is the text that was read, in small letters and with `<>` for `!=`.  A path
is written as it was read.  A statement cuts it at its last dot where it names a field and at every dot where
it names a table; `render_ofPath_iff` says for which paths the two texts are the same.
-/

namespace RecordMapper

namespace Operator

/-! ## Symbols -/

/-- The name of a function: letters, digits and underscores, at least one of them. -/
def IsFunctionName (name : List Char) : Prop :=
  name ≠ [] ∧ ∀ c ∈ name, isNameChar c = true

/-- What an operator is written with, by the text that it was read from. -/
def canonical (text : String) : String :=
  if text = "!=" then "<>" else String.ofList (text.toList.map Char.toLower)

/-- The operators that a text can stand for: one with a symbol of its own, or a call in any letter case. -/
inductive ReadFrom (text : String) : Operator → Prop
  | symbol {op : Operator} (h : (text, op) ∈ symbols) : ReadFrom text op
  | call {name : List Char} (hname : IsFunctionName name)
      (htext : text.toList = ':' :: (name ++ ['(', ')'])) :
      ReadFrom text (.function (String.ofList (name.map Char.toUpper)))

variable {text : String} {op : Operator} {name : List Char}

theorem calledName?_of_isFunctionName (h : IsFunctionName name) :
    calledName? (':' :: (name ++ ['(', ')'])) = some name := by
  obtain ⟨hne, hall⟩ := h
  have hback : name.reverse.isEmpty = false := by simpa using hne
  have hchars : name.reverse.all isNameChar = true := by simpa using hall
  simp [calledName?, hback, hchars]

theorem of_calledName? {text : List Char} (h : calledName? text = some name) :
    text = ':' :: (name ++ ['(', ')']) ∧ IsFunctionName name := by
  unfold calledName? at h
  split at h
  next rest =>
      split at h
      next back hback =>
          split at h
          next hname =>
              cases h
              have hrest : rest = back.reverse ++ ['(', ')'] := by
                simpa using congrArg List.reverse hback
              rw [Bool.and_eq_true] at hname
              exact ⟨by rw [hrest], by simpa using hname.1, by simpa using hname.2⟩
          next => cases h
      next => cases h
  next => cases h

/-- A symbol of an operator's own is no call, so that the two ways to read a text exclude each other. -/
theorem lookup_symbols_of_call (hname : IsFunctionName name)
    (htext : text.toList = ':' :: (name ++ ['(', ')'])) : symbols.lookup text = none := by
  have hcalls : ∀ entry ∈ symbols, calledName? entry.1.toList = none := by decide
  rw [List.lookup_eq_none_iff]
  intro entry hentry
  have hnone := hcalls entry hentry
  rw [bne_iff_ne]
  rintro rfl
  rw [htext, calledName?_of_isFunctionName hname] at hnone
  cases hnone

theorem parse?_of_call (hname : IsFunctionName name)
    (htext : text.toList = ':' :: (name ++ ['(', ')'])) :
    parse? text = some (.function (String.ofList (name.map Char.toUpper))) := by
  simp [parse?, lookup_symbols_of_call hname htext, htext, calledName?_of_isFunctionName hname]

theorem parse?_eq_some_iff : parse? text = some op ↔ ReadFrom text op := by
  constructor
  · intro h
    unfold parse? at h
    split at h
    next found hfound =>
        cases h
        obtain ⟨before, after, hsymbols, -⟩ := List.lookup_eq_some_iff.mp hfound
        exact .symbol (by simp [hsymbols])
    next =>
        obtain ⟨name, hname, rfl⟩ := Option.map_eq_some_iff.mp h
        obtain ⟨htext, hname⟩ := of_calledName? hname
        exact .call hname htext
  · rintro (h | ⟨hname, htext⟩)
    · have hsymbols : ∀ entry ∈ symbols, parse? entry.1 = some entry.2 := by decide
      exact hsymbols _ h
    · exact parse?_of_call hname htext

/-! ## Letter case -/

theorem isNameChar_toLower (c : Char) : isNameChar c.toLower = isNameChar c := by
  by_cases hupper : c.isUpper = true
  · have halpha : c.isAlpha = true := by simp [Char.isAlpha, hupper]
    simp [isNameChar, Char.isAlphanum, halpha]
  · rw [Char.toLower_eq_of_not_isUpper hupper]

theorem isFunctionName_toLower (h : IsFunctionName name) :
    IsFunctionName (name.map Char.toLower) := by
  simpa [IsFunctionName, isNameChar_toLower] using h

theorem symbol_function (name : List Char) :
    (function (String.ofList (name.map Char.toUpper))).symbol.toList =
      ':' :: (name.map Char.toLower ++ ['(', ')']) := by
  simp [symbol]

theorem parse?_symbol (h : parse? text = some op) : parse? op.symbol = some op := by
  obtain h | ⟨hname, htext⟩ := parse?_eq_some_iff.mp h
  · have hsymbols : ∀ entry ∈ symbols, parse? entry.2.symbol = some entry.2 := by decide
    exact hsymbols _ h
  · rw [parse?_of_call (isFunctionName_toLower hname) (symbol_function _)]
    simp [Function.comp_def]

theorem symbol_eq_canonical (h : parse? text = some op) : op.symbol = canonical text := by
  obtain h | ⟨hname, htext⟩ := parse?_eq_some_iff.mp h
  · have hsymbols : ∀ entry ∈ symbols, entry.2.symbol = canonical entry.1 := by decide
    exact hsymbols _ h
  · have hcall : text ≠ "!=" := by
      rintro rfl
      simp at htext
    rw [canonical, if_neg hcall, ← String.toList_inj, symbol_function, htext]
    simp

end Operator

/-! ## Pieces of a path -/

namespace Text

variable {isMark : Char → Bool} {before after text : List Char}

theorem segments_append_mark {c : Char} (hc : isMark c = true) :
    segments isMark (before ++ c :: after) = segments isMark before ++ segments isMark after := by
  induction before with
  | nil => simp [segments, hc]
  | cons first before ih =>
      obtain ⟨piece, more, hpieces⟩ := List.exists_cons_of_ne_nil (segments_ne_nil isMark before)
      rw [List.cons_append, segments, segments, ih, hpieces]
      split <;> simp

theorem segments_of_forall_not (h : ∀ c ∈ text, isMark c = false) : segments isMark text = [text] := by
  induction text with
  | nil => rfl
  | cons c rest ih =>
      obtain ⟨hc, hrest⟩ := List.forall_mem_cons.mp h
      simp [segments, hc, ih hrest]

theorem forall_not_of_cutLast (h : cutLast isMark text = some (before, after)) :
    ∀ c ∈ after, isMark c = false := by
  induction text generalizing before with
  | nil => cases h
  | cons first rest ih =>
      rw [cutLast] at h
      split at h
      next hcut =>
          cases h
          exact ih hcut
      next hcut =>
          split at h
          next =>
              cases h
              exact cutLast_eq_none_iff.mp hcut
          next => cases h

variable {mark : Char} {left right : String}

theorem forall_not_of_notMem (h : mark ∉ text) : ∀ c ∈ text, (c == mark) = false := by
  intro c hc
  rw [beq_eq_false_iff_ne]
  rintro rfl
  exact h hc

theorem split_append (h : mark ∉ right.toList) :
    split mark (left ++ String.singleton mark ++ right) = split mark left ++ [right] := by
  simp [split, segments_append_mark, segments_of_forall_not (forall_not_of_notMem h)]

theorem split_of_notMem (h : mark ∉ right.toList) : split mark right = [right] := by
  simp [split, segments_of_forall_not (forall_not_of_notMem h)]

end Text

/-! ## Paths -/

namespace FieldRef

variable {path : String}

/-- A path without a dot, or with something in front of its last one. -/
def HasRoot (path : String) : Prop :=
  '.' ∉ path.toList ∨
    ∃ table name, table ≠ "" ∧ '.' ∉ name.toList ∧ path = table ++ "." ++ name

theorem not_hasRoot_of_dot {name : String} (h : '.' ∉ name.toList) : ¬ HasRoot ("." ++ name) := by
  rintro (hdot | ⟨table, last, htable, -, hpath⟩)
  · simp at hdot
  · have htext : '.' :: name.toList = table.toList ++ '.' :: last.toList := by
      simpa using congrArg String.toList hpath
    cases hfront : table.toList with
    | nil => exact htable (String.toList_eq_nil_iff.mp hfront)
    | cons c rest =>
        rw [hfront, List.cons_append] at htext
        -- a dot behind the first character would stand in the name
        exact h (by simp [(List.cons.inj htext).2])

theorem ofPath_cut (path : String) :
    ('.' ∉ path.toList ∧ ofPath path = ⟨none, path⟩) ∨
      ∃ table name, '.' ∉ name.toList ∧ path = table ++ "." ++ name ∧
        ofPath path = if table = "" then ⟨none, path⟩ else ⟨some table, name⟩ := by
  cases hcut : Text.cutLast (· == '.') path.toList with
  | none =>
      have hdots := Text.cutLast_eq_none_iff.mp hcut
      refine .inl ⟨fun hdot => ?_, by simp [ofPath, hcut]⟩
      cases hdots '.' hdot
  | some cut =>
      obtain ⟨before, after⟩ := cut
      obtain ⟨dot, hdot, htext⟩ := Text.cutLast_eq_some hcut
      rw [beq_iff_eq.mp hdot] at htext
      refine .inr ⟨String.ofList before, String.ofList after, ?_, ?_, ?_⟩
      · rw [String.toList_ofList]
        intro hmem
        cases Text.forall_not_of_cutLast hcut '.' hmem
      · rw [← String.toList_inj]
        simpa using htext
      · have hempty : String.ofList before = "" ↔ before = [] := by
          rw [← String.toList_inj]
          simp
        simp [ofPath, hcut, hempty]

theorem path_ofPath (path : String) : (ofPath path).path = path := by
  obtain ⟨-, h⟩ | ⟨table, name, -, hpath, h⟩ := ofPath_cut path
  · rw [h]
    rfl
  · rw [h]
    split
    · rfl
    · exact hpath.symm

/-- The parts of a cut path are those between its dots, unless nothing stands in front of its only dot. -/
theorem parts_ofPath_iff : (ofPath path).parts = Text.split '.' path ↔ HasRoot path := by
  obtain ⟨hdot, h⟩ | ⟨table, name, hname, rfl, h⟩ := ofPath_cut path
  · exact iff_of_true (by simp [h, parts, Text.split_of_notMem hdot]) (.inl hdot)
  · have hsplit : Text.split '.' (table ++ "." ++ name) = Text.split '.' table ++ [name] :=
      Text.split_append hname
    rw [h, hsplit]
    by_cases htable : table = ""
    · subst htable
      exact iff_of_false (by simp [parts, Text.split, Text.segments])
        (by simpa using not_hasRoot_of_dot hname)
    · exact iff_of_true (by simp [htable, parts]) (.inr ⟨table, name, htable, hname, rfl⟩)

theorem render_ofPath_iff (d : Dialect) :
    (ofPath path).render d = d.quotePath path ↔ HasRoot path := by
  rw [← parts_ofPath_iff]
  constructor
  · -- a reader finds the parts of either text
    intro h
    have hends : d.EndsName [] := by simp [Dialect.EndsName]
    have hread := readPath_render hends (ofPath path)
    rw [h, Dialect.readPath_quotePath hends] at hread
    simpa [List.map_inj_right, NamePart.ofPart_injective.eq_iff] using hread.symm
  · intro h
    rw [render_eq_join, h, Dialect.quotePath]

end FieldRef

/-- The texts of operators and paths.  A text is read as an operator if it is one of the symbols or a call, and
the operator is written with a symbol that is read as the same operator: the text in small letters, and `<>`
for `!=`.  A path is written as it was read; and every dialect writes the field that it names as it writes the
whole path, if and only if the path has no dot or something in front of its last one. -/
theorem texts_are_canonical (text : String) :
    (∀ op, Operator.parse? text = some op ↔ Operator.ReadFrom text op) ∧
      (∀ op, Operator.parse? text = some op →
        Operator.parse? op.symbol = some op ∧ op.symbol = Operator.canonical text) ∧
      (FieldRef.ofPath text).path = text ∧
      ∀ d : Dialect, (FieldRef.ofPath text).render d = d.quotePath text ↔ FieldRef.HasRoot text :=
  ⟨fun _ => Operator.parse?_eq_some_iff,
    fun _ h => ⟨Operator.parse?_symbol h, Operator.symbol_eq_canonical h⟩,
    FieldRef.path_ofPath text, fun d => FieldRef.render_ofPath_iff d⟩

/-- A call in mixed letters, the second symbol for inequality, all fields of a table in a schema, and a path
that begins with its only dot. -/
theorem texts_are_canonical_mixed :
    (Operator.parse? ":Date_Trunc()" = some (.function "DATE_TRUNC") ∧
        Operator.parse? ":date_trunc()" = some (.function "DATE_TRUNC")) ∧
      (Operator.parse? "!=" = some .ne ∧ Operator.parse? "<>" = some .ne) ∧
      (FieldRef.ofPath "shop.image.*").render .mysql = Dialect.mysql.quotePath "shop.image.*" ∧
      (FieldRef.ofPath ".image").render .mysql ≠ Dialect.mysql.quotePath ".image" := by
  have hcall : Operator.parse? ":Date_Trunc()" = some (.function "DATE_TRUNC") := by decide +kernel
  have hne : Operator.parse? "!=" = some .ne := by decide +kernel
  obtain ⟨hcall', -⟩ := (texts_are_canonical _).2.1 _ hcall
  obtain ⟨hne', -⟩ := (texts_are_canonical _).2.1 _ hne
  obtain ⟨-, -, -, hstar⟩ := texts_are_canonical "shop.image.*"
  obtain ⟨-, -, -, hdot⟩ := texts_are_canonical ".image"
  have hroot : FieldRef.HasRoot "shop.image.*" :=
    .inr ⟨"shop.image", "*", by decide, by decide, by decide⟩
  have hrootless : ¬ FieldRef.HasRoot ("." ++ "image") := FieldRef.not_hasRoot_of_dot (by decide)
  exact ⟨⟨hcall, hcall'⟩, ⟨hne, hne'⟩, (hstar .mysql).mpr hroot,
    fun h => hrootless ((hdot .mysql).mp h)⟩

end RecordMapper
