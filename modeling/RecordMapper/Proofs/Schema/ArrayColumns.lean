import RecordMapper.Dialect.Literal
import RecordMapper.Proofs.Attempt
import RecordMapper.Proofs.Number.Reading
import RecordMapper.Proofs.Schema.Forms

/-!
# Array columns

An array is written as one text and read back item by item.  A text is written in quotes, so that the
scanner is inside them until its end, and every other item has neither quotes nor commas.  `Spells`
says that some characters are read as one item, wherever they stand, and `cast_arrayLiteral` puts the
items together: a column of integers, truth values or texts gives back the array that was written.
-/

namespace RecordMapper

namespace ArrayLiteral

/-- The characters are one item, whether a comma follows or the end, and some of them can be seen. -/
structure Spells (chars : List Char) (item : Value) : Prop where
  last : readItems .outside false [] chars = [item]
  before : ∀ rest, readItems .outside false [] (chars ++ ',' :: rest) =
    item :: readItems .outside false [] rest
  visible : ∃ c ∈ chars, Text.isBlank c = false

/-! ## Single items -/

theorem readItems_outside {chars : List Char} (h : ∀ c ∈ chars, c ≠ '"' ∧ c ≠ ',') (wasQuoted : Bool)
    (read rest : List Char) : readItems .outside wasQuoted read (chars ++ rest) =
      readItems .outside wasQuoted (chars.reverse ++ read) rest := by
  induction chars generalizing read with
  | nil => rfl
  | cons c chars ih =>
      obtain ⟨hquote, hcomma⟩ := h c List.mem_cons_self
      rw [List.cons_append, readItems]
      simp only [if_neg hquote, if_neg hcomma]
      rw [ih fun other hother => h other (List.mem_cons_of_mem c hother)]
      simp

theorem readItems_inside (text : List Char) (wasQuoted : Bool) (read rest : List Char) :
    readItems .inside wasQuoted read
        (text.flatMap (fun c => if c = '\\' ∨ c = '"' then ['\\', c] else [c]) ++ rest) =
      readItems .inside wasQuoted (text.reverse ++ read) rest := by
  induction text generalizing read with
  | nil => rfl
  | cons c text ih =>
      rw [List.flatMap_cons, List.append_assoc]
      by_cases hspecial : c = '\\' ∨ c = '"'
      · rw [if_pos hspecial]
        simp [readItems, ih]
      · rw [if_neg hspecial]
        obtain ⟨hslash, hquote⟩ := not_or.mp hspecial
        simp [readItems, hslash, hquote, ih]

theorem spells_unquoted {chars : List Char} (h : ∀ c ∈ chars, c ≠ '"' ∧ c ≠ ',')
    (hvisible : ∃ c ∈ chars, Text.isBlank c = false) : Spells chars (itemValue chars false) where
  last := by
    have hread := readItems_outside h false [] []
    rw [List.append_nil, List.append_nil] at hread
    rw [hread, readItems, List.reverse_reverse]
  before rest := by
    rw [readItems_outside h, List.append_nil, readItems]
    simp
  visible := hvisible

theorem spells_arrayText (text : String) : Spells (Dialect.arrayText text).toList (.text text) := by
  have hread : ∀ rest, readItems .outside false [] ((Dialect.arrayText text).toList ++ rest) =
      readItems .outside true text.toList.reverse rest := by
    intro rest
    rw [Dialect.arrayText, String.toList_ofList, List.cons_append, List.cons_append,
      List.append_assoc, readItems]
    simp only [if_true]
    rw [readItems_inside]
    simp [readItems]
  have hvalue : itemValue text.toList.reverse.reverse true = .text text := by
    simp [itemValue]
  refine ⟨?_, fun rest => ?_, '"', ?_, by decide⟩
  · have hlast := hread []
    rw [List.append_nil] at hlast
    rw [hlast, readItems, hvalue]
  · rw [hread, readItems]
    simp only [if_false, if_true, Char.reduceEq]
    rw [hvalue]
  · rw [Dialect.arrayText, String.toList_ofList]
    exact List.mem_cons_self

/-! ## Lists of items -/

variable {pieces : List (List Char)} {items : List Value}

theorem readItems_intercalate (h : List.Forall₂ Spells pieces items) (hne : pieces ≠ []) :
    readItems .outside false [] ([','].intercalate pieces) = items := by
  induction h with
  | nil => exact absurd rfl hne
  | @cons piece item pieces items hitem hrest ih =>
      cases hrest with
      | nil => simpa using hitem.last
      | cons hnext hmore =>
          rw [List.intercalate_cons_cons, List.append_assoc, List.singleton_append, hitem.before,
            ih (List.cons_ne_nil _ _)]

theorem unbraced?_braces (inner : List Char) :
    unbraced? ('\x7b' :: inner ++ ['\x7d']) = some inner := by
  rw [unbraced?, Text.trimChars_of_ends (by decide) (by decide)]
  simp

theorem read_braces (h : List.Forall₂ Spells pieces items) {text : String}
    (htext : text.toList = '\x7b' :: [','].intercalate pieces ++ ['\x7d']) : read text = items := by
  rw [read, htext, unbraced?_braces, Option.getD_some]
  cases h with
  | nil => rfl
  | @cons piece item pieces items hitem hrest =>
      obtain ⟨c, hc, hvisible⟩ := hitem.visible
      have hmem : c ∈ [','].intercalate (piece :: pieces) := by
        cases pieces with
        | nil => simpa using hc
        | cons next more =>
            rw [List.intercalate_cons_cons]
            exact List.mem_append_left _ (List.mem_append_left _ hc)
      rw [if_neg (by simpa using Text.trimChars_ne_nil hmem hvisible)]
      exact readItems_intercalate (.cons hitem hrest) (List.cons_ne_nil _ _)

end ArrayLiteral

namespace LogicalType

/-- The value has the form of the type, and it is neither a float nor bytes. -/
def admits (type : LogicalType) (v : Value) : Bool :=
  type.holds v &&
    match v with
    | .float _ | .binary _ => false
    | _ => true

variable {type : LogicalType} {v : Value}

theorem holds_of_admits (h : type.admits v = true) : type.holds v = true :=
  (Bool.and_eq_true_iff.mp h).1

theorem cast?_of_admits_integer {n : Int64} (h : type.admits (.integer n) = true) (v : Value) :
    type.cast? v = castInteger? v := by
  cases type with
  | id | serial | integer => rfl
  | float | decimal | string | text | date | time | datetime | boolean | uuid | binary => cases h

theorem eq_boolean_of_admits {b : Bool} (h : type.admits (.bool b) = true) : type = boolean := by
  cases type with
  | boolean => rfl
  | id | serial | integer | float | decimal | string | text | date | time | datetime | uuid | binary =>
      cases h

end LogicalType

namespace Dialect

open ArrayLiteral

def itemAsRead : Value → Value
  | .bool b => .text (if b then "true" else "false")
  | .integer n => .text (toString n.toInt)
  | item => item

/-- The item is null, or in the form of a type. -/
def IsItemOf (type : LogicalType) (item : Value) : Prop :=
  item = .null ∨ type.admits item = true

variable {type : LogicalType} {item : Value}

theorem spells_integer (n : Int64) :
    Spells (toString n.toInt).toList (.text (toString n.toInt)) := by
  have hclean := toString_clean n.toInt
  have hnonempty : (toString n.toInt).toList ≠ [] := by
    intro hempty
    have hread := readInt_toString n.toInt
    rw [hempty] at hread
    cases hread
  obtain ⟨c, hc⟩ := List.exists_mem_of_ne_nil _ hnonempty
  have hspells := spells_unquoted (fun c hc => (hclean c hc).2) ⟨c, hc, (hclean c hc).1⟩
  have hvalue : itemValue (toString n.toInt).toList false = .text (toString n.toInt) := by
    have hnull : ((toString n.toInt) == "NULL") = false := by
      rw [beq_eq_false_iff_ne]
      intro heq
      have hread := readInt_toString n.toInt
      rw [heq] at hread
      cases hread
    rw [itemValue, Text.trimChars_eq_self fun c hc => (hclean c hc).1, String.ofList_toList]
    simp only [hnull, Bool.not_false, Bool.and_false, Bool.false_eq_true, if_false]
  rwa [hvalue] at hspells

theorem spells_null : Spells "NULL".toList .null :=
  spells_unquoted (by simp) ⟨'N', by simp, rfl⟩

theorem spells_bool (b : Bool) :
    Spells (if b then "true" else "false").toList (itemAsRead (.bool b)) := by
  cases b with
  | false => exact spells_unquoted (by simp) ⟨'f', by simp, rfl⟩
  | true => exact spells_unquoted (by simp) ⟨'t', by simp, rfl⟩

/-- Whatever the dialect, the items of a list are spelled one after the other. -/
theorem spells_itemLiterals (d : Dialect) {items : List Value}
    (h : ∀ item ∈ items, IsItemOf type item) :
    List.Forall₂ Spells ((d.itemLiterals items).map String.toList) (items.map itemAsRead) := by
  induction items with
  | nil => exact .nil
  | cons item rest ih =>
      have hrest := ih fun other hother => h other (List.mem_cons_of_mem item hother)
      obtain rfl | hitem := h item List.mem_cons_self
      · exact .cons spells_null hrest
      · cases item with
        | text s => exact .cons (spells_arrayText s) hrest
        | bool b => exact .cons (spells_bool b) hrest
        | integer n => exact .cons (spells_integer n) hrest
        | null => exact .cons spells_null hrest
        | float _ | binary _ | array _ => cases type <;> cases hitem

theorem read_arrayLiteral (d : Dialect) {items : List Value}
    (h : ∀ item ∈ items, IsItemOf type item) :
    ArrayLiteral.read (d.arrayLiteral items) = items.map itemAsRead := by
  refine read_braces (spells_itemLiterals d h) ?_
  rw [arrayLiteral, literal, String.toList_append, String.toList_append, String.toList_intercalate]
  rfl

end Dialect

namespace Schema

variable {s : Schema} {name : String} {field : Field} {type : LogicalType} {items : List Value}

theorem castItem_itemAsRead (s : Schema) {item : Value} (htype : field.logicalType? = some type)
    (h : Dialect.IsItemOf type item) :
    s.castItem field (Dialect.itemAsRead item) = .ok item := by
  have hcast : ∀ {v : Value}, v.isNull = false → type.cast? v = some item →
      s.castItem field v = .ok item := by
    intro v hnull hv
    rw [castItem, hnull, if_neg Bool.false_ne_true, castScalar, htype]
    simp only [hv]
  obtain rfl | hitem := h
  · rfl
  · cases item with
    | integer n =>
        refine hcast rfl ?_
        rw [LogicalType.cast?_of_admits_integer hitem, Dialect.itemAsRead, LogicalType.castInteger?,
          Text.trimChars_eq_self fun c hc => (toString_clean n.toInt c hc).1, readInt64_toString,
          Option.map_some]
    | bool b =>
        obtain rfl := LogicalType.eq_boolean_of_admits hitem
        exact hcast rfl (by cases b <;> rfl)
    | text t => exact hcast rfl (LogicalType.cast?_of_holds (LogicalType.holds_of_admits hitem))
    | null | float _ | binary _ | array _ => cases type <;> cases hitem

/-- What a dialect writes for an array of integers, of truth values or of texts, with or without
nulls among them, is cast back to this array. -/
theorem cast_arrayLiteral (d : Dialect) (hfield : s.field? name = some field)
    (harray : field.isArray = true) (htype : field.logicalType? = some type)
    (hitems : ∀ item ∈ items, Dialect.IsItemOf type item) :
    s.cast name (.text (d.arrayLiteral items)) = .ok (.array items) := by
  have hcast : (items.map Dialect.itemAsRead).mapM (s.castItem field) = .ok items := by
    rw [attempt_mapM_eq_ok, List.forall₂_map_left_iff, List.forall₂_same]
    exact fun item hitem => castItem_itemAsRead s htype (hitems item hitem)
  rw [cast, hfield]
  simp only [Value.isNull, harray, if_true, itemsOf, Bool.false_eq_true, if_false]
  rw [Dialect.read_arrayLiteral d hitems]
  exact attempt_bind_eq_ok.mpr ⟨_, rfl, attempt_bind_eq_ok.mpr ⟨items, hcast, rfl⟩⟩

def labels : Field :=
  { name := "labels", typeName := "string", isArray := true }

def labelled : Schema :=
  (named "Image").addField labels

/-- Texts that look like the literal around them come back as they were. -/
theorem cast_arrayLiteral_labels :
    labelled.field? "labels" = some labels ∧ labels.isArray = true ∧
      labels.logicalType? = some .string ∧
      (∀ item ∈ [.text "", .null, .text "NULL", .text " a,\x7d\\\""],
        Dialect.IsItemOf .string item) ∧
      labelled.cast "labels" (.text (Dialect.postgresql.arrayLiteral
          [.text "", .null, .text "NULL", .text " a,\x7d\\\""])) =
        .ok (.array [.text "", .null, .text "NULL", .text " a,\x7d\\\""]) := by
  have hfield : labelled.field? "labels" = some labels := rfl
  have htype : labels.logicalType? = some .string := by decide
  have hitems : ∀ item ∈ [.text "", .null, .text "NULL", .text " a,\x7d\\\""],
      Dialect.IsItemOf .string item := by
    simp [Dialect.IsItemOf, LogicalType.admits, LogicalType.holds]
  exact ⟨hfield, rfl, htype, hitems, cast_arrayLiteral .postgresql hfield rfl htype hitems⟩

end Schema

end RecordMapper
