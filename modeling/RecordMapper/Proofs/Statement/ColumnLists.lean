import Mathlib.Data.List.Forall2
import Mathlib.Data.List.Induction
import RecordMapper.Proofs.Attempt
import RecordMapper.Proofs.Dialect.Unquoting
import RecordMapper.Statement.Rendering

/-!
# Lists of columns

A list of columns is written without repetitions of a text.  Two fields have the same text only if
they have the same table, name and label, so that no field gets lost: `fieldText_injective` reads the
table, the name and the label back from the text.
-/

namespace RecordMapper

/-! ## Repetitions -/

section FirstSeen

variable {α β : Type} [DecidableEq α] [DecidableEq β]

/-- The items that do not occur further in front, in their order. -/
def firstSeen (items : List α) : List α :=
  (items.zipIdx.filter fun (item, i) => item ∉ items.take i).map Prod.fst

@[simp] theorem firstSeen_nil : firstSeen ([] : List α) = [] :=
  rfl

theorem firstSeen_concat (items : List α) (last : α) :
    firstSeen (items ++ [last]) =
      if last ∈ items then firstSeen items else firstSeen items ++ [last] := by
  -- Nothing stands behind the new item, so that the others are kept as before.
  have hfront : items.zipIdx.filter (fun (item, i) => item ∉ (items ++ [last]).take i) =
      items.zipIdx.filter fun (item, i) => item ∉ items.take i := by
    refine List.filter_congr fun (item, i) hmem => ?_
    have hlt : i < items.length := by simpa using List.snd_lt_add_of_mem_zipIdx hmem
    simp only [List.take_append_of_le_length (Nat.le_of_lt hlt)]
  rw [firstSeen, List.zipIdx_append, List.filter_append, hfront, List.map_append, firstSeen]
  by_cases hlast : last ∈ items
  · simp [hlast]
  · simp [hlast]

theorem eraseDups_eq_firstSeen (items : List α) : items.eraseDups = firstSeen items := by
  induction items using List.reverseRecOn with
  | nil => rfl
  | append_singleton items last ih =>
      rw [List.eraseDups_append, firstSeen_concat, ih]
      by_cases hlast : last ∈ items
      · simp [List.removeAll, hlast]
      · simp [List.removeAll, hlast, List.eraseDups_cons]

theorem firstSeen_map {f : α → β} (hf : Function.Injective f) (items : List α) :
    firstSeen (items.map f) = (firstSeen items).map f := by
  induction items using List.reverseRecOn with
  | nil => rfl
  | append_singleton items last ih =>
      simp only [List.map_append, List.map_singleton, firstSeen_concat, ih,
        List.mem_map_of_injective hf]
      split
      · rfl
      · rw [List.map_append, List.map_singleton]

end FirstSeen

/-! ## Texts of fields -/

namespace NamePart

theorem ofPart_injective : Function.Injective ofPart := by
  intro a b h
  unfold ofPart at h
  split at h
  next ha =>
      split at h
      next hb => rw [ha, hb]
      next => cases h
  next =>
      split at h
      next => cases h
      next => exact quoted.inj h

end NamePart

namespace FieldRef

variable {d : Dialect} {rest : List Char}

def parts (ref : FieldRef) : List String :=
  match ref.table with
  | some table => Text.split '.' table ++ [ref.name]
  | none => [ref.name]

theorem parts_ne_nil (ref : FieldRef) : ref.parts ≠ [] := by
  unfold parts
  split
  · simp
  · simp

theorem parts_injective : Function.Injective parts := by
  rintro ⟨table?, name⟩ ⟨table'?, name'⟩ h
  -- A table has at least one part, so that a name alone is not the text of a name in a table.
  have hne : ∀ table, Text.split '.' table ≠ [] := by
    intro table
    simp [Text.split, Text.segments_ne_nil]
  cases table? with
  | none =>
      cases table'? with
      | none => exact congrArg (FieldRef.mk none) (List.singleton_inj.mp h)
      | some table' =>
          have happend : [] ++ [name] = Text.split '.' table' ++ [name'] := h
          exact absurd (List.append_inj' happend rfl).1.symm (hne table')
  | some table =>
      cases table'? with
      | none =>
          have happend : Text.split '.' table ++ [name] = [] ++ [name'] := h
          exact absurd (List.append_inj' happend rfl).1 (hne table)
      | some table' =>
          obtain ⟨htable, hname⟩ := List.append_inj' h rfl
          have hjoined := congrArg (String.singleton '.').intercalate htable
          rw [Text.join_split, Text.join_split] at hjoined
          exact congrArg₂ FieldRef.mk (congrArg some hjoined) (List.singleton_inj.mp hname)

theorem render_eq_join (d : Dialect) (ref : FieldRef) :
    ref.render d = ".".intercalate (ref.parts.map d.quotePart) := by
  unfold render parts
  cases ref.table with
  | none => simp
  | some table =>
      obtain ⟨part, more, hparts⟩ := List.exists_cons_of_ne_nil (l := Text.split '.' table)
        (by simp [Text.split, Text.segments_ne_nil])
      simp only [Dialect.quotePath, hparts, List.cons_append, List.map_cons, List.map_append,
        List.map_nil]
      rw [← List.cons_append, String.intercalate_append_of_ne_nil (by simp) (by simp),
        String.intercalate_singleton]

theorem readPath_render (h : d.EndsName rest) (ref : FieldRef) :
    d.readPath ((ref.render d).toList ++ rest) = some (ref.parts.map .ofPart, rest) := by
  have hlength := Dialect.length_le_join (ref.parts.map d.quotePart)
  rw [Dialect.readPath, render_eq_join]
  refine Dialect.readParts_join h ref.parts_ne_nil ?_
  rw [List.length_map] at hlength
  rw [List.length_append]
  omega

end FieldRef

namespace Dialect

variable {d : Dialect}

theorem quoteIdentifier_injective (d : Dialect) : Function.Injective d.quoteIdentifier := by
  intro name name' h
  have hread : ∀ name, d.readIdentifier ((d.quoteIdentifier name).toList ++ []) = some (name, []) :=
    readIdentifier_quoteIdentifier nofun
  have hname' := hread name'
  rw [← h, hread name] at hname'
  exact (Prod.mk.inj (Option.some.inj hname')).1

def labelText (d : Dialect) : Option String → String
  | some label => " " ++ Keyword.as.text ++ " " ++ d.quoteIdentifier label
  | none => ""

theorem labelText_injective (d : Dialect) : Function.Injective d.labelText := by
  intro label? label'? h
  cases label? with
  | none =>
      cases label'? with
      | none => rfl
      | some label' => simp [labelText] at h
  | some label =>
      cases label'? with
      | none => simp [labelText] at h
      | some label' =>
          rw [d.quoteIdentifier_injective (String.append_right_inj _ |>.mp h)]

theorem endsName_labelText (d : Dialect) (label? : Option String) :
    d.EndsName (d.labelText label?).toList := by
  cases label? with
  | none => exact ⟨nofun, nofun⟩
  | some label =>
      have hhead : (d.labelText (some label)).toList.head? = some ' ' := by simp [labelText]
      rw [EndsName, hhead]
      cases d with
      | _ => decide

def fieldText (d : Dialect) (field : FieldRef × Option String) : String :=
  field.1.render d ++ d.labelText field.2

/-- A reader finds the table and the name of a field up to its label. -/
theorem fieldText_injective (d : Dialect) : Function.Injective d.fieldText := by
  rintro ⟨ref, label?⟩ ⟨ref', label'?⟩ h
  have hread := FieldRef.readPath_render (d.endsName_labelText label?) ref
  have hread' := FieldRef.readPath_render (d.endsName_labelText label'?) ref'
  rw [← String.toList_append] at hread hread'
  have htext : ref.render d ++ d.labelText label? = ref'.render d ++ d.labelText label'? := h
  rw [htext, hread'] at hread
  obtain ⟨hparts, hlabel⟩ := Prod.mk.inj (Option.some.inj hread)
  rw [FieldRef.parts_injective (List.map_injective_iff.mpr NamePart.ofPart_injective hparts),
    d.labelText_injective (String.toList_inj.mp hlabel)]

end Dialect

namespace Column

variable {d : Dialect} {starAllowed : Bool} {text : String}

def ofField (field : FieldRef × Option String) : Column :=
  .field field.1 field.2

theorem render_ofField (d : Dialect) (field : FieldRef × Option String) :
    (ofField field).render d true = .ok (d.fieldText field) := by
  obtain ⟨ref, label?⟩ := field
  cases label? with
  | none => simp [ofField, render, Dialect.fieldText, Dialect.labelText]
  | some label =>
      simp [ofField, render, Dialect.fieldText, Dialect.labelText, withAlias, String.append_assoc]

/-- Where a star is not allowed, a field has the same text or none. -/
theorem eq_fieldText_of_render {field : FieldRef × Option String}
    (h : (ofField field).render d starAllowed = .ok text) : text = d.fieldText field := by
  have hall := render_ofField d field
  obtain ⟨ref, label?⟩ := field
  unfold ofField render at h hall
  split at h
  next => cases h
  next =>
      rw [if_neg (by simp)] at hall
      exact Except.ok.inj (h.symm.trans hall)

end Column

theorem columnTexts_eq_ok {d : Dialect} {starAllowed : Bool} {columns : List Column}
    {texts : List String} (h : columnTexts d starAllowed columns = .ok texts) :
    List.Forall₂ (fun column text => column.render d starAllowed = .ok text) columns texts := by
  induction columns generalizing texts with
  | nil =>
      cases h
      exact .nil
  | cons column rest ih =>
      rw [columnTexts] at h
      obtain ⟨text, htext, h⟩ := attempt_bind_eq_ok.mp h
      obtain ⟨others, hothers, h⟩ := attempt_bind_eq_ok.mp h
      cases h
      exact .cons htext (ih hothers)

/-! ## Lists -/

variable {d : Dialect} {starAllowed : Bool} {columns : List Column} {text : String}

/-- A list of columns is the texts of its columns, each where it is first seen.  Fields have texts of
their own, so that of a list of fields each one stands where it is first seen. -/
theorem renderColumns_firstSeen (h : renderColumns d starAllowed columns = .ok text) :
    (∃ texts, List.Forall₂ (fun column text => column.render d starAllowed = .ok text) columns texts ∧
      text = ", ".intercalate (firstSeen texts)) ∧
    (∀ field field' s s', (Column.ofField field).render d starAllowed = .ok s →
      (Column.ofField field').render d starAllowed = .ok s' → (s = s' ↔ field = field')) ∧
    ∀ fields, columns = fields.map Column.ofField →
      text = ", ".intercalate ((firstSeen fields).map d.fieldText) := by
  obtain ⟨texts, htexts, h⟩ := attempt_bind_eq_ok.mp h
  have hcolumns := columnTexts_eq_ok htexts
  have htext : text = ", ".intercalate (firstSeen texts) := by
    rw [← eraseDups_eq_firstSeen]
    exact (Except.ok.inj h).symm
  refine ⟨⟨texts, hcolumns, htext⟩, ?_, ?_⟩
  · intro field field' s s' hs hs'
    rw [Column.eq_fieldText_of_render hs, Column.eq_fieldText_of_render hs']
    exact d.fieldText_injective.eq_iff
  · rintro fields rfl
    have hfields : texts = fields.map d.fieldText := by
      rw [List.forall₂_map_left_iff] at hcolumns
      have hsame : List.Forall₂ (· = ·) texts (fields.map d.fieldText) := by
        rw [List.forall₂_map_right_iff]
        exact hcolumns.flip.imp fun _ _ hfield => Column.eq_fieldText_of_render hfield
      rwa [List.forall₂_eq_eq_eq] at hsame
    rw [htext, hfields, firstSeen_map d.fieldText_injective]

/-- A field of a table of two parts, a field with a dot in its name, and the first one once more and
with a label. -/
def prefixedFields : List (FieldRef × Option String) :=
  [(⟨some "a.b", "c"⟩, none), (⟨some "a", "b.c"⟩, none), (⟨some "a.b", "c"⟩, none),
    (⟨some "a.b", "c"⟩, some "k")]

/-- The field that is named twice is selected once, and the others have texts of their own. -/
theorem renderColumns_firstSeen_prefixed :
    renderColumns .generic true (prefixedFields.map Column.ofField) =
      .ok "\"a\".\"b\".\"c\", \"a\".\"b.c\", \"a\".\"b\".\"c\" AS \"k\"" ∧
    "\"a\".\"b\".\"c\", \"a\".\"b.c\", \"a\".\"b\".\"c\" AS \"k\"" =
      ", ".intercalate ((firstSeen prefixedFields).map (Dialect.fieldText .generic)) := by
  have h : renderColumns .generic true (prefixedFields.map Column.ofField) =
      .ok "\"a\".\"b\".\"c\", \"a\".\"b.c\", \"a\".\"b\".\"c\" AS \"k\"" := by rfl
  exact ⟨h, (renderColumns_firstSeen h).2.2 _ rfl⟩

end RecordMapper
