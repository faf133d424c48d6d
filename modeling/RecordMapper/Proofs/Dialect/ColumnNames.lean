import RecordMapper.Condition.FieldRef
import RecordMapper.Proofs.Dialect.Unquoting

/-!
# Names of columns

A row is written under the names of its columns, each in quotes as a whole.  A selection or a condition
takes the name of a column for a path: it is cut at its last dot, and a star stands for itself.
`columnRef_eq_iff` says for which names the two are the same.
-/

namespace RecordMapper

namespace Text

theorem cutLast_eq_none_iff {isMark : Char → Bool} {text : List Char} :
    cutLast isMark text = none ↔ ∀ c ∈ text, isMark c = false := by
  induction text with
  | nil => simp [cutLast]
  | cons c rest ih =>
      rw [List.forall_mem_cons, ← ih, cutLast]
      cases cutLast isMark rest with
      | some cut => simp
      | none => cases hc : isMark c <;> simp

end Text

namespace FieldRef

theorem ofPath_eq_iff {path : String} :
    ofPath path = ⟨none, path⟩ ↔ '.' ∉ path.toList.tail := by
  rw [ofPath]
  cases path.toList with
  | nil => simp [Text.cutLast]
  | cons c rest =>
      have hnone : Text.cutLast (· == '.') rest = none ↔ '.' ∉ rest := by
        rw [Text.cutLast_eq_none_iff]
        simp only [beq_eq_false_iff_ne]
        exact ⟨fun h hdot => h '.' hdot rfl, fun h c hc heq => h (heq ▸ hc)⟩
      rw [List.tail_cons, ← hnone, Text.cutLast]
      cases Text.cutLast (· == '.') rest with
      | some cut => simp
      | none => cases hc : c == '.' <;> simp

theorem ofPath_cases (path : String) :
    ofPath path = ⟨none, path⟩ ∨ ∃ table name, ofPath path = ⟨some table, name⟩ := by
  rw [ofPath]
  split
  next before after _ =>
      split
      next => exact .inl rfl
      next => exact .inr ⟨_, _, rfl⟩
  next => exact .inl rfl

end FieldRef

namespace Dialect

def columnRef (d : Dialect) (name : String) : String :=
  (FieldRef.ofPath name).render d

/-- The name is no star, and no dot cuts it. -/
def IsWhole (name : String) : Prop :=
  name ≠ "*" ∧ '.' ∉ name.toList.tail

instance (name : String) : Decidable (IsWhole name) :=
  inferInstanceAs (Decidable (_ ∧ _))

variable {d : Dialect} {name : String}

theorem quotePart_eq_iff : d.quotePart name = d.quoteIdentifier name ↔ name ≠ "*" := by
  rw [quotePart]
  split
  next hstar =>
      rw [hstar]
      refine iff_of_false (fun h => ?_) (fun h => h rfl)
      -- a quoted star begins with the quote
      have hfirst : some '*' = some d.quoteChar := by
        simpa [quoteIdentifier, Quoting.enclose] using congrArg (fun text => text.toList.head?) h
      exact quoteChar_ne_star d (Option.some.inj hfirst).symm
  next hstar => exact iff_of_true rfl hstar

/-- A reader of a dotted name stops at its first dot, but it reads a name in quotes to its end. -/
theorem quotePath_append_ne (table : String) (rest : String) (hname : name ≠ "*") :
    d.quotePath table ++ "." ++ rest ≠ d.quoteIdentifier name := by
  intro h
  have hquoted : d.readPart ((d.quotePart name).toList ++ []) = some (.ofPart name, []) :=
    readPart_quotePart (by simp) name
  rw [quotePart_eq_iff.mpr hname, List.append_nil, ← h] at hquoted
  obtain ⟨part, more, hparts⟩ := List.exists_cons_of_ne_nil (l := Text.split '.' table)
    (by simp [Text.split, Text.segments_ne_nil])
  obtain ⟨after, htext⟩ : ∃ after, (d.quotePath table ++ "." ++ rest).toList =
      (d.quotePart part).toList ++ '.' :: after := by
    rw [quotePath, hparts, List.map_cons]
    cases more with
    | nil => exact ⟨rest.toList, by simp⟩
    | cons next more => exact ⟨_, by simp [String.intercalate_cons_cons]; rfl⟩
  rw [htext, readPart_quotePart (by simpa using (quoteChar_ne_dot d).symm)] at hquoted
  simp at hquoted

/-- A column is read under the name that it is written under if and only if its name is whole. -/
theorem columnRef_eq_iff : d.columnRef name = d.quoteIdentifier name ↔ IsWhole name := by
  rw [columnRef]
  rcases FieldRef.ofPath_cases name with hwhole | ⟨table, last, hcut⟩
  · rw [hwhole]
    exact quotePart_eq_iff.trans (and_iff_left (FieldRef.ofPath_eq_iff.mp hwhole)).symm
  · have hdot : '.' ∈ name.toList.tail := by
      refine Decidable.byContradiction fun hdot => ?_
      cases hcut.symm.trans (FieldRef.ofPath_eq_iff.mpr hdot)
    have hname : name ≠ "*" := by
      rintro rfl
      exact absurd hdot (by decide)
    rw [hcut]
    exact iff_of_false (quotePath_append_ne table _ hname) fun h => h.2 hdot

end Dialect

end RecordMapper
