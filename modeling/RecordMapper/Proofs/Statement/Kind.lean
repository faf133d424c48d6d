import RecordMapper.Proofs.Attempt
import RecordMapper.Statement.Delete
import RecordMapper.Statement.Insert
import RecordMapper.Statement.Update

/-!
# Kinds of statements

The first word of a statement tells its kind.  No text is of two kinds, and every rendered statement
is of its own.
-/

namespace RecordMapper

namespace StatementKind

def keyword : StatementKind → Keyword
  | select => .select
  | insert => .insert
  | update => .update
  | delete => .delete

/-- Whether a text begins with the word of a kind. -/
def begins (kind : StatementKind) (sql : String) : Bool :=
  kind.keyword.text.toList.isPrefixOf sql.toList

theorem begins_keyword (kind : StatementKind) : kind.begins kind.keyword.text = true := by
  cases kind <;> rfl

theorem begins_append {kind : StatementKind} {sql : String} (h : kind.begins sql = true)
    (rest : String) : kind.begins (sql ++ rest) = true := by
  rw [begins, List.isPrefixOf_iff_prefix] at *
  rw [String.toList_append]
  exact h.trans (List.prefix_append _ _)

theorem keyword_injective {kind other : StatementKind}
    (h : kind.keyword.text.toList <+: other.keyword.text.toList) : kind = other := by
  cases kind <;> cases other <;> first | rfl | exact absurd h (by decide)

theorem begins_unique {kind other : StatementKind} {sql : String} (h : kind.begins sql = true)
    (h' : other.begins sql = true) : kind = other := by
  rw [begins, List.isPrefixOf_iff_prefix] at h h'
  rcases List.prefix_or_prefix_of_prefix h h' with hprefix | hprefix
  · exact keyword_injective hprefix
  · exact (keyword_injective hprefix).symm

theorem begins_eq_decide {kind : StatementKind} {sql : String} (h : kind.begins sql = true)
    (other : StatementKind) : other.begins sql = decide (other = kind) := by
  by_cases heq : other = kind
  · rw [heq, h, decide_eq_true rfl]
  · rw [decide_eq_false heq, Bool.eq_false_iff]
    intro h'
    exact heq (begins_unique h' h)

end StatementKind

open StatementKind

theorem Insert.begins_render {d : Dialect} {s : Insert} {sql : String}
    (h : s.render d = .ok sql) : StatementKind.insert.begins sql = true := by
  unfold render at h
  split at h
  · cases h
  · cases h
  · obtain ⟨modifiers, -, h⟩ := attempt_bind_eq_ok.mp h
    obtain ⟨rows, -, h⟩ := attempt_bind_eq_ok.mp h
    obtain ⟨returning, -, h⟩ := attempt_bind_eq_ok.mp h
    cases h
    iterate 8 apply begins_append
    exact begins_keyword .insert

theorem Update.begins_render {d : Dialect} {s : Update} {sql : String}
    (h : s.render d = .ok sql) : StatementKind.update.begins sql = true := by
  unfold render at h
  split at h
  · cases h
  · split at h
    · cases h
    · obtain ⟨assignments, -, h⟩ := attempt_bind_eq_ok.mp h
      obtain ⟨modifiers, -, h⟩ := attempt_bind_eq_ok.mp h
      obtain ⟨filter, -, h⟩ := attempt_bind_eq_ok.mp h
      obtain ⟨order, -, h⟩ := attempt_bind_eq_ok.mp h
      cases h
      iterate 10 apply begins_append
      exact begins_keyword .update

theorem Delete.begins_render {d : Dialect} {s : Delete} {sql : String}
    (h : s.render d = .ok sql) : StatementKind.delete.begins sql = true := by
  unfold render at h
  split at h
  · cases h
  · obtain ⟨modifiers, -, h⟩ := attempt_bind_eq_ok.mp h
    obtain ⟨filter, -, h⟩ := attempt_bind_eq_ok.mp h
    obtain ⟨order, -, h⟩ := attempt_bind_eq_ok.mp h
    cases h
    iterate 8 apply begins_append
    exact begins_keyword .delete

theorem Select.begins_render {d : Dialect} {s : Select} {sql : String}
    (h : s.render d = .ok sql) : StatementKind.select.begins sql = true := by
  obtain ⟨distinct, modifiers, columns, sources, joins, filter, group, having, order, limit, offset,
    forUpdate⟩ := s
  rw [render] at h
  by_cases hsources : sources.isEmpty = true
  · rw [if_pos hsources] at h
    cases h
  · rw [if_neg hsources] at h
    obtain ⟨modifiers, -, h⟩ := attempt_bind_eq_ok.mp h
    obtain ⟨columns, -, h⟩ := attempt_bind_eq_ok.mp h
    obtain ⟨sources, -, h⟩ := attempt_bind_eq_ok.mp h
    obtain ⟨joins, -, h⟩ := attempt_bind_eq_ok.mp h
    obtain ⟨filter, -, h⟩ := attempt_bind_eq_ok.mp h
    obtain ⟨group, -, h⟩ := attempt_bind_eq_ok.mp h
    obtain ⟨having, -, h⟩ := attempt_bind_eq_ok.mp h
    obtain ⟨order, -, h⟩ := attempt_bind_eq_ok.mp h
    rw [← Except.ok.inj h]
    iterate 16 apply begins_append
    exact begins_keyword .select

end RecordMapper
