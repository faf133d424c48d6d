import RecordMapper.Proofs.Attempt
import RecordMapper.Row
import RecordMapper.Statement.Select

/-!
# Pages

The limit and the offset of a selection stand at its end and choose from the rows that it would give
without them.  An offset is written only beside a limit, so that `Select.paging` is what is written and
not what is stored.
-/

namespace RecordMapper

/-- Which rows of a result are given. -/
structure Paging where
  limit : Option UInt64
  offset : Option UInt64

namespace Paging

/-- The clauses, with an offset whether there is a limit or not. -/
def text (paging : Paging) : String :=
  limitText paging.limit ++
    match paging.offset with
    | some n => " " ++ Keyword.offset.text ++ " " ++ toString n.toNat
    | none => ""

/-- The same offset, and one row. -/
def first (paging : Paging) : Paging :=
  ⟨some 1, paging.offset⟩

/-- The rows behind the offset, as many as the limit allows. -/
def window {α : Type} (paging : Paging) (rows : List α) : List α :=
  let left := rows.drop (paging.offset.getD 0).toNat
  match paging.limit with
  | some n => left.take n.toNat
  | none => left

end Paging

namespace Select

/-- The limit and the offset that a selection writes. -/
def paging (s : Select) : Paging :=
  ⟨s.limit, s.limit.bind fun _ => s.offset⟩

/-- The selection without what stands at its end: of all rows, and without a lock. -/
def unpaged (s : Select) : Select :=
  { s with limit := none, offset := none, forUpdate := false }

def lockText (s : Select) : String :=
  if s.forUpdate then " " ++ Keyword.forUpdate.text else ""

theorem text_paging (s : Select) :
    s.paging.text = limitText s.limit ++ offsetText s.limit s.offset := by
  unfold paging Paging.text offsetText
  cases s.limit with
  | none => rfl
  | some n => cases s.offset <;> rfl

/-- Behind the text of the selection of all rows stand the limit and the offset, and then the lock. -/
theorem render_paged (d : Dialect) (s : Select) :
    s.render d = (fun front => front ++ s.paging.text ++ s.lockText) <$> s.unpaged.render d := by
  rw [text_paging, lockText]
  obtain ⟨distinct, modifiers, columns, sources, joins, filter, group, having, order, limit, offset,
    forUpdate⟩ := s
  have hlimit : limitText none = "" := rfl
  have hoffset : offsetText none none = "" := rfl
  rw [unpaged, render, render]
  by_cases hsources : sources.isEmpty = true
  · rw [if_pos hsources, if_pos hsources]
    rfl
  · rw [if_neg hsources, if_neg hsources]
    simp only [map_bind, map_pure, hlimit, hoffset, Bool.false_eq_true, if_false,
      String.append_empty, String.append_assoc]

/-! ## The first row -/

/-- The selection has an offset that is not written, because there is no limit beside it. -/
def HidesOffset (s : Select) : Prop :=
  s.limit = none ∧ s.offset ≠ none

variable {s : Select}

theorem offset_paging (h : ¬ s.HidesOffset) : s.paging.offset = s.offset := by
  unfold HidesOffset at h
  unfold paging
  cases hlimit : s.limit with
  | some n => rfl
  | none =>
      have hoffset : s.offset = none := by simpa [hlimit] using h
      rw [hoffset]
      rfl

theorem offset_paging_of_hidesOffset (h : s.HidesOffset) : s.paging.offset = none := by
  rw [paging, h.1]
  rfl

/-- With a limit of one the stored offset is written, hidden or not. -/
theorem paging_setLimit_one (s : Select) : (s.setLimit 1).paging = ⟨some 1, s.offset⟩ :=
  rfl

/-- The text of the first row has the offset of the page if and only if no offset is hidden. -/
theorem text_setLimit_one_iff :
    (s.setLimit 1).paging.text = s.paging.first.text ↔ ¬ s.HidesOffset := by
  rw [paging_setLimit_one, Paging.first]
  constructor
  · intro htext hhidden
    obtain ⟨n, hn⟩ := Option.ne_none_iff_exists'.mp hhidden.2
    rw [offset_paging_of_hidesOffset hhidden, hn, Paging.text, Paging.text,
      String.append_right_inj] at htext
    simp at htext
  · intro h
    rw [offset_paging h]

theorem pos_of_ne_some_zero {count : Option UInt64} (h : count ≠ some 0) {n : UInt64}
    (hn : count = some n) : 0 < n.toNat := by
  refine Nat.pos_of_ne_zero fun hzero => h ?_
  have hn0 : n = 0 := UInt64.toNat_inj.mp hzero
  rw [hn, hn0]

theorem window_setLimit_one_iff (hlimit : s.limit ≠ some 0) (hoffset : s.offset ≠ some 0) :
    (∀ rows : List Row, (s.setLimit 1).paging.window rows = (s.paging.window rows).take 1) ↔
      ¬ s.HidesOffset := by
  rw [paging_setLimit_one]
  constructor
  · intro hwindow hhidden
    obtain ⟨n, hn⟩ := Option.ne_none_iff_exists'.mp hhidden.2
    have hpos : 0 < n.toNat := pos_of_ne_some_zero hoffset hn
    -- Of as many rows as the offset skips, the page has all and the selection of the first has none.
    have hrows := congrArg List.length (hwindow (List.replicate n.toNat Row.empty))
    rw [hn, paging, hhidden.1] at hrows
    simp [Paging.window] at hrows
    omega
  · intro h rows
    have hoffset' := offset_paging h
    unfold Paging.window
    rw [hoffset']
    cases hn : s.limit with
    | none => simp [paging, hn]
    | some n =>
        have hpos : 0 < n.toNat := pos_of_ne_some_zero hlimit hn
        simp only [paging, hn, List.take_take]
        rw [Nat.min_eq_left hpos]
        rfl

end Select

end RecordMapper
