/-!
# Cutting text at a mark

`segments` cuts at every mark and `cutLast` at the last one.  Both lose only the marks themselves:
`segments_join` and `cutLast_eq_some` put the text together again.
-/

namespace RecordMapper.Text

/-- The pieces between the marks.  A text without a mark is one piece. -/
def segments (isMark : Char → Bool) : List Char → List (List Char)
  | [] => [[]]
  | c :: rest =>
      if isMark c then [] :: segments isMark rest
      else (segments isMark rest).modifyHead (c :: ·)

/-- What stands before and after the last mark. -/
def cutLast (isMark : Char → Bool) : List Char → Option (List Char × List Char)
  | [] => none
  | c :: rest =>
      match cutLast isMark rest with
      | some (before, after) => some (c :: before, after)
      | none => if isMark c then some ([], rest) else none

def split (mark : Char) (text : String) : List String :=
  (segments (· == mark) text.toList).map String.ofList

theorem segments_ne_nil (isMark : Char → Bool) (text : List Char) :
    segments isMark text ≠ [] := by
  induction text with
  | nil => simp [segments]
  | cons c rest ih =>
      unfold segments
      split
      · simp
      · cases h : segments isMark rest with
        | nil => exact absurd h ih
        | cons piece more => simp

theorem segments_join (mark : Char) (text : List Char) :
    [mark].intercalate (segments (· == mark) text) = text := by
  induction text with
  | nil => simp [segments]
  | cons c rest ih =>
      unfold segments
      cases hs : segments (· == mark) rest with
      | nil => exact absurd hs (segments_ne_nil _ rest)
      | cons piece more =>
          rw [hs] at ih
          split
          next h =>
            rw [beq_iff_eq] at h
            subst h
            simp [List.intercalate_cons_cons, ih]
          next h =>
            cases more with
            | nil => simpa using ih
            | cons next more => simpa [List.intercalate_cons_cons] using ih

theorem notMem_segments (mark : Char) (text : List Char) :
    ∀ piece ∈ segments (· == mark) text, mark ∉ piece := by
  induction text with
  | nil => simp [segments]
  | cons c rest ih =>
      unfold segments
      cases hs : segments (· == mark) rest with
      | nil => exact absurd hs (segments_ne_nil _ rest)
      | cons piece more =>
          rw [hs] at ih
          split
          · simpa using ih
          next h =>
            have hc : mark ≠ c := fun heq => h (by simp [heq])
            have hpiece := ih piece List.mem_cons_self
            simp only [List.modifyHead_cons, List.mem_cons, forall_eq_or_imp] at ih ⊢
            refine ⟨?_, ih.2⟩
            rintro (heq | hmem)
            · exact hc heq
            · exact hpiece hmem

theorem join_split (mark : Char) (text : String) :
    (String.singleton mark).intercalate (split mark text) = text := by
  rw [← String.toList_inj, String.toList_intercalate, split, List.map_map]
  simp [Function.comp_def, segments_join]

theorem notMem_split {mark : Char} {text : String} :
    ∀ part ∈ split mark text, mark ∉ part.toList := by
  intro part hpart
  obtain ⟨piece, hpiece, rfl⟩ := List.mem_map.mp hpart
  rw [String.toList_ofList]
  exact notMem_segments mark text.toList piece hpiece

theorem cutLast_eq_some {isMark : Char → Bool} {text before after : List Char}
    (h : cutLast isMark text = some (before, after)) :
    ∃ c, isMark c = true ∧ text = before ++ c :: after := by
  induction text generalizing before with
  | nil => simp [cutLast] at h
  | cons c rest ih =>
      unfold cutLast at h
      split at h
      next left right hcut =>
        simp only [Option.some.injEq, Prod.mk.injEq] at h
        obtain ⟨rfl, rfl⟩ := h
        obtain ⟨mark, hmark, rfl⟩ := ih hcut
        exact ⟨mark, hmark, rfl⟩
      next =>
        split at h
        next hc =>
          simp only [Option.some.injEq, Prod.mk.injEq] at h
          obtain ⟨rfl, rfl⟩ := h
          exact ⟨c, hc, rfl⟩
        next => simp at h

end RecordMapper.Text
