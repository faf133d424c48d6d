import RecordMapper.EmbedTree

/-!
# Paths in trees of relations

A tree has a path if it can be followed from relation to relation down the tree.  The tree of a list
of paths has all of them.
-/

namespace RecordMapper

namespace EmbedTree

/-- The relations of a path stand in the tree, each below the one before. -/
def Has : List String → EmbedTree → Prop
  | [], _ => True
  | name :: names, tree => ∃ below, tree.get? name = some below ∧ below.Has names

def entries : EmbedTree → List (String × EmbedTree)
  | nil => []
  | cons name below rest => (name, below) :: rest.entries

variable {tree : EmbedTree} {names : List String}

theorem map_fst_entries (tree : EmbedTree) : tree.entries.map Prod.fst = tree.names := by
  induction tree with
  | nil => rfl
  | cons name below rest _ ih => rw [entries, List.map_cons, ih, EmbedTree.names]

theorem get?_update (name other : String) (change : EmbedTree → EmbedTree) (tree : EmbedTree) :
    (tree.update name change).get? other =
      if other = name then some (change ((tree.get? name).getD nil)) else tree.get? other := by
  induction tree with
  | nil =>
      by_cases h : name = other
      · simp [update, get?, h]
      · simp [update, get?, h, Ne.symm h]
  | cons first below rest _ ih =>
      by_cases hfirst : first = name
      · subst hfirst
        by_cases h : first = other
        · simp [update, get?, h]
        · simp [update, get?, h, Ne.symm h]
      · rw [update, if_neg hfirst]
        by_cases h : first = other
        · subst h
          simp [get?, hfirst]
        · simp [get?, h, hfirst, ih]

theorem mem_names_of_get? {name : String} {below : EmbedTree} (h : tree.get? name = some below) :
    name ∈ tree.names := by
  induction tree with
  | nil => cases h
  | cons first _ rest _ ih =>
      rw [get?] at h
      split at h
      next hfirst => exact List.mem_cons.mpr (.inl hfirst.symm)
      next => exact List.mem_cons_of_mem first (ih h)

theorem mem_names_of_head? (h : tree.Has names) {name : String} (hname : name ∈ names.head?) :
    name ∈ tree.names := by
  cases names with
  | nil => cases hname
  | cons first names =>
      cases hname
      obtain ⟨below, hbelow, -⟩ := h
      exact mem_names_of_get? hbelow

theorem has_insertNames_self (names : List String) (tree : EmbedTree) :
    (insertNames names tree).Has names := by
  induction names generalizing tree with
  | nil => trivial
  | cons name names ih =>
      rw [insertNames, Has, get?_update, if_pos rfl]
      exact ⟨_, rfl, ih _⟩

theorem has_insertNames (h : tree.Has names) (others : List String) :
    (insertNames others tree).Has names := by
  induction others generalizing tree names with
  | nil => exact h
  | cons other others ih =>
      cases names with
      | nil => trivial
      | cons name names =>
          obtain ⟨below, hbelow, hhas⟩ := h
          rw [insertNames, Has, get?_update]
          by_cases hname : name = other
          · rw [if_pos hname, ← hname, hbelow]
            exact ⟨_, rfl, ih hhas⟩
          · rw [if_neg hname]
            exact ⟨below, hbelow, hhas⟩

theorem has_foldl_insert (h : tree.Has names) (paths : List String) :
    (paths.foldl insert tree).Has names := by
  induction paths generalizing tree with
  | nil => exact h
  | cons path paths ih => exact ih (has_insertNames h (pathNames path))

theorem has_ofPaths {paths : List String} {path : String} (h : path ∈ paths) :
    (ofPaths paths).Has (pathNames path) := by
  obtain ⟨before, after, rfl⟩ := List.append_of_mem h
  rw [ofPaths, List.foldl_append, List.foldl_cons]
  exact has_foldl_insert (has_insertNames_self _ _) after

end EmbedTree

end RecordMapper
