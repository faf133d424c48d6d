import RecordMapper.Proofs.EmbedTree

/-!
# Trees as unions of paths

The tree of a list of paths holds these paths and their beginnings and nothing else, and a tree that is
extended by another one holds the paths of both.  `extend` goes through a tree where `insert` goes along
a path; `extend_insertNames` says that the two agree, also on the order of the relations.
-/

namespace RecordMapper

namespace EmbedTree

/-- At every node the relations have different names. -/
def Distinct : EmbedTree → Prop
  | nil => True
  | cons name below rest => name ∉ rest.names ∧ below.Distinct ∧ rest.Distinct

/-- The trees that can be put together. -/
inductive Built : EmbedTree → Prop
  | ofPaths (paths : List String) : Built (ofPaths paths)
  | insert {tree : EmbedTree} (h : Built tree) (path : String) : Built (tree.insert path)
  | merge {tree other : EmbedTree} (h : Built tree) (name : String) (hother : Built other) :
      Built (tree.merge name other)
  | extend {tree other : EmbedTree} (h : Built tree) (hother : Built other) :
      Built (tree.extend other)

variable {tree other : EmbedTree} {name second : String} {names : List String}
  {change alter : EmbedTree → EmbedTree}

/-! ## Names of siblings -/

theorem distinct_nil : nil.Distinct :=
  trivial

theorem names_update (name : String) (change : EmbedTree → EmbedTree) (tree : EmbedTree) :
    (tree.update name change).names =
      if name ∈ tree.names then tree.names else tree.names ++ [name] := by
  induction tree with
  | nil => simp [update, EmbedTree.names]
  | cons first below rest _ ih =>
      by_cases hfirst : first = name
      · simp [update, EmbedTree.names, hfirst]
      · by_cases hrest : name ∈ rest.names
        · simp [update, EmbedTree.names, hfirst, hrest, ih]
        · simp [update, EmbedTree.names, hfirst, Ne.symm hfirst, hrest, ih]

theorem mem_names_update : second ∈ (tree.update name change).names ↔
    second ∈ tree.names ∨ second = name := by
  rw [names_update]
  split
  next hmem =>
      constructor
      · exact .inl
      · rintro (h | rfl)
        · exact h
        · exact hmem
  next => simp

theorem distinct_update (h : tree.Distinct)
    (hchange : ∀ node : EmbedTree, node.Distinct → (change node).Distinct) :
    (tree.update name change).Distinct := by
  induction tree with
  | nil => exact ⟨by simp [EmbedTree.names], hchange nil distinct_nil, distinct_nil⟩
  | cons first below rest _ ih =>
      obtain ⟨hfirst, hbelow, hrest⟩ := h
      by_cases hname : first = name
      · simp only [update, hname, if_true]
        exact ⟨hname ▸ hfirst, hchange below hbelow, hrest⟩
      · simp only [update, hname, if_false]
        refine ⟨?_, hbelow, ih hrest⟩
        simp [mem_names_update, hfirst, hname]

theorem distinct_insertNames (h : tree.Distinct) (names : List String) :
    (insertNames names tree).Distinct := by
  induction names generalizing tree with
  | nil => exact h
  | cons name names ih => exact distinct_update h fun node hnode => ih hnode

/-- A tree that is read into another one adds no name twice, whatever its own names are. -/
theorem distinct_extend (h : tree.Distinct) (other : EmbedTree) : (tree.extend other).Distinct := by
  induction other generalizing tree with
  | nil => exact h
  | cons name below rest ihbelow ihrest =>
      exact ihrest (distinct_update h fun node hnode => ihbelow hnode)

theorem distinct_foldl_insert (h : tree.Distinct) (paths : List String) :
    (paths.foldl insert tree).Distinct := by
  induction paths generalizing tree with
  | nil => exact h
  | cons path paths ih => exact ih (distinct_insertNames h (pathNames path))

theorem distinct_ofPaths (paths : List String) : (ofPaths paths).Distinct :=
  distinct_foldl_insert distinct_nil paths

theorem distinct_of_built (h : Built tree) : tree.Distinct := by
  induction h with
  | ofPaths paths => exact distinct_ofPaths paths
  | insert _ path ih => exact distinct_insertNames ih (pathNames path)
  | merge _ name _ ih _ => exact distinct_update ih fun node hnode => distinct_extend hnode _
  | extend _ _ ih _ => exact distinct_extend ih _

/-! ## Changes in another order -/

theorem update_update (name : String) (change alter : EmbedTree → EmbedTree) (tree : EmbedTree) :
    (tree.update name change).update name alter =
      tree.update name fun node => alter (change node) := by
  induction tree with
  | nil => simp [update]
  | cons first below rest _ ih =>
      by_cases hfirst : first = name
      · simp [update, hfirst]
      · simp [update, hfirst, ih]

/-- A relation that is there keeps its place when another one is added. -/
theorem update_comm (hne : name ≠ second) (hmem : name ∈ tree.names) :
    (tree.update name change).update second alter =
      (tree.update second alter).update name change := by
  induction tree with
  | nil => simp [EmbedTree.names] at hmem
  | cons first below rest _ ih =>
      by_cases hname : first = name
      · subst hname
        simp [update, hne]
      · by_cases hsecond : first = second
        · simp [update, hsecond, hne.symm]
        · have hrest : name ∈ rest.names := by
            simpa [EmbedTree.names, Ne.symm hname] using hmem
          simp [update, hname, hsecond, ih hrest]

theorem extend_update_left (hother : name ∉ other.names) (hmem : name ∈ tree.names) :
    (tree.update name change).extend other = (tree.extend other).update name change := by
  induction other generalizing tree with
  | nil => rfl
  | cons first below rest _ ih =>
      obtain ⟨hfirst, hrest⟩ : name ≠ first ∧ name ∉ rest.names := by
        simpa [EmbedTree.names] using hother
      rw [extend, extend, update_comm hfirst hmem]
      exact ih hrest (mem_names_update.mpr (.inl hmem))

/-- A change that can be made to the trees below before or after they are extended can be made to a
relation before or after. -/
theorem extend_update_right (h : other.Distinct)
    (hchange : ∀ node below : EmbedTree, below.Distinct →
      node.extend (change below) = change (node.extend below)) :
    tree.extend (other.update name change) = (tree.extend other).update name change := by
  induction other generalizing tree with
  | nil =>
      have hnil : (fun node : EmbedTree => node.extend (change nil)) = change := by
        funext node
        exact hchange node nil distinct_nil
      simp only [update, extend, hnil]
  | cons first below rest _ ih =>
      obtain ⟨hfirst, hbelow, hrest⟩ := h
      by_cases hname : first = name
      · subst hname
        have hboth : (fun node : EmbedTree => node.extend (change below)) =
            fun node => change (node.extend below) := by
          funext node
          exact hchange node below hbelow
        -- The name does not come again, so that the change can wait until the rest is read.
        have hmem : first ∈ (tree.update first fun node => node.extend below).names :=
          mem_names_update.mpr (.inr rfl)
        rw [update, if_pos rfl, extend, extend, hboth, ← update_update,
          extend_update_left hfirst hmem]
      · rw [update, if_neg hname, extend, extend, ih hrest]

theorem extend_insertNames (h : other.Distinct) (names : List String) :
    tree.extend (insertNames names other) = insertNames names (tree.extend other) := by
  induction names generalizing tree other with
  | nil => rfl
  | cons name names ih => exact extend_update_right h fun node below hbelow => ih hbelow

theorem extend_foldl_insert (h : other.Distinct) (paths : List String) :
    tree.extend (paths.foldl insert other) = paths.foldl insert (tree.extend other) := by
  induction paths generalizing other with
  | nil => rfl
  | cons path paths ih =>
      have hpath : tree.extend (other.insert path) = (tree.extend other).insert path :=
        extend_insertNames h (pathNames path)
      rw [List.foldl_cons, List.foldl_cons, ← hpath]
      exact ih (distinct_insertNames h (pathNames path))

theorem extend_ofPaths (paths others : List String) :
    (ofPaths paths).extend (ofPaths others) = ofPaths (paths ++ others) := by
  rw [ofPaths, ofPaths, extend_foldl_insert distinct_nil, ofPaths, List.foldl_append, extend]

/-! ## Paths in a tree -/

theorem has_nil_iff : nil.Has names ↔ names = [] := by
  cases names with
  | nil => simp [Has]
  | cons name names => simp [Has, get?]

theorem has_insertNames_iff (others : List String) :
    (insertNames others tree).Has names ↔ tree.Has names ∨ names <+: others := by
  induction others generalizing tree names with
  | nil =>
      cases names with
      | nil => simp [Has]
      | cons name names => simp [insertNames]
  | cons other others ih =>
      cases names with
      | nil => simp [Has]
      | cons name names =>
          rw [insertNames, Has, get?_update, List.cons_prefix_cons]
          by_cases hname : name = other
          · subst hname
            cases hbelow : tree.get? name with
            | none =>
                -- The relation is new, so that only the rest of the path stands below it.
                have hbegins : names = [] → names <+: others := by
                  rintro rfl
                  exact List.nil_prefix
                simpa [Has, hbelow, ih, has_nil_iff] using hbegins
            | some below => simp [Has, hbelow, ih]
          · simp [hname, Has]

theorem has_foldl_insert_iff (paths : List String) :
    (paths.foldl insert tree).Has names ↔
      tree.Has names ∨ ∃ path ∈ paths, names <+: pathNames path := by
  induction paths generalizing tree with
  | nil => simp
  | cons path paths ih =>
      simp [ih, insert, has_insertNames_iff, or_assoc]

theorem update_of_get? {below : EmbedTree} (h : tree.get? name = some below)
    (hchange : change below = below) : tree.update name change = tree := by
  induction tree with
  | nil => cases h
  | cons first node rest _ ih =>
      by_cases hfirst : first = name
      · obtain rfl : node = below := by simpa [get?, hfirst] using h
        simp [update, hfirst, hchange]
      · simp [update, hfirst, ih (by simpa [get?, hfirst] using h)]

theorem insertNames_of_has (h : tree.Has names) : insertNames names tree = tree := by
  induction names generalizing tree with
  | nil => rfl
  | cons name names ih =>
      obtain ⟨below, hbelow, hhas⟩ := h
      exact update_of_get? hbelow (ih hhas)

/-- The tree of a list of paths is their union.  It is the same, in the order of its relations too,
whether paths are inserted or their own tree is added; no node of a tree that is put together has two
relations of one name; gets lead along the beginnings of the paths and nowhere else; and a path that a
tree has already is not added again. -/
theorem ofPaths_unites (paths others : List String) :
    (ofPaths paths).extend (ofPaths others) = ofPaths (paths ++ others) ∧
    (∀ tree, Built tree → tree.Distinct) ∧
    (∀ names, names ≠ [] →
      ((ofPaths paths).Has names ↔ ∃ path ∈ paths, names <+: pathNames path)) ∧
    ∀ (tree : EmbedTree) (path : String), tree.Has (pathNames path) → tree.insert path = tree := by
  refine ⟨extend_ofPaths paths others, fun tree => distinct_of_built, fun names hnames => ?_,
    fun tree path => insertNames_of_has⟩
  simp [ofPaths, has_foldl_insert_iff, has_nil_iff, hnames]

/-- Tags with their images, and then more paths below the tags. -/
def taggedPaths : List String :=
  ["tags.images", "gallery"]

def furtherPaths : List String :=
  ["tags..gallery", "", "tags.images.gallery", "tags"]

/-- The gallery of the tags comes after their images, which were there before. -/
theorem ofPaths_unites_tagged :
    (ofPaths taggedPaths).extend (ofPaths furtherPaths) =
      .cons "tags" (.cons "images" (.cons "gallery" nil nil) (.cons "gallery" nil nil))
        (.cons "gallery" nil nil) ∧
    Built (ofPaths taggedPaths) ∧ (ofPaths taggedPaths).Distinct ∧
    ["tags", "images"] ≠ [] ∧ (ofPaths taggedPaths).Has ["tags", "images"] ∧
    (ofPaths taggedPaths).Has (pathNames "tags.images") ∧
    (ofPaths taggedPaths).insert "tags.images" = ofPaths taggedPaths := by
  obtain ⟨hextend, hdistinct, hhas, hinsert⟩ := ofPaths_unites taggedPaths furtherPaths
  have hunion : ofPaths (taggedPaths ++ furtherPaths) =
      .cons "tags" (.cons "images" (.cons "gallery" nil nil) (.cons "gallery" nil nil))
        (.cons "gallery" nil nil) := by decide +kernel
  have hnames : pathNames "tags.images" = ["tags", "images"] := by decide +kernel
  have hmem : "tags.images" ∈ taggedPaths := List.mem_cons_self
  have hprefix : (ofPaths taggedPaths).Has ["tags", "images"] :=
    (hhas _ (by simp)).mpr ⟨_, hmem, hnames ▸ List.prefix_rfl⟩
  have hpath : (ofPaths taggedPaths).Has (pathNames "tags.images") := hnames ▸ hprefix
  exact ⟨hextend.trans hunion, .ofPaths _, hdistinct _ (.ofPaths _), by simp, hprefix, hpath,
    hinsert _ _ hpath⟩

end EmbedTree

end RecordMapper
