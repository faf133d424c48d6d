import Mathlib.Tactic.Common
import RecordMapper.Proofs.Pointwise
import RecordMapper.Session.Reconciling

/-!
# Pivots and the rows that they take over

Both passes of `pairRows` let claimants take items in turn.  Together they are a maximum matching
for each far key: `count_pairRows` gives the number of rows that are kept, and `pairRows_perm` says
that every row is either taken over by one pivot or stale.
-/

namespace RecordMapper

variable {α β γ δ : Type}

/-! ## Taking the first item that fits -/

theorem takeFirst_fst (fits : α → Bool) (items : List α) :
    (takeFirst fits items).1 = items.find? fits := by
  induction items with
  | nil => rfl
  | cons a rest ih =>
      by_cases h : fits a = true
      · simp [takeFirst, h]
      · simp [takeFirst, h, ih]

theorem takeFirst_perm (fits : α → Bool) (items : List α) :
    ((takeFirst fits items).1.toList ++ (takeFirst fits items).2).Perm items := by
  induction items with
  | nil => exact List.Perm.refl []
  | cons a rest ih =>
      by_cases h : fits a = true
      · simp [takeFirst, h]
      · simp only [takeFirst, h, Bool.false_eq_true, if_false]
        exact List.perm_middle.trans (ih.cons a)

theorem takeFirst_sublist (fits : α → Bool) (items : List α) :
    (takeFirst fits items).2.Sublist items := by
  induction items with
  | nil => exact List.Sublist.refl []
  | cons a rest ih =>
      by_cases h : fits a = true
      · simp [takeFirst, h]
      · simpa [takeFirst, h] using ih

theorem find?_takeFirst {fits other : α → Bool} {items : List α}
    (h : ∀ a ∈ items, fits a = true → other a = false) :
    (takeFirst fits items).2.find? other = items.find? other := by
  induction items with
  | nil => rfl
  | cons a rest ih =>
      have hrest := ih fun b hb => h b (List.mem_cons_of_mem a hb)
      by_cases ha : fits a = true
      · simp [takeFirst, ha, h a (by simp) ha]
      · simp [takeFirst, ha, List.find?_cons, hrest]

/-! ## Claiming in turn -/

theorem length_claimInTurn (fits : β → α → Bool) (claimants : List β) (items : List α) :
    (claimInTurn fits claimants items).1.length = claimants.length := by
  induction claimants generalizing items with
  | nil => rfl
  | cons claimant rest ih => simp [claimInTurn, ih]

theorem claimInTurn_perm (fits : β → α → Bool) (claimants : List β) (items : List α) :
    ((claimInTurn fits claimants items).1.filterMap id ++
      (claimInTurn fits claimants items).2).Perm items := by
  induction claimants generalizing items with
  | nil => exact List.Perm.refl items
  | cons claimant rest ih =>
      have htaken := takeFirst_perm (fits claimant) items
      have hothers := ih (takeFirst (fits claimant) items).2
      rw [claimInTurn]
      cases hfirst : (takeFirst (fits claimant) items).1 with
      | none =>
          rw [hfirst] at htaken
          simpa using hothers.trans htaken
      | some a =>
          rw [hfirst] at htaken
          simpa using (hothers.cons a).trans htaken

theorem claimInTurn_sublist (fits : β → α → Bool) (claimants : List β) (items : List α) :
    (claimInTurn fits claimants items).2.Sublist items := by
  induction claimants generalizing items with
  | nil => exact List.Sublist.refl items
  | cons claimant rest ih =>
      exact (ih (takeFirst (fits claimant) items).2).trans (takeFirst_sublist _ _)

/-- What a claimant takes fits it, and if it takes nothing then nothing that is left fits it. -/
theorem claimInTurn_spec (fits : β → α → Bool) (claimants : List β) (items : List α) :
    List.Forall₂ (fun claimant taken => (∀ a, taken = some a → fits claimant a = true) ∧
        (taken = none → ∀ a ∈ (claimInTurn fits claimants items).2, fits claimant a = false))
      claimants (claimInTurn fits claimants items).1 := by
  induction claimants generalizing items with
  | nil => exact .nil
  | cons claimant rest ih =>
      refine .cons ⟨?_, ?_⟩ (ih (takeFirst (fits claimant) items).2)
      · intro a ha
        rw [takeFirst_fst] at ha
        exact List.find?_some ha
      · intro hnone a ha
        rw [takeFirst_fst, List.find?_eq_none] at hnone
        have hleft := (claimInTurn_sublist fits rest _).subset ha
        simpa using hnone a ((takeFirst_sublist _ _).subset hleft)

/-- A claimant takes the first item that fits it, if no earlier claimant can take one of its
items. -/
theorem getElem?_claimInTurn {fits : β → α → Bool} {before after : List β} {claimant : β}
    {items : List α}
    (h : ∀ earlier ∈ before, ∀ a ∈ items, fits earlier a = true → fits claimant a = false) :
    (claimInTurn fits (before ++ claimant :: after) items).1[before.length]? =
      some (items.find? (fits claimant)) := by
  induction before generalizing items with
  | nil => simp [claimInTurn, takeFirst_fst]
  | cons earlier before ih =>
      have hleft : (takeFirst (fits earlier) items).2.find? (fits claimant) =
          items.find? (fits claimant) := find?_takeFirst (h earlier (by simp))
      have hsub := (takeFirst_sublist (fits earlier) items).subset
      have hrest := @ih (takeFirst (fits earlier) items).2 fun other hother a ha =>
        h other (List.mem_cons_of_mem earlier hother) a (hsub ha)
      rw [← hleft, ← hrest]
      rfl

/-! ## Two passes over the same claimants -/

theorem filterMap_zipWith_orElse_perm {first second : List (Option α)}
    (h : List.Forall₂ (fun a b => a = none ∨ b = none) first second) :
    ((List.zipWith (fun a b => a <|> b) first second).filterMap id).Perm
      (first.filterMap id ++ second.filterMap id) := by
  induction h with
  | nil => exact List.Perm.refl []
  | @cons own shared _ _ hab _ ih =>
      cases own with
      | some value =>
          obtain rfl : shared = none := by simpa using hab
          simpa using ih
      | none =>
          cases shared with
          | none => simpa using ih
          | some value => simpa using (ih.cons value).trans List.perm_middle.symm

/-! ## Pairing pivots with rows -/

theorem Row.hasKey_iff {row : Row} {column : String} {key : Key} :
    row.hasKey column key = true ↔ (row.get? column).bind Value.key? = some key := by
  rw [Row.hasKey, beq_iff_eq]

namespace Entity

theorem sharesFar_iff {farKey : String} {pivot : Entity} {row : Row} :
    pivot.sharesFar farKey row = true ↔
      ∃ far, pivot.fieldKey? farKey = some far ∧ row.hasKey farKey far = true := by
  rw [sharesFar]
  cases pivot.fieldKey? farKey with
  | none => simp
  | some far => simp

theorem ownsRow_iff {key : Option String} {farKey : String} {pivot : Entity} {row : Row} :
    pivot.ownsRow key farKey row = true ↔ ∃ column id, key = some column ∧
      (pivot.stored? column).bind Value.key? = some id ∧ row.hasKey column id = true ∧
      pivot.sharesFar farKey row = true := by
  unfold ownsRow
  cases key with
  | none => simp
  | some column =>
      cases hid : (pivot.stored? column).bind Value.key? with
      | none => simp [hid]
      | some id => simp [hid]

theorem sharesFar_of_ownsRow {key : Option String} {farKey : String} {pivot : Entity} {row : Row}
    (h : pivot.ownsRow key farKey row = true) : pivot.sharesFar farKey row = true := by
  obtain ⟨_, _, -, -, -, hshares⟩ := ownsRow_iff.mp h
  exact hshares

def storedId? (key : Option String) (pivot : Entity) : Option Key :=
  key.bind fun column => (pivot.stored? column).bind Value.key?

theorem ownsRow_eq_false {key : Option String} {farKey : String} {pivot other : Entity} {row : Row}
    (hids : other.storedId? key ≠ pivot.storedId? key)
    (h : other.ownsRow key farKey row = true) : pivot.ownsRow key farKey row = false := by
  rw [Bool.eq_false_iff]
  intro howns
  obtain ⟨column, id, rfl, hother, hrow, -⟩ := ownsRow_iff.mp h
  obtain ⟨_, id', hcolumn, hpivot, hrow', -⟩ := ownsRow_iff.mp howns
  cases hcolumn
  have hsame : id = id' :=
    Option.some.inj ((Row.hasKey_iff.mp hrow).symm.trans (Row.hasKey_iff.mp hrow'))
  exact hids (by simp only [storedId?, Option.bind_some, hother, hpivot, hsame])

end Entity

/-! ## The two passes -/

section

variable (key : Option String) (farKey : String) (pivots : List Entity) (stored : List Row)

def ownPass : List (Option Row) × List Row :=
  claimInTurn (Entity.ownsRow key farKey) pivots stored

def sharesLater (claimant : Entity × Option Row) (row : Row) : Bool :=
  claimant.2.isNone && claimant.1.sharesFar farKey row

def sharedPass : List (Option Row) × List Row :=
  claimInTurn (sharesLater farKey) (pivots.zip (ownPass key farKey pivots stored).1)
    (ownPass key farKey pivots stored).2

theorem pairRows_eq : pairRows key farKey pivots stored =
    (List.zipWith (fun own shared => own <|> shared) (ownPass key farKey pivots stored).1
      (sharedPass key farKey pivots stored).1, (sharedPass key farKey pivots stored).2) :=
  rfl

theorem length_ownPass : (ownPass key farKey pivots stored).1.length = pivots.length :=
  length_claimInTurn _ pivots stored

theorem passes_exclusive :
    List.Forall₂ (fun own shared => own = none ∨ shared = none)
      (ownPass key farKey pivots stored).1 (sharedPass key farKey pivots stored).1 := by
  have hspec := claimInTurn_spec (sharesLater farKey)
    (pivots.zip (ownPass key farKey pivots stored).1) (ownPass key farKey pivots stored).2
  have hsnd : (pivots.zip (ownPass key farKey pivots stored).1).map Prod.snd =
      (ownPass key farKey pivots stored).1 :=
    List.map_snd_zip (Nat.le_of_eq (length_ownPass key farKey pivots stored))
  rw [← hsnd, List.forall₂_map_left_iff]
  refine hspec.imp ?_
  rintro ⟨pivot, own⟩ shared ⟨htaken, -⟩
  cases shared with
  | none => exact .inr rfl
  | some row =>
      have hfits := htaken row rfl
      exact .inl (Option.isNone_iff_eq_none.mp (Bool.and_eq_true_iff.mp hfits).1)

/-! ## Pairing pivots with rows -/

/-- The rows that pivots take over. -/
def keptRows : List Row :=
  (pairRows key farKey pivots stored).1.filterMap id

/-- The rows that no pivot takes over. -/
def staleRows : List Row :=
  (pairRows key farKey pivots stored).2

/-- Every pivot shares its far key with the row that it takes over, and a pivot without a row shares
its far key with no stale row. -/
theorem pairRows_spec :
    List.Forall₂ (fun (pivot : Entity) row? =>
        (∀ row, row? = some row → pivot.sharesFar farKey row = true) ∧
        (row? = none → ∀ row ∈ staleRows key farKey pivots stored,
          pivot.sharesFar farKey row = false))
      pivots (pairRows key farKey pivots stored).1 := by
  apply forall₂_zipWith (claimInTurn_spec (Entity.ownsRow key farKey) pivots stored)
    (claimInTurn_spec _ _ _)
  intro pivot own shared hown hshared
  cases own with
  | some row =>
      refine ⟨fun other hother => ?_, fun hnone => by cases hnone⟩
      obtain rfl : row = other := by simpa using hother
      exact Entity.sharesFar_of_ownsRow (hown.1 row rfl)
  | none =>
      refine ⟨fun row hrow => ?_, fun hnone row hrow => ?_⟩
      · exact (Bool.and_eq_true_iff.mp (hshared.1 row (by simpa using hrow))).2
      · simpa using hshared.2 (by simpa using hnone) row hrow

theorem length_pairRows : (pairRows key farKey pivots stored).1.length = pivots.length :=
  (pairRows_spec key farKey pivots stored).length_eq.symm

/-- Every stored row is taken over by one pivot or is stale. -/
theorem keptRows_append_staleRows_perm :
    (keptRows key farKey pivots stored ++ staleRows key farKey pivots stored).Perm stored := by
  have hown : ((ownPass key farKey pivots stored).1.filterMap id ++
      (ownPass key farKey pivots stored).2).Perm stored :=
    claimInTurn_perm _ pivots stored
  have hshared : ((sharedPass key farKey pivots stored).1.filterMap id ++
      staleRows key farKey pivots stored).Perm (ownPass key farKey pivots stored).2 :=
    claimInTurn_perm _ _ _
  have hkept : (keptRows key farKey pivots stored).Perm
      ((ownPass key farKey pivots stored).1.filterMap id ++
        (sharedPass key farKey pivots stored).1.filterMap id) :=
    filterMap_zipWith_orElse_perm (passes_exclusive key farKey pivots stored)
  have hsplit := hkept.append_right (staleRows key farKey pivots stored)
  rw [List.append_assoc] at hsplit
  exact hsplit.trans ((hshared.append_left _).trans hown)

/-- A pivot keeps the row that it was read from, unless an earlier pivot was read from it, too. -/
theorem getElem?_pairRows {before after : List Entity} {pivot : Entity} {row : Row}
    (hids : ∀ earlier ∈ before, earlier.storedId? key ≠ pivot.storedId? key)
    (hrow : stored.find? (pivot.ownsRow key farKey) = some row) :
    (pairRows key farKey (before ++ pivot :: after) stored).1[before.length]? =
      some (some row) := by
  have hown : (ownPass key farKey (before ++ pivot :: after) stored).1[before.length]? =
      some (some row) := by
    rw [← hrow]
    exact getElem?_claimInTurn fun earlier hearlier _ _ howns =>
      Entity.ownsRow_eq_false (hids earlier hearlier) howns
  have hlength := length_pairRows key farKey (before ++ pivot :: after) stored
  have hshared : before.length <
      (sharedPass key farKey (before ++ pivot :: after) stored).1.length := by
    rw [pairRows_eq, List.length_zipWith] at hlength
    simp only [List.length_append, List.length_cons] at hlength
    omega
  rw [pairRows_eq, List.getElem?_zipWith, hown, List.getElem?_eq_getElem hshared]
  rfl

theorem countP_isNone_pairRows :
    (pairRows key farKey pivots stored).1.countP Option.isNone +
      (keptRows key farKey pivots stored).length = pivots.length := by
  rw [← length_pairRows key farKey pivots stored, keptRows]
  induction (pairRows key farKey pivots stored).1 with
  | nil => rfl
  | cons row? rest ih =>
      rw [List.length_cons, ← ih]
      cases row? <;> simp <;> omega

variable {key farKey pivots stored}

theorem Entity.hasKey_of_sharesFar {pivot : Entity} {row : Row} (far : Key)
    (h : pivot.sharesFar farKey row = true) :
    row.hasKey farKey far = (pivot.fieldKey? farKey == some far) := by
  obtain ⟨own, hown, hrow⟩ := Entity.sharesFar_iff.mp h
  rw [Row.hasKey, Row.hasKey_iff.mp hrow, hown]

theorem countP_fieldKey?_eq (far : Key) {Fits : Entity → Option Row → Prop}
    (hfits : ∀ pivot row, Fits pivot (some row) → pivot.sharesFar farKey row = true)
    {rows : List (Option Row)} (h : List.Forall₂ Fits pivots rows) :
    pivots.countP (fun pivot => pivot.fieldKey? farKey == some far) =
      (rows.filterMap id).countP (fun row => row.hasKey farKey far) +
        (pivots.zip rows).countP fun (pivot, row?) =>
          row?.isNone && pivot.fieldKey? farKey == some far := by
  induction h with
  | nil => rfl
  | @cons pivot row? _ _ hpair _ ih =>
      cases row? with
      | none =>
          simp only [List.zip_cons_cons, List.countP_cons, List.filterMap_cons, id, ih]
          simp
          omega
      | some row =>
          have hfar := Entity.hasKey_of_sharesFar far (hfits pivot row hpair)
          simp only [List.zip_cons_cons, List.countP_cons, List.filterMap_cons, id, ih, hfar]
          simp
          omega

variable (key farKey pivots stored)

/-- For each far key, as many rows are kept as there are pivots and rows for it. -/
theorem countP_keptRows (far : Key) :
    (keptRows key farKey pivots stored).countP (fun row => row.hasKey farKey far) =
      min (pivots.countP fun pivot => pivot.fieldKey? farKey == some far)
        (stored.countP fun row => row.hasKey farKey far) := by
  have hspec := pairRows_spec key farKey pivots stored
  have hpivots := countP_fieldKey?_eq far (fun _ row h => h.1 row rfl) hspec
  have hstored := (keptRows_append_staleRows_perm key farKey pivots stored).countP_eq
    fun row => row.hasKey farKey far
  rw [← keptRows] at hpivots
  rw [List.countP_append] at hstored
  have hmatched : (staleRows key farKey pivots stored).countP (fun row => row.hasKey farKey far) =
      0 ∨ ((pivots.zip (pairRows key farKey pivots stored).1).countP fun (pivot, row?) =>
        row?.isNone && pivot.fieldKey? farKey == some far) = 0 := by
    by_cases hstale : (staleRows key farKey pivots stored).countP
      (fun row => row.hasKey farKey far) = 0
    · exact .inl hstale
    right
    obtain ⟨row, hrow, hkey⟩ := List.countP_pos_iff.mp (Nat.pos_of_ne_zero hstale)
    rw [List.countP_eq_zero]
    rintro ⟨pivot, row?⟩ hpair hnone
    obtain ⟨hnone, hfar⟩ := Bool.and_eq_true_iff.mp hnone
    have hpivot := (List.forall₂_iff_zip.mp hspec).2 hpair
    have hmissed := hpivot.2 (Option.isNone_iff_eq_none.mp hnone) row hrow
    rw [Bool.eq_false_iff, Ne, Entity.sharesFar_iff] at hmissed
    exact hmissed ⟨far, beq_iff_eq.mp hfar, hkey⟩
  omega

end

/-! ## Pivots beside their rows -/

def Row.id? (key : Option String) (row : Row) : Option Key :=
  key.bind fun column => (row.get? column).bind Value.key?

theorem Entity.ownsRow_iff_id? {key : Option String} {farKey : String} {pivot : Entity}
    {row : Row} : pivot.ownsRow key farKey row = true ↔
      (pivot.storedId? key).isSome = true ∧ row.id? key = pivot.storedId? key ∧
        pivot.sharesFar farKey row = true := by
  rw [ownsRow_iff]
  constructor
  · rintro ⟨column, id, rfl, hid, hrow, hshares⟩
    have hstored : pivot.storedId? (some column) = some id := hid
    have hrowId : row.id? (some column) = some id := Row.hasKey_iff.mp hrow
    rw [hstored, hrowId]
    exact ⟨rfl, rfl, hshares⟩
  · rintro ⟨hsome, hrow, hshares⟩
    obtain ⟨id, hid⟩ := Option.isSome_iff_exists.mp hsome
    cases key with
    | none => cases hid
    | some column =>
        rw [hid] at hrow
        exact ⟨column, id, rfl, hid, Row.hasKey_iff.mpr hrow, hshares⟩

theorem claimInTurn_take {fits : β → α → Bool} {claimant : β} {a : α} (h : fits claimant a = true)
    (rest : List β) (items : List α) : claimInTurn fits (claimant :: rest) (a :: items) =
      (some a :: (claimInTurn fits rest items).1, (claimInTurn fits rest items).2) := by
  simp [claimInTurn, takeFirst, h]

theorem takeFirst_of_forall {fits : α → Bool} {items : List α}
    (h : ∀ a ∈ items, fits a = false) : takeFirst fits items = (none, items) := by
  induction items with
  | nil => rfl
  | cons a rest ih =>
      have ha : fits a = false := h a (by simp)
      have hrest := ih fun other hother => h other (List.mem_cons_of_mem a hother)
      simp [takeFirst, ha, hrest]

theorem claimInTurn_skip {fits : β → α → Bool} {claimant : β} {items : List α}
    (h : ∀ a ∈ items, fits claimant a = false) (rest : List β) :
    claimInTurn fits (claimant :: rest) items =
      (none :: (claimInTurn fits rest items).1, (claimInTurn fits rest items).2) := by
  rw [claimInTurn, takeFirst_of_forall h]

theorem claimInTurn_leave {fits : β → α → Bool} {claimants : List β} {a : α}
    (h : ∀ claimant ∈ claimants, fits claimant a = false) (items : List α) :
    claimInTurn fits claimants (a :: items) =
      ((claimInTurn fits claimants items).1, a :: (claimInTurn fits claimants items).2) := by
  induction claimants generalizing items with
  | nil => rfl
  | cons claimant rest ih =>
      have hfirst : fits claimant a = false := h claimant (by simp)
      have hrest := ih fun other hother => h other (List.mem_cons_of_mem claimant hother)
      simp [claimInTurn, takeFirst, hfirst, hrest]

section

variable {key : Option String} {farKey : String} {pivots : List Entity} {stored : List Row}

/-- Pivots beside their rows own just those for which `owned` holds, if a pivot beside another row
owns nothing and nobody owns such a row. -/
theorem ownPass_of_forall₂ (owned : Row → Bool)
    (h : List.Forall₂ (fun row pivot => (owned row = true → pivot.ownsRow key farKey row = true) ∧
      (owned row = false → ∀ other, pivot.ownsRow key farKey other = false)) stored pivots)
    (hunowned : ∀ row ∈ stored, owned row = false →
      ∀ pivot ∈ pivots, pivot.ownsRow key farKey row = false) :
    ownPass key farKey pivots stored =
      (stored.map fun row => if owned row then some row else none,
        stored.filter fun row => !owned row) := by
  unfold ownPass
  induction h with
  | nil => rfl
  | @cons row pivot rows pivots hpair _ ih =>
      have hrest := ih fun other hother howned claimant hclaimant =>
        hunowned other (List.mem_cons_of_mem row hother) howned claimant
          (List.mem_cons_of_mem pivot hclaimant)
      cases howned : owned row with
      | true =>
          rw [claimInTurn_take (hpair.1 howned), hrest]
          simp [howned]
      | false =>
          have hnobody : ∀ claimant ∈ pivots, claimant.ownsRow key farKey row = false :=
            fun claimant hclaimant =>
              hunowned row (by simp) howned claimant (List.mem_cons_of_mem pivot hclaimant)
          rw [claimInTurn_skip fun other _ => hpair.2 howned other, claimInTurn_leave hnobody, hrest]
          simp [howned]

theorem sharedPass_of_forall₂ (owned : Row → Bool)
    (h : List.Forall₂ (fun row pivot => pivot.sharesFar farKey row = true) stored pivots) :
    claimInTurn (sharesLater farKey)
        (pivots.zip (stored.map fun row => if owned row then some row else none))
        (stored.filter fun row => !owned row) =
      (stored.map fun row => if owned row then none else some row, []) := by
  induction h with
  | nil => rfl
  | @cons row pivot rows pivots hshares _ ih =>
      cases howned : owned row with
      | true =>
          have hskip : ∀ other ∈ rows.filter (fun row => !owned row),
              sharesLater farKey (pivot, some row) other = false := fun _ _ => rfl
          simp only [List.map_cons, List.zip_cons_cons, List.filter_cons, howned, if_true,
            Bool.not_true, Bool.false_eq_true, if_false]
          rw [claimInTurn_skip hskip, ih]
      | false =>
          have htake : sharesLater farKey (pivot, none) row = true := hshares
          simp only [List.map_cons, List.zip_cons_cons, List.filter_cons, howned,
            Bool.not_false, Bool.false_eq_true, if_true, if_false]
          rw [claimInTurn_take htake, ih]

theorem exists_owned
    (hshares : List.Forall₂ (fun row pivot => pivot.sharesFar farKey row = true) stored pivots)
    (hids : (∀ pivot ∈ pivots, pivot.storedId? key = none) ∨
      List.Forall₂ (fun row pivot => pivot.storedId? key = row.id? key) stored pivots) :
    ∃ owned : Row → Bool,
      List.Forall₂ (fun row pivot => (owned row = true → pivot.ownsRow key farKey row = true) ∧
        (owned row = false → ∀ other, pivot.ownsRow key farKey other = false)) stored pivots ∧
      ∀ row ∈ stored, owned row = false →
        ∀ pivot ∈ pivots, pivot.ownsRow key farKey row = false := by
  cases hids with
  | inl hnone =>
      have hnothing : ∀ pivot ∈ pivots, ∀ other, pivot.ownsRow key farKey other = false := by
        intro pivot hpivot other
        rw [Bool.eq_false_iff, Ne, Entity.ownsRow_iff_id?, hnone pivot hpivot]
        simp
      refine ⟨fun _ => false, List.forall₂_iff_zip.mpr ⟨hshares.length_eq, ?_⟩,
        fun row _ _ pivot hpivot => hnothing pivot hpivot row⟩
      intro row pivot hpair
      exact ⟨fun howned => Bool.noConfusion howned,
        fun _ => hnothing pivot (List.of_mem_zip hpair).2⟩
  | inr hsame =>
      -- two pivots may have one id, but a pivot without an id owns no row at all
      refine ⟨fun row => (row.id? key).isSome,
        List.forall₂_iff_zip.mpr ⟨hshares.length_eq, ?_⟩, ?_⟩
      · intro row pivot hpair
        have hfar : pivot.sharesFar farKey row = true := List.forall₂_zip hshares hpair
        have hid : pivot.storedId? key = row.id? key := List.forall₂_zip hsame hpair
        refine ⟨fun howned => ?_, fun howned other => ?_⟩
        · exact Entity.ownsRow_iff_id?.mpr ⟨by rw [hid]; exact howned, hid.symm, hfar⟩
        · have hnone : ¬ (row.id? key).isSome = true := by simpa using howned
          rw [Bool.eq_false_iff, Ne, Entity.ownsRow_iff_id?, hid]
          exact fun howns => hnone howns.1
      · intro row _ howned pivot _
        have hnone : ¬ (row.id? key).isSome = true := by simpa using howned
        rw [Bool.eq_false_iff, Ne, Entity.ownsRow_iff_id?]
        rintro ⟨hsome, hid, -⟩
        exact hnone (hid ▸ hsome)

/-- Pivots that stand beside the rows of their far keys take over just these rows, if none of them
was read from a stored row or each from its own. -/
theorem pairRows_of_forall₂
    (hshares : List.Forall₂ (fun row pivot => pivot.sharesFar farKey row = true) stored pivots)
    (hids : (∀ pivot ∈ pivots, pivot.storedId? key = none) ∨
      List.Forall₂ (fun row pivot => pivot.storedId? key = row.id? key) stored pivots) :
    pairRows key farKey pivots stored = (stored.map some, []) := by
  obtain ⟨owned, hlined, hunowned⟩ := exists_owned hshares hids
  rw [pairRows_eq, sharedPass, ownPass_of_forall₂ owned hlined hunowned,
    sharedPass_of_forall₂ owned hshares, List.zipWith_map, List.zipWith_self]
  congr 1
  apply List.map_congr_left
  intro row _
  cases owned row <;> rfl

end

end RecordMapper
