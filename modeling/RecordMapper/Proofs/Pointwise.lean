import Mathlib.Data.List.Forall2

/-!
# Lists that correspond item by item
-/

namespace RecordMapper

variable {α β γ δ : Type} {R : α → β → Prop}

theorem exists_of_mem_right {as : List α} {bs : List β}
    (h : List.Forall₂ R as bs) {b : β} (hb : b ∈ bs) : ∃ a ∈ as, R a b := by
  induction h with
  | nil => cases hb
  | @cons a _ as bs hab _ ih =>
      cases hb with
      | head => exact ⟨a, by simp, hab⟩
      | tail _ hb =>
          obtain ⟨a', ha', hR⟩ := ih hb
          exact ⟨a', List.mem_cons_of_mem a ha', hR⟩

theorem exists_of_mem_left {as : List α} {bs : List β}
    (h : List.Forall₂ R as bs) {a : α} (ha : a ∈ as) : ∃ b ∈ bs, R a b :=
  exists_of_mem_right h.flip ha

theorem exists_forall₂_iff {as : List α} :
    (∃ bs, List.Forall₂ R as bs) ↔ ∀ a ∈ as, ∃ b, R a b := by
  induction as with
  | nil => simp
  | cons a rest ih =>
      rw [List.forall_mem_cons, ← ih]
      constructor
      · rintro ⟨_, _ | ⟨hab, hrest⟩⟩
        exact ⟨⟨_, hab⟩, _, hrest⟩
      · rintro ⟨⟨b, hab⟩, bs, hrest⟩
        exact ⟨b :: bs, .cons hab hrest⟩

theorem forall₂_comp {S : β → γ → Prop} {T : α → γ → Prop} {as : List α} {bs : List β}
    {cs : List γ} (hab : List.Forall₂ R as bs) (hbc : List.Forall₂ S bs cs)
    (h : ∀ a b c, R a b → S b c → T a c) : List.Forall₂ T as cs := by
  induction hab generalizing cs with
  | nil =>
      cases hbc
      exact .nil
  | cons hR _ ih =>
      cases hbc with
      | cons hS hrest => exact .cons (h _ _ _ hR hS) (ih hrest)

theorem forall₂_zipWith_left {f : α → β → γ} {S : α → γ → Prop} {as : List α} {bs : List β}
    (hab : List.Forall₂ R as bs) (h : ∀ a b, R a b → S a (f a b)) :
    List.Forall₂ S as (List.zipWith f as bs) := by
  induction hab with
  | nil => exact .nil
  | cons hR _ ih => exact .cons (h _ _ hR) ih

theorem forall₂_zipWith_right {f : α → β → γ} {S : β → γ → Prop} {as : List α} {bs : List β}
    (hab : List.Forall₂ R as bs) (h : ∀ a b, R a b → S b (f a b)) :
    List.Forall₂ S bs (List.zipWith f as bs) := by
  induction hab with
  | nil => exact .nil
  | cons hR _ ih => exact .cons (h _ _ hR) ih

theorem forall₂_zipWith {S : α × β → γ → Prop} {T : α → δ → Prop}
    {f : β → γ → δ} {as : List α} {bs : List β} {cs : List γ} (hfirst : List.Forall₂ R as bs)
    (hsecond : List.Forall₂ S (as.zip bs) cs)
    (h : ∀ a b c, R a b → S (a, b) c → T a (f b c)) : List.Forall₂ T as (List.zipWith f bs cs) := by
  induction hfirst generalizing cs with
  | nil =>
      cases hsecond
      exact .nil
  | cons hab _ ih =>
      cases hsecond with
      | cons hc hcs => exact .cons (h _ _ _ hab hc) (ih hcs)

theorem forall₂_filter {p : α → Bool} {q : β → Bool} {as : List α} {bs : List β}
    (hab : List.Forall₂ R as bs) (h : ∀ a b, R a b → p a = q b) :
    List.Forall₂ R (as.filter p) (bs.filter q) := by
  induction hab with
  | nil => exact .nil
  | cons hR _ ih =>
      rw [List.filter_cons, List.filter_cons, h _ _ hR]
      split
      · exact .cons hR ih
      · exact ih

end RecordMapper
