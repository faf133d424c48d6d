import Mathlib.Data.List.Forall2
import RecordMapper.Error

/-!
# Computations that may fail

A computation in steps succeeds if and only if every step does.
-/

namespace RecordMapper

theorem attempt_bind_eq_ok {α β : Type} {attempt : Attempt α} {next : α → Attempt β} {b : β} :
    attempt >>= next = .ok b ↔ ∃ a, attempt = .ok a ∧ next a = .ok b := by
  cases attempt with
  | error error =>
      constructor
      · intro h
        cases h
      · rintro ⟨_, h, -⟩
        cases h
  | ok a =>
      constructor
      · intro h
        exact ⟨a, rfl, h⟩
      · rintro ⟨_, ha, h⟩
        cases ha
        exact h

theorem attempt_map_eq_ok {α β : Type} {f : α → β} {attempt : Attempt α} {b : β} :
    f <$> attempt = .ok b ↔ ∃ a, attempt = .ok a ∧ f a = b := by
  rw [← bind_pure_comp, attempt_bind_eq_ok]
  exact exists_congr fun a => and_congr_right fun _ => ⟨Except.ok.inj, congrArg Except.ok⟩

theorem attempt_mapM_eq_ok {α β : Type} {f : α → Attempt β} {items : List α} {results : List β} :
    items.mapM f = .ok results ↔ List.Forall₂ (fun a b => f a = .ok b) items results := by
  induction items generalizing results with
  | nil =>
      rw [List.mapM_nil, List.forall₂_nil_left_iff]
      exact ⟨fun h => by cases h; rfl, fun h => by rw [h]; rfl⟩
  | cons a rest ih =>
      rw [List.mapM_cons, attempt_bind_eq_ok, List.forall₂_cons_left_iff]
      constructor
      · rintro ⟨b, hfirst, h⟩
        obtain ⟨others, hothers, h⟩ := attempt_bind_eq_ok.mp h
        cases h
        exact ⟨b, others, hfirst, ih.mp hothers, rfl⟩
      · rintro ⟨b, others, hfirst, hothers, rfl⟩
        exact ⟨b, hfirst, attempt_bind_eq_ok.mpr ⟨others, ih.mpr hothers, rfl⟩⟩

theorem attempt_mapM_eq_error {α β : Type} {f : α → Attempt β} {items : List α} :
    (∃ error, items.mapM f = .error error) ↔ ∃ a ∈ items, ∃ error, f a = .error error := by
  induction items with
  | nil => simp [pure, Except.pure]
  | cons a rest ih =>
      rw [List.mapM_cons, List.exists_mem_cons_iff]
      cases hfirst : f a with
      | error error => simp [bind, Except.bind]
      | ok b =>
          have hrest : (∃ error, (do let b ← Except.ok b; let others ← rest.mapM f; pure (b :: others)) =
              Except.error error) ↔ ∃ error, rest.mapM f = .error error := by
            cases rest.mapM f with
            | _ => simp [bind, Except.bind, pure, Except.pure]
          rw [hrest, ih]
          simp

end RecordMapper
