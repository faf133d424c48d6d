import Mathlib.Data.List.Sort
import RecordMapper.Proofs.Statement.InsertedRows

/-!
# Modifiers in their order

A statement lists its modifiers in one order, each of them once.  `Modifiers` is a set; here it is
compared with a list into which the modifiers are put one after the other and which is sorted each time:
`toList_insert`.
-/

namespace RecordMapper

namespace Modifiers

/-- The order in which a statement lists its modifiers. -/
def Before (modifier other : Modifier) : Prop :=
  Modifier.all.idxOf modifier < Modifier.all.idxOf other

instance : DecidableRel Before :=
  fun _ _ => Nat.decLt _ _

instance : Std.Irrefl Before :=
  ⟨fun _ => Nat.lt_irrefl _⟩

instance : Std.Antisymm Before :=
  ⟨fun _ _ h h' => absurd h' (Nat.lt_asymm h)⟩

instance : IsTrans Modifier fun first second => ¬Before second first :=
  ⟨fun _ _ _ h h' => Nat.not_lt.mpr (Nat.le_trans (Nat.not_lt.mp h) (Nat.not_lt.mp h'))⟩

instance : Std.Total fun first second => ¬Before second first :=
  ⟨fun _ _ => (Nat.le_total _ _).imp Nat.not_lt.mpr Nat.not_lt.mpr⟩

theorem before_or_eq_or_before (modifier other : Modifier) :
    Before modifier other ∨ modifier = other ∨ Before other modifier := by
  cases modifier with
  | _ =>
      cases other with
      | _ => decide

def push (listed : List Modifier) (modifier : Modifier) : List Modifier :=
  if modifier ∈ listed then listed
  else (listed ++ [modifier]).mergeSort fun first second => ¬Before second first

theorem mem_push {listed : List Modifier} {modifier other : Modifier} :
    other ∈ push listed modifier ↔ other = modifier ∨ other ∈ listed := by
  unfold push
  split
  next hmem => exact (or_iff_right_of_imp (· ▸ hmem)).symm
  next => simp [or_comm]

theorem pairwise_push {listed : List Modifier} (h : listed.Pairwise Before) (modifier : Modifier) :
    (push listed modifier).Pairwise Before := by
  unfold push
  split
  next => exact h
  next hmem =>
      have hsorted := List.pairwise_mergeSort' (fun first second => ¬Before second first)
        (listed ++ [modifier])
      have hnodup : (listed ++ [modifier]).Nodup := by
        rw [← List.concat_eq_append]
        exact h.nodup.concat hmem
      refine (hsorted.and ((List.mergeSort_perm _ _).nodup_iff.mpr hnodup)).imp ?_
      rintro first second ⟨hle, hne⟩
      obtain hbefore | heq | hafter := before_or_eq_or_before first second
      · exact hbefore
      · exact absurd heq hne
      · exact absurd hafter hle

theorem pairwise_toList (set : Modifiers) : set.toList.Pairwise Before :=
  List.Pairwise.filter _ (by decide : Modifier.all.Pairwise Before)

theorem toList_insert (set : Modifiers) (modifier : Modifier) :
    (set.insert modifier).toList = push set.toList modifier := by
  refine (pairwise_toList _).eq_of_mem_iff (pairwise_push set.pairwise_toList modifier) ?_
  intro other
  rw [mem_push, mem_toList, mem_toList, insert, Bool.or_eq_true, beq_iff_eq]

theorem toList_inj {set set' : Modifiers} : set.toList = set'.toList ↔ set = set' := by
  refine ⟨fun h => ?_, congrArg toList⟩
  have hcontains : set.contains = set'.contains := by
    funext modifier
    rw [Bool.eq_iff_iff, ← mem_toList, ← mem_toList, h]
  exact congrArg Modifiers.mk hcontains

theorem mem_foldl_push {listed pushed : List Modifier} {modifier : Modifier} :
    modifier ∈ pushed.foldl push listed ↔ modifier ∈ pushed ∨ modifier ∈ listed := by
  induction pushed generalizing listed with
  | nil => simp
  | cons first rest ih => rw [List.foldl_cons, ih, mem_push, List.mem_cons, or_left_comm, or_assoc]

theorem pairwise_foldl_push {listed : List Modifier} (h : listed.Pairwise Before)
    (pushed : List Modifier) : (pushed.foldl push listed).Pairwise Before := by
  induction pushed generalizing listed with
  | nil => exact h
  | cons first rest ih => exact ih (pairwise_push h first)

/-- Neither the order nor the number of times counts in which modifiers are pushed. -/
theorem foldl_push_eq {pushed pushed' : List Modifier}
    (h : ∀ modifier, modifier ∈ pushed ↔ modifier ∈ pushed') :
    pushed.foldl push [] = pushed'.foldl push [] := by
  refine (pairwise_foldl_push .nil _).eq_of_mem_iff (pairwise_foldl_push .nil _) fun modifier => ?_
  rw [mem_foldl_push, mem_foldl_push, h]

end Modifiers
end RecordMapper
