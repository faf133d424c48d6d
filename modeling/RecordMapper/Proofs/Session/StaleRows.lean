import RecordMapper.Proofs.Session.Pivots

/-!
# The rows that a save through a pivot deletes

A deletion of stale rows leaves exactly the kept ones if what names the stale rows names all of them
and no other.  For plain rows it always names all of them, so that a row is lost only if it resembles
a stale one: by its id, or in every column when not every stale row has an id.
-/

namespace RecordMapper

/-- The rows that are left after those that a condition is true of are deleted. -/
def Condition.delete (condition : Condition) (rows : List Row) : List Row :=
  rows.filter fun row => ¬ condition.selects row

theorem filter_perm_iff {α : Type} {p : α → Prop} [DecidablePred p] {items kept removed : List α}
    (h : (kept ++ removed).Perm items) :
    (items.filter fun a => ¬ p a).Perm kept ↔ (∀ a ∈ removed, p a) ∧ ∀ a ∈ kept, ¬ p a := by
  have hsplit : (kept.filter (fun a => ¬ p a) ++ removed.filter fun a => ¬ p a).Perm
      (items.filter fun a => ¬ p a) := by
    rw [← List.filter_append]
    exact h.filter _
  constructor
  · intro hleft
    have hkept : ∀ a ∈ kept, ¬ p a := by
      intro a ha
      have hmem := hleft.mem_iff.mpr ha
      simpa using (List.mem_filter.mp hmem).2
    have hall : kept.filter (fun a => ¬ p a) = kept :=
      List.filter_eq_self.mpr fun a ha => by simpa using hkept a ha
    have hlength := (hsplit.trans hleft).length_eq
    rw [hall, List.length_append] at hlength
    have hnone : removed.filter (fun a => ¬ p a) = [] :=
      List.eq_nil_of_length_eq_zero (by omega)
    refine ⟨fun a ha => ?_, hkept⟩
    simpa using List.filter_eq_nil_iff.mp hnone a ha
  · rintro ⟨hremoved, hkept⟩
    have hall : kept.filter (fun a => ¬ p a) = kept :=
      List.filter_eq_self.mpr fun a ha => by simpa using hkept a ha
    have hnone : removed.filter (fun a => ¬ p a) = [] :=
      List.filter_eq_nil_iff.mpr fun a ha => by simpa using hremoved a ha
    rw [hall, hnone, List.append_nil] at hsplit
    exact hsplit.symm

/-- The deletion that a save sends leaves exactly the kept rows if and only if what names the stale
rows names each of them and no kept row.  For plain rows, that is if no kept row has the id of a
stale one, or all its values when not every stale row has an id. -/
theorem saveThrough_deletes_stale_iff {db : Database} {route : Tie} {far : Relation}
    {below : EmbedTree} {owner owner' : Entity} {log log' : Log}
    (hloaded : owner.isLoaded route.name = true)
    (h : Relation.saveThrough db route far .diff (db.save below) owner log =
      ⟨.ok (), owner', log'⟩) :
    ∃ run : PivotsRun db route far (db.save below) owner log owner' log',
      ((run.stale = [] ∧ log' = run.written) ∨ (run.stale ≠ [] ∧ ∃ sql, log' = run.written ++ [sql] ∧
        (run.pivot.deleteOf (staleCondition run.pivot.declaredKey? run.stale)).render db.dialect =
          .ok sql)) ∧
      (((staleCondition run.pivot.declaredKey? run.stale).delete run.stored).Perm run.kept ↔
        (∀ row ∈ run.stale, row.isNamed (staleNames run.pivot.declaredKey? run.stale)) ∧
        ∀ row ∈ run.kept, ¬ row.isNamed (staleNames run.pivot.declaredKey? run.stale)) ∧
      ((∀ row ∈ run.stored, row.IsPlain) →
        (((staleCondition run.pivot.declaredKey? run.stale).delete run.stored).Perm run.kept ↔
          ∀ row ∈ run.kept, ¬ row.resembles run.pivot.declaredKey? run.stale)) := by
  obtain ⟨run⟩ := PivotsRun.exists_of_run hloaded h
  have hrows : (run.kept ++ run.stale).Perm run.stored := keptRows_append_staleRows_perm _ _ _ _
  have hexact : ((staleCondition run.pivot.declaredKey? run.stale).delete run.stored).Perm run.kept ↔
      (∀ row ∈ run.stale, row.isNamed (staleNames run.pivot.declaredKey? run.stale)) ∧
      ∀ row ∈ run.kept, ¬ row.isNamed (staleNames run.pivot.declaredKey? run.stale) := by
    simp only [← selects_staleCondition]
    exact filter_perm_iff hrows
  refine ⟨run, (Edit.run_deleteStale run.delete).2, hexact, fun hplain => ?_⟩
  have hkept : ∀ row ∈ run.kept, row.IsPlain := fun row hrow =>
    hplain row (hrows.mem_iff.mp (List.mem_append_left _ hrow))
  have hstale : ∀ row ∈ run.stale, row.IsPlain := fun row hrow =>
    hplain row (hrows.mem_iff.mp (List.mem_append_right _ hrow))
  have hnamed : ∀ row ∈ run.stale, row.isNamed (staleNames run.pivot.declaredKey? run.stale) := by
    intro row hrow
    rw [Row.isNamed_iff_resembles hstale (hstale row hrow)]
    exact Row.resembles_self hrow
  rw [hexact]
  constructor
  · rintro ⟨-, hspared⟩ row hrow
    rw [← Row.isNamed_iff_resembles hstale (hkept row hrow)]
    exact hspared row hrow
  · intro hspared
    refine ⟨hnamed, fun row hrow => ?_⟩
    rw [Row.isNamed_iff_resembles hstale (hkept row hrow)]
    exact hspared row hrow

open Gallery in
/-- The stored pivot of an image is spared when that of another tag is deleted. -/
theorem saveThrough_deletes_only_pivot_three :
    ∃ owner' log', ∃ run : PivotsRun tagged (pivots "ImageTag" "images_tags")
        (tagOf "ImageTag" "image_tag") (tagged.save .nil) taggedImage [] owner' log',
      log' = ["SELECT * FROM \"images_tags\" WHERE \"image_id\" = 1",
        "INSERT INTO \"images_tags\" (\"tag_id\", \"image_id\") VALUES (5, 1)",
        "DELETE FROM \"images_tags\" WHERE \"id\" IN (3)"] ∧
      (((staleCondition run.pivot.declaredKey? run.stale).delete run.stored).Perm run.kept ↔
        (∀ row ∈ run.stale, row.isNamed (staleNames run.pivot.declaredKey? run.stale)) ∧
        ∀ row ∈ run.kept, ¬ row.isNamed (staleNames run.pivot.declaredKey? run.stale)) := by
  have h : Relation.saveThrough tagged (pivots "ImageTag" "images_tags")
      (tagOf "ImageTag" "image_tag") .diff (tagged.save .nil) taggedImage [] =
      ⟨.ok (), (Relation.saveThrough tagged (pivots "ImageTag" "images_tags")
        (tagOf "ImageTag" "image_tag") .diff (tagged.save .nil) taggedImage []).subject,
        ["SELECT * FROM \"images_tags\" WHERE \"image_id\" = 1",
          "INSERT INTO \"images_tags\" (\"tag_id\", \"image_id\") VALUES (5, 1)",
          "DELETE FROM \"images_tags\" WHERE \"id\" IN (3)"]⟩ := by rfl
  obtain ⟨run, -, hexact, -⟩ := saveThrough_deletes_stale_iff rfl h
  exact ⟨_, _, run, rfl, hexact⟩

open Gallery in
/-- Of two equal rows without ids one is kept and one is stale, and the deletion is true of both. -/
theorem saveThrough_deletes_kept_label :
    (Relation.saveThrough (database [labelRow .null, labelRow .null]) (pivots "Label" "labels")
        (tagOf "Label" "label") .diff ((database [labelRow .null, labelRow .null]).save .nil)
        (imageWith "labels" "Label" [.hydrated "Label" (labelRow .null)]) []).log =
      ["SELECT * FROM \"labels\" WHERE \"image_id\" = 1",
        "DELETE FROM \"labels\" WHERE (\"image_id\" = 1 AND \"tag_id\" = 2 AND " ++
          "\"weight\" IS NULL)"] ∧
    keptRows none "tag_id" [.hydrated "Label" (labelRow .null)]
      [labelRow .null, labelRow .null] = [labelRow .null] ∧
    staleRows none "tag_id" [.hydrated "Label" (labelRow .null)]
      [labelRow .null, labelRow .null] = [labelRow .null] ∧
    (staleCondition none [labelRow .null]).delete [labelRow .null, labelRow .null] = [] := by
  exact ⟨rfl, rfl, rfl, rfl⟩

end RecordMapper
