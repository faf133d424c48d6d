import RecordMapper.Proofs.Attempt
import RecordMapper.Proofs.Rows
import RecordMapper.Schema.Cast

/-!
# Casting rows

A row is cast column by column, so that a cast row has the columns of the row, each with the value
that the schema makes of it.
-/

namespace RecordMapper

namespace Schema

variable {schema : Schema}

theorem castPairs_cons {name : String} {value : Value} {rest pairs : List (String × Value)}
    (h : schema.castPairs ((name, value) :: rest) = .ok pairs) :
    ∃ read others, schema.cast name value = .ok read ∧ schema.castPairs rest = .ok others ∧
      pairs = (name, read) :: others := by
  rw [castPairs] at h
  obtain ⟨read, hread, h⟩ := attempt_bind_eq_ok.mp h
  obtain ⟨others, hothers, h⟩ := attempt_bind_eq_ok.mp h
  cases h
  exact ⟨read, others, hread, hothers, rfl⟩

theorem names_castPairs {pairs casts : List (String × Value)}
    (h : schema.castPairs pairs = .ok casts) : casts.map Prod.fst = pairs.map Prod.fst := by
  induction pairs generalizing casts with
  | nil =>
      cases h
      rfl
  | cons pair rest ih =>
      obtain ⟨read, others, -, hothers, rfl⟩ := castPairs_cons h
      rw [List.map_cons, List.map_cons, ih hothers]

theorem lookup_castPairs {pairs casts : List (String × Value)} (column : String)
    (h : schema.castPairs pairs = .ok casts) : match pairs.lookup column with
      | none => casts.lookup column = none
      | some value => ∃ read, schema.cast column value = .ok read ∧
          casts.lookup column = some read := by
  induction pairs generalizing casts with
  | nil =>
      cases h
      rfl
  | cons pair rest ih =>
      obtain ⟨read, others, hread, hothers, rfl⟩ := castPairs_cons h
      rw [lookup_pair_cons, lookup_pair_cons]
      by_cases hcolumn : column = pair.1
      · rw [if_pos hcolumn, if_pos hcolumn, hcolumn]
        exact ⟨read, hread, rfl⟩
      · rw [if_neg hcolumn, if_neg hcolumn]
        exact ih hothers

variable {row cast : Row} {column : String} {value : Value}

theorem get?_castRow (column : String) (h : schema.castRow row = .ok cast) :
    match row.get? column with
    | none => cast.get? column = none
    | some value => ∃ read, schema.cast column value = .ok read ∧ cast.get? column = some read := by
  obtain ⟨pairs, hpairs, h⟩ := attempt_bind_eq_ok.mp h
  cases h
  have hnames : (pairs.map Prod.fst).Nodup := by
    rw [names_castPairs hpairs]
    exact row.distinct
  rw [Row.get?_ofPairs hnames]
  exact lookup_castPairs column hpairs

theorem get?_castRow_of_none (h : schema.castRow row = .ok cast) (hrow : row.get? column = none) :
    cast.get? column = none := by
  have hcast := get?_castRow column h
  rw [hrow] at hcast
  exact hcast

theorem get?_castRow_of_some (h : schema.castRow row = .ok cast)
    (hrow : row.get? column = some value) :
    ∃ read, schema.cast column value = .ok read ∧ cast.get? column = some read := by
  have hcast := get?_castRow column h
  rw [hrow] at hcast
  exact hcast

theorem get?_castRow_eq {row' cast' : Row} (h : schema.castRow row = .ok cast)
    (h' : schema.castRow row' = .ok cast') (hsame : row'.get? column = row.get? column) :
    cast'.get? column = cast.get? column := by
  cases hrow : row.get? column with
  | none =>
      rw [get?_castRow_of_none h hrow, get?_castRow_of_none h' (hsame.trans hrow)]
  | some value =>
      obtain ⟨read, hread, hcast⟩ := get?_castRow_of_some h hrow
      obtain ⟨read', hread', hcast'⟩ := get?_castRow_of_some h' (hsame.trans hrow)
      rw [hread] at hread'
      cases hread'
      rw [hcast, hcast']

end Schema

end RecordMapper
