import RecordMapper.Proofs.Statement.ModifierOrder
import RecordMapper.Statement.Delete
import RecordMapper.Statement.Update

/-!
# Statements that are built by calls

A statement is built by a list of calls, and each of them acts on one clause.  What it makes of this
clause does not depend on the others, so that calls for different clauses can be made in any order:
`calls_commute`.
-/

namespace RecordMapper

/-! ## Clauses -/

/-- The clauses of all statements.  A limit, an offset and a page are one clause, since a page is counted
in limits. -/
inductive Clause
  | distinct
  | modifiers
  | table
  | columns
  | sources
  | joins
  | assignments
  | rows
  | filter
  | group
  | having
  | order
  | paging
  | returning
  | forUpdate
  deriving DecidableEq

namespace Clause

def Content : Clause → Type
  | distinct | forUpdate => Bool
  | modifiers => List Modifier
  | table => Option String
  | columns | group | returning => List Column
  | sources => List Source
  | joins => List Join
  | assignments => List (String × Condition)
  | rows => List (List (String × Value))
  | filter | having => Condition
  | order => List Order
  | paging => Option UInt64 × Option UInt64

def absent : (clause : Clause) → clause.Content
  | distinct | forUpdate => false
  | modifiers => ([] : List Modifier)
  | table => none
  | columns | group | returning => ([] : List Column)
  | sources => ([] : List Source)
  | joins => ([] : List Join)
  | assignments => ([] : List (String × Condition))
  | rows => ([] : List (List (String × Value)))
  | filter | having => Condition.always
  | order => ([] : List Order)
  | paging => (none, none)

/-- Whether each call for the clause replaces what the calls before have left. -/
def isReplaced : Clause → Bool
  | distinct | table | forUpdate => true
  | _ => false

/-- What two lists of calls for a clause have to agree on: only the last one counts where each replaces
the one before, and modifiers are a set. -/
def Agrees {κ : Type} (clause : Clause) (calls calls' : List κ) : Prop :=
  if clause = modifiers then ∀ call, call ∈ calls ↔ call ∈ calls'
  else if clause.isReplaced then calls.getLast? = calls'.getLast?
  else calls = calls'

end Clause

/-! ## Actions -/

inductive Action
  | distinct (on : Bool)
  | modifier (added : Modifier)
  | table (name : String)
  | columns (added : List Column)
  | clearColumns
  | source (added : Source)
  | join (added : Join)
  | assignments (added : List (String × Condition))
  | row (added : List (String × Value))
  | filter (added : Condition)
  | group (added : List Column)
  | having (added : Condition)
  | order (added : List Order)
  | clearOrder
  | limit (n : UInt64)
  | offset (n : UInt64)
  | page (n : UInt64)
  | returning (added : List Column)
  | forUpdate (on : Bool)

namespace Action

def clause : Action → Clause
  | distinct _ => .distinct
  | modifier _ => .modifiers
  | table _ => .table
  | columns _ | clearColumns => .columns
  | source _ => .sources
  | join _ => .joins
  | assignments _ => .assignments
  | row _ => .rows
  | filter _ => .filter
  | group _ => .group
  | having _ => .having
  | order _ | clearOrder => .order
  | limit _ | offset _ | page _ => .paging
  | returning _ => .returning
  | forUpdate _ => .forUpdate

def pageStart (page : UInt64) (limit : Option UInt64) : UInt64 :=
  UInt64.ofNat (min ((page.toNat - 1) * (limit.getD 0).toNat) largestCount)

def effect : (action : Action) → action.clause.Content → action.clause.Content
  | distinct on => fun _ => on
  | modifier added => fun listed => Modifiers.push listed added
  | table name => fun _ => some name
  | columns added => fun columns => List.append columns added
  | clearColumns => fun _ => ([] : List Column)
  | source added => fun sources => List.append sources [added]
  | join added => fun joins => List.append joins [added]
  | assignments added => fun assignments => List.append assignments added
  | row added => fun rows => List.append rows [added]
  | filter added => fun condition => Condition.both condition added
  | group added => fun columns => List.append columns added
  | having added => fun condition => Condition.both condition added
  | order added => fun entries => List.append entries added
  | clearOrder => fun _ => ([] : List Order)
  | limit n => fun paging => (positive? n, paging.2)
  | offset n => fun paging => (paging.1, positive? n)
  | page n => fun paging => (paging.1, positive? (pageStart n paging.1))
  | returning added => fun columns => List.append columns added
  | forUpdate on => fun _ => on

def modifier? : Action → Option Modifier
  | modifier added => some added
  | _ => none

theorem effect_of_replaced {action : Action} (h : action.clause.isReplaced = true)
    (content content' : action.clause.Content) : action.effect content = action.effect content' := by
  cases action with
  | distinct | table | forUpdate => rfl
  | _ => cases h

theorem clause_of_modifier {action : Action} {modifier : Modifier}
    (h : action.modifier? = some modifier) : action.clause = .modifiers := by
  cases action with
  | modifier => rfl
  | _ => cases h

end Action

/-! ## Builders -/

/-- Statements of one kind with the calls that build them.  A call leaves all clauses but its own as they
are, and what it makes of its own clause depends on nothing else. -/
structure Builder (σ κ : Type) where
  empty : σ
  apply : σ → κ → σ
  action : κ → Action
  part : σ → (clause : Clause) → clause.Content
  part_empty : ∀ c, part empty c = c.absent
  part_own : ∀ s call,
    part (apply s call) (action call).clause = (action call).effect (part s (action call).clause)
  part_other : ∀ s call c, (action call).clause ≠ c → part (apply s call) c = part s c
  eq_of_parts : ∀ s s', (∀ c, part s c = part s' c) → s = s'

namespace Builder

variable {σ κ : Type} {b : Builder σ κ} {clause : Clause} {calls calls' : List κ}

def built (b : Builder σ κ) (calls : List κ) : σ :=
  calls.foldl b.apply b.empty

def callsFor (b : Builder σ κ) (clause : Clause) (calls : List κ) : List κ :=
  calls.filter fun call => (b.action call).clause = clause

/-- The calls for each clause agree, however those for different clauses are mixed. -/
def Agree (b : Builder σ κ) (calls calls' : List κ) : Prop :=
  ∀ clause : Clause, clause.Agrees (b.callsFor clause calls) (b.callsFor clause calls')

theorem part_foldl (calls : List κ) {s s' : σ} (hs : b.part s clause = b.part s' clause) :
    b.part (calls.foldl b.apply s) clause =
      b.part ((b.callsFor clause calls).foldl b.apply s') clause := by
  induction calls generalizing s s' with
  | nil => exact hs
  | cons call rest ih =>
      by_cases hcall : (b.action call).clause = clause
      · simp only [callsFor, List.filter_cons, hcall, decide_true, if_true, List.foldl_cons]
        subst hcall
        apply ih
        rw [b.part_own, b.part_own, hs]
      · simp only [callsFor, List.filter_cons, hcall, decide_false, List.foldl_cons]
        exact ih ((b.part_other s call clause hcall).trans hs)

theorem part_built (calls : List κ) :
    b.part (b.built calls) clause = b.part (b.built (b.callsFor clause calls)) clause :=
  part_foldl calls rfl

theorem part_built_of_replaced (h : clause.isReplaced = true)
    (hcalls : (b.callsFor clause calls).getLast? = (b.callsFor clause calls').getLast?) :
    b.part (b.built calls) clause = b.part (b.built calls') clause := by
  rw [part_built calls, part_built calls']
  cases hlast : (b.callsFor clause calls').getLast? with
  | none =>
      rw [hlast] at hcalls
      rw [List.getLast?_eq_none_iff.mp hcalls, List.getLast?_eq_none_iff.mp hlast]
  | some call =>
      rw [hlast] at hcalls
      obtain rfl : (b.action call).clause = clause := by
        simpa using (List.mem_filter.mp (List.mem_of_getLast? hlast)).2
      obtain ⟨before, hbefore⟩ := List.getLast?_eq_some_iff.mp hcalls
      obtain ⟨before', hbefore'⟩ := List.getLast?_eq_some_iff.mp hlast
      rw [hbefore, hbefore', built, built, List.foldl_append, List.foldl_append, List.foldl_cons,
        List.foldl_cons, List.foldl_nil, List.foldl_nil, b.part_own, b.part_own]
      exact Action.effect_of_replaced h _ _

def listed (b : Builder σ κ) (s : σ) : List Modifier :=
  b.part s .modifiers

def modifiersOf (b : Builder σ κ) (calls : List κ) : List Modifier :=
  calls.filterMap fun call => (b.action call).modifier?

theorem listed_apply (s : σ) (call : κ) :
    b.listed (b.apply s call) =
      (b.action call).modifier?.elim (b.listed s) (Modifiers.push (b.listed s)) := by
  have hown := b.part_own s call
  have hother := b.part_other s call .modifiers
  cases haction : b.action call with
  | modifier added =>
      rw [haction] at hown
      exact hown
  | _ =>
      rw [haction] at hother
      exact hother nofun

theorem listed_foldl (calls : List κ) (s : σ) :
    b.listed (calls.foldl b.apply s) = (b.modifiersOf calls).foldl Modifiers.push (b.listed s) := by
  induction calls generalizing s with
  | nil => rfl
  | cons call rest ih =>
      rw [List.foldl_cons, ih, listed_apply]
      cases hcall : (b.action call).modifier? with
      | none => simp only [modifiersOf, List.filterMap_cons, hcall, Option.elim_none]
      | some added =>
          simp only [modifiersOf, List.filterMap_cons, hcall, Option.elim_some, List.foldl_cons]

theorem listed_built (calls : List κ) :
    b.listed (b.built calls) = (b.modifiersOf calls).foldl Modifiers.push [] := by
  have hempty : b.listed b.empty = [] := b.part_empty .modifiers
  rw [built, listed_foldl, hempty]

theorem part_built_modifiers
    (hcalls : ∀ call, call ∈ b.callsFor .modifiers calls ↔ call ∈ b.callsFor .modifiers calls') :
    b.part (b.built calls) .modifiers = b.part (b.built calls') .modifiers := by
  have hmem : ∀ modifier, modifier ∈ b.modifiersOf calls ↔ modifier ∈ b.modifiersOf calls' := by
    intro modifier
    rw [modifiersOf, modifiersOf, List.mem_filterMap, List.mem_filterMap]
    refine exists_congr fun call => and_congr_left fun hcall => ?_
    simpa [callsFor, Action.clause_of_modifier hcall] using hcalls call
  calc
    b.listed (b.built calls) = (b.modifiersOf calls).foldl Modifiers.push [] := listed_built calls
    _ = (b.modifiersOf calls').foldl Modifiers.push [] := Modifiers.foldl_push_eq hmem
    _ = b.listed (b.built calls') := (listed_built calls').symm

/-- Lists of calls that agree for each clause build the same statement. -/
theorem built_of_agree (h : b.Agree calls calls') : b.built calls = b.built calls' := by
  refine b.eq_of_parts _ _ fun clause => ?_
  have hclause := h clause
  unfold Clause.Agrees at hclause
  split at hclause
  next hmodifiers =>
      subst hmodifiers
      exact part_built_modifiers hclause
  next =>
      split at hclause
      next hreplaced => exact part_built_of_replaced hreplaced hclause
      next => rw [part_built calls, hclause, ← part_built calls']

end Builder

/-! ## The four builders -/

namespace Select

inductive Call
  | distinct (on : Bool)
  | modifier (added : Modifier)
  | columns (added : List Column)
  | clearColumns
  | source (added : Source)
  | join (kind : JoinKind) (joined : Source) (on : Condition)
  | filter (added : Condition)
  | group (added : List Column)
  | having (added : Condition)
  | order (added : List Order)
  | clearOrder
  | limit (n : UInt64)
  | offset (n : UInt64)
  | page (n : UInt64)
  | forUpdate (on : Bool)

def Call.apply (s : Select) : Call → Select
  | .distinct on => s.setDistinct on
  | .modifier added => s.modifier added
  | .columns added => s.addColumns added
  | .clearColumns => s.clearColumns
  | .source added => s.addSource added
  | .join kind joined on => s.addJoin kind joined on
  | .filter added => s.addFilter added
  | .group added => s.addGroup added
  | .having added => s.addHaving added
  | .order added => s.addOrder added
  | .clearOrder => s.clearOrder
  | .limit n => s.setLimit n
  | .offset n => s.setOffset n
  | .page n => s.setPage n
  | .forUpdate on => s.setForUpdate on

def Call.action : Call → Action
  | .distinct on => .distinct on
  | .modifier added => .modifier added
  | .columns added => .columns added
  | .clearColumns => .clearColumns
  | .source added => .source added
  | .join kind joined on => .join ⟨kind, joined, on⟩
  | .filter added => .filter added
  | .group added => .group added
  | .having added => .having added
  | .order added => .order added
  | .clearOrder => .clearOrder
  | .limit n => .limit n
  | .offset n => .offset n
  | .page n => .page n
  | .forUpdate on => .forUpdate on

def part (s : Select) : (clause : Clause) → clause.Content
  | .distinct => s.distinct
  | .modifiers => s.modifiers.toList
  | .columns => s.columns
  | .sources => s.sources
  | .joins => s.joins
  | .filter => s.filter
  | .group => s.group
  | .having => s.having
  | .order => s.order
  | .paging => (s.limit, s.offset)
  | .forUpdate => s.forUpdate
  | clause => clause.absent

def builder : Builder Select Call where
  empty := empty
  apply := Call.apply
  action := Call.action
  part := part
  part_empty c := by
    cases c with
    | _ => rfl
  part_own s call := by
    cases call with
    | modifier added => exact Modifiers.toList_insert s.modifiers added
    | _ => rfl
  part_other s call c h := by
    cases call with
    | _ =>
        cases c with
        | _ => first | rfl | exact absurd rfl h
  eq_of_parts s s' h := by
    cases s
    cases s'
    rw [Select.mk.injEq]
    exact ⟨h .distinct, Modifiers.toList_inj.mp (h .modifiers), h .columns, h .sources, h .joins,
      h .filter, h .group, h .having, h .order, (Prod.mk.inj (h .paging)).1,
      (Prod.mk.inj (h .paging)).2, h .forUpdate⟩

end Select

namespace Insert

inductive Call
  | into (name : String)
  | modifier (added : Modifier)
  | row (added : List (String × Value))
  | returning (added : List Column)

def Call.apply (s : Insert) : Call → Insert
  | .into name => s.into name
  | .modifier added => s.modifier added
  | .row added => s.addRow added
  | .returning added => s.addReturning added

def Call.action : Call → Action
  | .into name => .table name
  | .modifier added => .modifier added
  | .row added => .row added
  | .returning added => .returning added

def part (s : Insert) : (clause : Clause) → clause.Content
  | .modifiers => s.modifiers.toList
  | .table => s.table
  | .rows => s.rows
  | .returning => s.returning
  | clause => clause.absent

def builder : Builder Insert Call where
  empty := empty
  apply := Call.apply
  action := Call.action
  part := part
  part_empty c := by
    cases c with
    | _ => rfl
  part_own s call := by
    cases call with
    | modifier added => exact Modifiers.toList_insert s.modifiers added
    | _ => rfl
  part_other s call c h := by
    cases call with
    | _ =>
        cases c with
        | _ => first | rfl | exact absurd rfl h
  eq_of_parts s s' h := by
    cases s
    cases s'
    rw [Insert.mk.injEq]
    exact ⟨Modifiers.toList_inj.mp (h .modifiers), h .table, h .rows, h .returning⟩

end Insert

namespace Update

inductive Call
  | table (name : String)
  | modifier (added : Modifier)
  | assign (column : String) (expr : Condition)
  | values (row : List (String × Value))
  | filter (added : Condition)
  | order (added : List Order)
  | limit (n : UInt64)

def Call.apply (s : Update) : Call → Update
  | .table name => s.setTable name
  | .modifier added => s.modifier added
  | .assign column expr => s.assign column expr
  | .values row => s.assignValues row
  | .filter added => s.addFilter added
  | .order added => s.addOrder added
  | .limit n => s.setLimit n

def Call.action : Call → Action
  | .table name => .table name
  | .modifier added => .modifier added
  | .assign column expr => .assignments [(column, expr)]
  | .values row => .assignments (row.map fun (column, value) => (column, .value value))
  | .filter added => .filter added
  | .order added => .order added
  | .limit n => .limit n

def part (s : Update) : (clause : Clause) → clause.Content
  | .modifiers => s.modifiers.toList
  | .table => s.table
  | .assignments => s.assignments
  | .filter => s.filter
  | .order => s.order
  | .paging => (s.limit, none)
  | clause => clause.absent

def builder : Builder Update Call where
  empty := empty
  apply := Call.apply
  action := Call.action
  part := part
  part_empty c := by
    cases c with
    | _ => rfl
  part_own s call := by
    cases call with
    | modifier added => exact Modifiers.toList_insert s.modifiers added
    | _ => rfl
  part_other s call c h := by
    cases call with
    | _ =>
        cases c with
        | _ => first | rfl | exact absurd rfl h
  eq_of_parts s s' h := by
    cases s
    cases s'
    rw [Update.mk.injEq]
    exact ⟨Modifiers.toList_inj.mp (h .modifiers), h .table, h .assignments, h .filter, h .order,
      (Prod.mk.inj (h .paging)).1⟩

end Update

namespace Delete

inductive Call
  | from (name : String)
  | modifier (added : Modifier)
  | filter (added : Condition)
  | order (added : List Order)
  | limit (n : UInt64)

def Call.apply (s : Delete) : Call → Delete
  | .from name => s.fromTable name
  | .modifier added => s.modifier added
  | .filter added => s.addFilter added
  | .order added => s.addOrder added
  | .limit n => s.setLimit n

def Call.action : Call → Action
  | .from name => .table name
  | .modifier added => .modifier added
  | .filter added => .filter added
  | .order added => .order added
  | .limit n => .limit n

def part (s : Delete) : (clause : Clause) → clause.Content
  | .modifiers => s.modifiers.toList
  | .table => s.table
  | .filter => s.filter
  | .order => s.order
  | .paging => (s.limit, none)
  | clause => clause.absent

def builder : Builder Delete Call where
  empty := empty
  apply := Call.apply
  action := Call.action
  part := part
  part_empty c := by
    cases c with
    | _ => rfl
  part_own s call := by
    cases call with
    | modifier added => exact Modifiers.toList_insert s.modifiers added
    | _ => rfl
  part_other s call c h := by
    cases call with
    | _ =>
        cases c with
        | _ => first | rfl | exact absurd rfl h
  eq_of_parts s s' h := by
    cases s
    cases s'
    rw [Delete.mk.injEq]
    exact ⟨Modifiers.toList_inj.mp (h .modifiers), h .table, h .filter, h .order,
      (Prod.mk.inj (h .paging)).1⟩

end Delete

/-- Statements of one kind say the same, or fail with the same error, if their calls agree for each
clause. -/
theorem calls_commute (d : Dialect) :
    (∀ calls calls', Select.builder.Agree calls calls' →
      (Select.builder.built calls).render d = (Select.builder.built calls').render d) ∧
    (∀ calls calls', Insert.builder.Agree calls calls' →
      (Insert.builder.built calls).render d = (Insert.builder.built calls').render d) ∧
    (∀ calls calls', Update.builder.Agree calls calls' →
      (Update.builder.built calls).render d = (Update.builder.built calls').render d) ∧
    (∀ calls calls', Delete.builder.Agree calls calls' →
      (Delete.builder.built calls).render d = (Delete.builder.built calls').render d) :=
  ⟨fun _ _ h => congrArg (Select.render d) (Builder.built_of_agree h),
    fun _ _ h => congrArg (Insert.render d) (Builder.built_of_agree h),
    fun _ _ h => congrArg (Update.render d) (Builder.built_of_agree h),
    fun _ _ h => congrArg (Delete.render d) (Builder.built_of_agree h)⟩

theorem calls_commute_interleaved :
    (Select.builder.built [.limit 10, .modifier .highPriority, .page 3, .source (.named "image"),
        .distinct false, .distinct true]).render .mysql =
      (Select.builder.built [.distinct true, .modifier .highPriority, .limit 10,
        .source (.named "image"), .modifier .highPriority, .page 3]).render .mysql ∧
    (Insert.builder.built [.modifier .ignore, .row [("id", .integer 1)], .into "tag",
        .modifier .lowPriority, .into "image"]).render .mysql =
      (Insert.builder.built [.into "image", .modifier .lowPriority, .modifier .ignore,
        .modifier .lowPriority, .row [("id", .integer 1)]]).render .mysql ∧
    (Update.builder.built [.assign "hits" (.value (.integer 0)), .table "image", .limit 1,
        .values [("hits", .integer 1)]]).render .mysql =
      (Update.builder.built [.limit 1, .assign "hits" (.value (.integer 0)),
        .values [("hits", .integer 1)], .table "image"]).render .mysql ∧
    (Delete.builder.built [.order [.ascending "id"], .limit 5, .from "image",
        .limit 2]).render .mysql =
      (Delete.builder.built [.from "image", .limit 5, .limit 2,
        .order [.ascending "id"]]).render .mysql := by
  obtain ⟨hselect, hinsert, hupdate, hdelete⟩ := calls_commute .mysql
  refine ⟨hselect _ _ fun clause => ?_, hinsert _ _ fun clause => ?_, hupdate _ _ fun clause => ?_,
    hdelete _ _ fun clause => ?_⟩
  · cases clause with
    | modifiers =>
        intro call
        change call ∈ [.modifier .highPriority] ↔
          call ∈ [.modifier .highPriority, .modifier .highPriority]
        simp only [List.mem_cons, List.not_mem_nil, or_false, or_self]
    | _ => rfl
  · cases clause with
    | modifiers =>
        intro call
        change call ∈ [.modifier .ignore, .modifier .lowPriority] ↔
          call ∈ [.modifier .lowPriority, .modifier .ignore, .modifier .lowPriority]
        simp only [List.mem_cons, List.not_mem_nil, or_false]
        tauto
    | _ => rfl
  · cases clause with
    | modifiers => exact fun _ => .rfl
    | _ => rfl
  · cases clause with
    | modifiers => exact fun _ => .rfl
    | _ => rfl

/-- The modifiers stand in their own order, and the last table counts. -/
example : (Insert.builder.built [.modifier .ignore, .row [("id", .integer 1)], .into "tag",
      .modifier .lowPriority, .into "image", .modifier .ignore]).render .mysql =
    .ok "INSERT LOW_PRIORITY IGNORE INTO `image` (`id`) VALUES (1)" := by
  rfl

end RecordMapper
