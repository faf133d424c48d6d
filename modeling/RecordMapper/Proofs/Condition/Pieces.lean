import RecordMapper.Statement.Rendering

/-!
# Pieces of conditions

The text of a condition is put together from pieces: contents, parentheses, commas and keywords.
`Whole` says of a row of pieces that nothing is missing in it.  A `Wording` is the structure behind
such a row, and `whole_pieces_iff` tells from the structure whether the row is whole.
-/

namespace RecordMapper

/-! ## Rows of pieces -/

inductive Piece
  /-- A quoted name, a literal or the verbatim text of a caller. -/
  | content (text : String)
  | opening
  /-- The name of a function with the parenthesis that opens its arguments. -/
  | calling (name : String)
  | closing
  | comma
  /-- A keyword before what it applies to. -/
  | leading (keyword : Keyword)
  /-- A keyword between two texts. -/
  | joining (keyword : Keyword)
  deriving DecidableEq

namespace Piece

def text : Piece → String
  | content text => text
  | opening => "("
  | calling name => name ++ "("
  | closing => ")"
  | comma => ", "
  | leading keyword => keyword.text ++ " "
  | joining keyword => " " ++ keyword.text ++ " "

theorem text_ne_empty {piece : Piece} (h : ∀ text, piece ≠ content text) : piece.text ≠ "" := by
  cases piece with
  | content text => exact absurd rfl (h text)
  | opening | closing | comma => decide
  | calling _ | leading _ | joining _ => simp [text]

def beginsOperand : Piece → Bool
  | content _ | opening | calling _ | leading _ => true
  | _ => false

def endsOperand : Piece → Bool
  | content _ | closing => true
  | _ => false

/-- Whether the piece is an operator between two operands: one that compares, computes, joins
conditions, or tests bounds or membership. -/
def isOperator : Piece → Bool
  | joining keyword => keyword != .as && keyword != .any
  | _ => false

def awaitsOperand (piece : Piece) : Bool :=
  piece.isOperator || piece == leading .not

theorem awaitsOperand_joining (keyword : Keyword) :
    (joining keyword).awaitsOperand = (joining keyword).isOperator := by
  simp [awaitsOperand]

end Piece

/-- The text of a row of pieces. -/
def spell : List Piece → String
  | [] => ""
  | piece :: rest => piece.text ++ spell rest

theorem spell_append (ps qs : List Piece) : spell (ps ++ qs) = spell ps ++ spell qs := by
  induction ps with
  | nil => rw [List.nil_append, spell, String.empty_append]
  | cons piece rest ih => rw [List.cons_append, spell, spell, ih, String.append_assoc]

theorem spell_eq_empty_iff {ps : List Piece} (h : ∀ piece ∈ ps, piece.text ≠ "") :
    spell ps = "" ↔ ps = [] := by
  cases ps with
  | nil => exact iff_of_true rfl rfl
  | cons piece rest =>
      refine iff_of_false (fun hempty => ?_) nofun
      exact h piece List.mem_cons_self (String.append_eq_empty_iff.mp hempty).1

/-- Nothing is missing in a row of pieces.  No parentheses are empty but those around arguments, every
`NOT` has something to negate, and every operator stands between two operands. -/
structure Whole (pieces : List Piece) : Prop where
  groups : ∀ before after, pieces ≠ before ++ .opening :: .closing :: after
  negations : ∀ before after, pieces = before ++ .leading .not :: after →
    after.head?.any Piece.beginsOperand = true
  operators : ∀ before piece after, pieces = before ++ piece :: after → piece.isOperator = true →
    before.getLast?.any Piece.endsOperand = true ∧ after.head?.any Piece.beginsOperand = true

/-! ## Neighbours -/

section Neighbours

variable {p? q? : Option Piece} {r : Piece} {ps qs : List Piece}

/-- Two neighbours leave nothing missing between them; the ends of a row have no neighbour. -/
structure Meets (p? q? : Option Piece) : Prop where
  group : ¬ (p? = some .opening ∧ q? = some .closing)
  right : p?.any Piece.awaitsOperand = true → q?.any Piece.beginsOperand = true
  left : q?.any Piece.isOperator = true → p?.any Piece.endsOperand = true

def Fits : Option Piece → List Piece → Option Piece → Prop
  | p?, [], q? => Meets p? q?
  | p?, piece :: rest, q? => Meets p? (some piece) ∧ Fits (some piece) rest q?

theorem fits_append_cons :
    Fits p? (ps ++ r :: qs) q? ↔ Fits p? ps (some r) ∧ Fits (some r) qs q? := by
  induction ps generalizing p? with
  | nil => exact Iff.rfl
  | cons piece rest ih => rw [List.cons_append, Fits, Fits, ih, and_assoc]

theorem Fits.meets_head (h : Fits p? ps q?) : Meets p? (ps.head?.or q?) := by
  cases ps with
  | nil => exact h
  | cons piece rest => exact h.1

theorem Fits.meets_last (h : Fits p? ps q?) : Meets (ps.getLast?.or p?) q? := by
  induction ps generalizing p? with
  | nil => exact h
  | cons piece rest ih =>
      have hlast := ih h.2
      rw [List.getLast?_cons, Option.some_or]
      cases hrest : rest.getLast? with
      | none => rwa [hrest] at hlast
      | some last => rwa [hrest] at hlast

theorem Whole.meets {before rest : List Piece} (h : Whole (before ++ rest)) :
    Meets before.getLast? rest.head? where
  group := by
    rintro ⟨hlast, hhead⟩
    obtain ⟨init, rfl⟩ := List.getLast?_eq_some_iff.mp hlast
    obtain ⟨after, rfl⟩ := List.head?_eq_some_iff.mp hhead
    exact h.groups init after (by simp)
  right hawaits := by
    obtain ⟨last, hlast, hpiece⟩ := (Option.any_eq_true _ _).mp hawaits
    obtain ⟨init, rfl⟩ := List.getLast?_eq_some_iff.mp hlast
    obtain hoperator | hnot := Bool.or_eq_true_iff.mp hpiece
    · exact (h.operators init last rest (by simp) hoperator).2
    · obtain rfl := beq_iff_eq.mp hnot
      exact h.negations init rest (by simp)
  left hoperator := by
    obtain ⟨first, hfirst, hoperator⟩ := (Option.any_eq_true _ _).mp hoperator
    obtain ⟨after, rfl⟩ := List.head?_eq_some_iff.mp hfirst
    exact (h.operators before first after rfl hoperator).1

theorem meets_of_begins (hbegins : r.beginsOperand = true) : Meets p? (some r) := by
  cases r with
  | content _ | opening | calling _ | leading _ => exact ⟨by simp, fun _ => rfl, nofun⟩
  | closing | comma | joining _ => cases hbegins

theorem meets_of_ends (hends : r.endsOperand = true) : Meets (some r) q? := by
  cases r with
  | content _ | closing => exact ⟨by simp, nofun, fun _ => rfl⟩
  | opening | calling _ | comma | leading _ | joining _ => cases hends

theorem fits_enclosed (hbegins : r.beginsOperand = true) :
    Fits p? (r :: (ps ++ [.closing])) q? ↔ Fits (some r) ps (some .closing) := by
  rw [Fits, fits_append_cons]
  constructor
  · exact fun h => h.2.1
  · exact fun h => ⟨meets_of_begins hbegins, h, meets_of_ends rfl⟩

theorem whole_iff_fits : Whole ps ↔ Fits none ps none := by
  constructor
  · intro h
    -- The pieces are taken one by one; those before stand for the left neighbour.
    suffices hrest : ∀ rest before, Whole (before ++ rest) → Fits before.getLast? rest none from
      hrest ps [] h
    intro rest
    induction rest with
    | nil => exact fun before h => h.meets
    | cons piece rest ih =>
        intro before h
        have hmore := ih (before ++ [piece]) (by simpa using h)
        rw [List.getLast?_concat] at hmore
        exact ⟨h.meets, hmore⟩
  · intro h
    refine ⟨?_, ?_, ?_⟩
    · rintro before after rfl
      exact (fits_append_cons.mp h).2.1.group ⟨rfl, rfl⟩
    · rintro before after rfl
      have hafter := (fits_append_cons.mp h).2.meets_head.right rfl
      rwa [Option.or_none] at hafter
    · rintro before piece after rfl hpiece
      obtain ⟨hbefore, hafter⟩ := fits_append_cons.mp h
      have hleft := hbefore.meets_last.left hpiece
      have hright := hafter.meets_head.right (by simp [Piece.awaitsOperand, hpiece])
      rw [Option.or_none] at hleft hright
      exact ⟨hleft, hright⟩

end Neighbours

/-! ## Wordings -/

inductive Wording
  | nothing
  | literal (v : Value)
  /-- The literals of a list, with commas between them. -/
  | literals (values : List Value)
  | field (ref : FieldRef)
  | label (name : String)
  | raw (sql : String)
  | group (inner : Wording)
  | call (name : String) (arguments : Wording)
  | lead (keyword : Keyword) (rest : Wording)
  | join (keyword : Keyword) (left right : Wording)
  | comma (first rest : Wording)

namespace Wording

def pieces (d : Dialect) : Wording → List Piece
  | nothing => []
  | literal v => [.content (d.literal v)]
  | literals values => [.content (", ".intercalate (values.map d.literal))]
  | field ref => [.content (ref.render d)]
  | label name => [.content (d.quoteIdentifier name)]
  | raw sql => if sql.isEmpty then [] else [.content sql]
  | group inner => .opening :: (inner.pieces d ++ [.closing])
  | call name arguments => .calling name :: (arguments.pieces d ++ [.closing])
  | lead keyword rest => .leading keyword :: rest.pieces d
  | join keyword left right => left.pieces d ++ .joining keyword :: right.pieces d
  | comma first rest => first.pieces d ++ .comma :: rest.pieces d

def isSilent : Wording → Bool
  | nothing => true
  | raw sql => sql.isEmpty
  | _ => false

/-- Whether the text begins with an operand, so that an operator can stand before it. -/
def beginsOperand : Wording → Bool
  | nothing => false
  | raw sql => !sql.isEmpty
  | join _ left _ => left.beginsOperand
  | comma first _ => first.beginsOperand
  | _ => true

def endsOperand : Wording → Bool
  | nothing => false
  | raw sql => !sql.isEmpty
  | lead _ rest => rest.endsOperand
  | join _ _ right => right.endsOperand
  | comma _ rest => rest.endsOperand
  | _ => true

/-- Whether every operator has its operands and every group has a content. -/
def isWhole : Wording → Bool
  | group inner => inner.isWhole && !inner.isSilent
  | call _ arguments => arguments.isWhole
  | lead keyword rest =>
      rest.isWhole && (!(Piece.leading keyword).awaitsOperand || rest.beginsOperand)
  | join keyword left right => left.isWhole && right.isWhole &&
      (!(Piece.joining keyword).isOperator || (left.endsOperand && right.beginsOperand))
  | comma first rest => first.isWhole && rest.isWhole
  | _ => true

variable {p? q? : Option Piece}

theorem not_or_eq_true_iff {a b : Bool} : (!a || b) = true ↔ (a = true → b = true) := by
  cases a <;> simp

/-- The text is whole between two neighbours that are no operands: it begins and ends with an operand
where one of them is an operator, and it has a content where they are parentheses. -/
structure Suits (w : Wording) (p? q? : Option Piece) : Prop where
  whole : w.isWhole = true
  begins : p?.any Piece.awaitsOperand = true → w.beginsOperand = true
  ends : q?.any Piece.isOperator = true → w.endsOperand = true
  content : p? = some .opening → q? = some .closing → w.isSilent = false

theorem edges_of_isSilent {w : Wording} (h : w.isSilent = true) :
    w.isWhole = true ∧ w.beginsOperand = false ∧ w.endsOperand = false := by
  cases w with
  | nothing => exact ⟨rfl, rfl, rfl⟩
  | raw sql =>
      have hempty : (!sql.isEmpty) = false := by rw [show sql.isEmpty = true from h]; rfl
      exact ⟨rfl, hempty, hempty⟩
  | _ => cases h

theorem fits_nil_iff {w : Wording} (hsilent : w.isSilent = true)
    (hp : p?.any Piece.endsOperand = false) (hq : q?.any Piece.beginsOperand = false) :
    Fits p? [] q? ↔ w.Suits p? q? := by
  obtain ⟨hwhole, hbegins, hends⟩ := edges_of_isSilent hsilent
  constructor
  · intro h
    refine ⟨hwhole, fun hawaits => ?_, fun hoperator => ?_, fun hopening hclosing => ?_⟩
    · cases hq.symm.trans (h.right hawaits)
    · cases hp.symm.trans (h.left hoperator)
    · exact absurd ⟨hopening, hclosing⟩ h.group
  · intro h
    refine ⟨fun ⟨hopening, hclosing⟩ => ?_, fun hawaits => ?_, fun hoperator => ?_⟩
    · cases hsilent.symm.trans (h.content hopening hclosing)
    · cases hbegins.symm.trans (h.begins hawaits)
    · cases hends.symm.trans (h.ends hoperator)

theorem fits_content_iff {w : Wording} {text : String} (hwhole : w.isWhole = true)
    (hbegins : w.beginsOperand = true) (hends : w.endsOperand = true)
    (hcontent : w.isSilent = false) : Fits p? [.content text] q? ↔ w.Suits p? q? :=
  iff_of_true ⟨meets_of_begins rfl, meets_of_ends rfl⟩
    ⟨hwhole, fun _ => hbegins, fun _ => hends, fun _ _ => hcontent⟩

theorem suits_group_iff {inner : Wording} :
    (group inner).Suits p? q? ↔ inner.Suits (some .opening) (some .closing) := by
  constructor
  · intro h
    obtain ⟨hwhole, hcontent⟩ := Bool.and_eq_true_iff.mp h.whole
    exact ⟨hwhole, nofun, nofun, fun _ _ => by simpa using hcontent⟩
  · intro h
    refine ⟨?_, fun _ => rfl, fun _ => rfl, fun _ _ => rfl⟩
    rw [isWhole, h.whole, h.content rfl rfl]
    rfl

theorem suits_call_iff {name : String} {arguments : Wording} :
    (call name arguments).Suits p? q? ↔ arguments.Suits (some (.calling name)) (some .closing) := by
  constructor
  · exact fun h => ⟨h.whole, nofun, nofun, nofun⟩
  · exact fun h => ⟨h.whole, fun _ => rfl, fun _ => rfl, fun _ _ => rfl⟩

theorem suits_lead_iff {keyword : Keyword} {rest : Wording} :
    (lead keyword rest).Suits p? q? ↔ rest.Suits (some (.leading keyword)) q? := by
  constructor
  · intro h
    have hwhole := h.whole
    rw [isWhole, Bool.and_eq_true, not_or_eq_true_iff] at hwhole
    exact ⟨hwhole.1, hwhole.2, h.ends, nofun⟩
  · intro h
    refine ⟨?_, fun _ => rfl, h.ends, fun _ _ => rfl⟩
    rw [isWhole, Bool.and_eq_true, not_or_eq_true_iff]
    exact ⟨h.whole, h.begins⟩

theorem suits_join_iff {keyword : Keyword} {left right : Wording} :
    (join keyword left right).Suits p? q? ↔
      left.Suits p? (some (.joining keyword)) ∧ right.Suits (some (.joining keyword)) q? := by
  have hwhole : (join keyword left right).isWhole = true ↔
      (left.isWhole = true ∧ right.isWhole = true) ∧
        ((Piece.joining keyword).isOperator = true →
          left.endsOperand = true ∧ right.beginsOperand = true) := by
    rw [isWhole, Bool.and_eq_true, Bool.and_eq_true, not_or_eq_true_iff, Bool.and_eq_true]
  have hawaits := Piece.awaitsOperand_joining keyword
  constructor
  · intro h
    obtain ⟨⟨hleft, hright⟩, hoperands⟩ := hwhole.mp h.whole
    exact ⟨⟨hleft, h.begins, fun hoperator => (hoperands hoperator).1, fun _ => nofun⟩,
      ⟨hright, fun hoperator => (hoperands (hawaits.symm.trans hoperator)).2, h.ends, nofun⟩⟩
  · rintro ⟨hleft, hright⟩
    refine ⟨hwhole.mpr ⟨⟨hleft.whole, hright.whole⟩, fun hoperator => ?_⟩, hleft.begins,
      hright.ends, fun _ _ => rfl⟩
    exact ⟨hleft.ends hoperator, hright.begins (hawaits.trans hoperator)⟩

theorem suits_comma_iff {first rest : Wording} :
    (comma first rest).Suits p? q? ↔ first.Suits p? (some .comma) ∧ rest.Suits (some .comma) q? := by
  constructor
  · intro h
    obtain ⟨hfirst, hrest⟩ := Bool.and_eq_true_iff.mp h.whole
    exact ⟨⟨hfirst, h.begins, nofun, fun _ => nofun⟩, ⟨hrest, nofun, h.ends, nofun⟩⟩
  · rintro ⟨hfirst, hrest⟩
    refine ⟨?_, hfirst.begins, hrest.ends, fun _ _ => rfl⟩
    rw [isWhole, hfirst.whole, hrest.whole]
    rfl

/-- The pieces of a text fit between two neighbours if the text suits them. -/
theorem fits_pieces_iff (d : Dialect) (w : Wording) (hp : p?.any Piece.endsOperand = false)
    (hq : q?.any Piece.beginsOperand = false) : Fits p? (w.pieces d) q? ↔ w.Suits p? q? := by
  -- The neighbours vary, since the parts of a text have others than the whole.
  induction w generalizing p? q? with
  | nothing => exact fits_nil_iff rfl hp hq
  | literal _ | literals _ | field _ | label _ => exact fits_content_iff rfl rfl rfl rfl
  | raw sql =>
      rw [pieces]
      split
      next hsilent => exact fits_nil_iff hsilent hp hq
      next hcontent =>
          rw [Bool.not_eq_true] at hcontent
          have hsome : (!sql.isEmpty) = true := by rw [hcontent]; rfl
          exact fits_content_iff rfl hsome hsome hcontent
  | group inner ih => rw [pieces, fits_enclosed rfl, ih rfl rfl, suits_group_iff]
  | call name arguments ih => rw [pieces, fits_enclosed rfl, ih rfl rfl, suits_call_iff]
  | lead keyword rest ih =>
      rw [pieces, Fits, ih rfl hq, suits_lead_iff]
      exact and_iff_right (meets_of_begins rfl)
  | join keyword left right ihl ihr =>
      rw [pieces, fits_append_cons, ihl hp rfl, ihr rfl hq, suits_join_iff]
  | comma first rest ihf ihr =>
      rw [pieces, fits_append_cons, ihf hp rfl, ihr rfl hq, suits_comma_iff]

theorem whole_pieces_iff (d : Dialect) (w : Wording) : Whole (w.pieces d) ↔ w.isWhole = true := by
  rw [whole_iff_fits, fits_pieces_iff d w rfl rfl]
  exact ⟨Suits.whole, fun h => ⟨h, nofun, nofun, nofun⟩⟩

end Wording

end RecordMapper
