import RecordMapper.Proofs.Dialect.Lexemes

/-!
# Reading quoted texts

Each dialect reads a quoted text up to the first quote that is not written twice.  What was quoted is
read back, and the reading stops where the quoted text ended: no content moves the end, whatever
follows it, if only that neither goes on with a quote nor with a dot.
-/

namespace RecordMapper

namespace Quoting

/-- What a backslash together with the character behind it stands for in a string literal. -/
def unescape : Char → List Char
  | '0' => ['\x00']
  | 'b' => ['\x08']
  | 'n' => ['\n']
  | 'r' => ['\r']
  | 't' => ['\t']
  | 'Z' => ['\x1a']
  | '%' => ['\\', '%']
  | '_' => ['\\', '_']
  | c => [c]

/-- The content of a quoted text, read from behind its opening quote, and what follows it. -/
def readContent (quote : Char) (escapes : Bool) : List Char → Option (List Char × List Char)
  | [] => none
  | [c] => if c = quote then some ([], []) else none
  | c :: next :: rest =>
      if c = quote then
        if next = quote then (readContent quote escapes rest).map fun read => (quote :: read.1, read.2)
        else some ([], next :: rest)
      else if escapes = true ∧ c = '\\' then
        (readContent quote escapes rest).map fun read => (unescape next ++ read.1, read.2)
      else (readContent quote escapes (next :: rest)).map fun read => (c :: read.1, read.2)

/-- The special characters are the quote, and the backslash where it escapes. -/
def IsSpecial (quote : Char) (escapes : Bool) (special : Char → Bool) : Prop :=
  ∀ c, special c = true ↔ c = quote ∨ (escapes = true ∧ c = '\\')

variable {quote : Char} {escapes : Bool} {special : Char → Bool} {rest : List Char}

theorem double_of_plain {text : List Char} (h : ∀ c ∈ text, special c = false) :
    double special text = text := by
  induction text with
  | nil => rfl
  | cons c text ih =>
      have hsplit : double special (c :: text) =
          (if special c then [c, c] else [c]) ++ double special text := rfl
      rw [hsplit, h c List.mem_cons_self, ih fun other hother => h other (List.mem_cons_of_mem c hother)]
      rfl

theorem readContent_close (h : rest.head? ≠ some quote) :
    readContent quote escapes (quote :: rest) = some ([], rest) := by
  cases rest with
  | nil => simp [readContent]
  | cons next rest =>
      have hnext : next ≠ quote := fun heq => h (by rw [heq, List.head?_cons])
      simp [readContent, hnext]

theorem readContent_plain {c : Char} {text : List Char} (hne : text ≠ []) (hquote : c ≠ quote)
    (hescape : ¬ (escapes = true ∧ c = '\\')) : readContent quote escapes (c :: text) =
      (readContent quote escapes text).map fun read => (c :: read.1, read.2) := by
  cases text with
  | nil => exact absurd rfl hne
  | cons next text => rw [readContent, if_neg hquote, if_neg hescape]

theorem readContent_double (hspecial : IsSpecial quote escapes special)
    (h : rest.head? ≠ some quote) (text : List Char) :
    readContent quote escapes (double special text ++ quote :: rest) = some (text, rest) := by
  induction text with
  | nil => exact readContent_close h
  | cons c text ih =>
      have hsplit : double special (c :: text) =
          (if special c then [c, c] else [c]) ++ double special text := rfl
      rw [hsplit]
      by_cases hquote : c = quote
      · -- a doubled quote is a quote of the content
        subst hquote
        rw [if_pos ((hspecial c).mpr (.inl rfl))]
        simp [readContent, ih]
      · by_cases hescape : escapes = true ∧ c = '\\'
        · -- a backslash stands for itself behind another one
          obtain ⟨rfl, rfl⟩ := hescape
          rw [if_pos ((hspecial _).mpr (.inr ⟨rfl, rfl⟩))]
          simp [readContent, hquote, ih, unescape]
        · have hplain : ¬ special c = true := fun hc => ((hspecial c).mp hc).elim hquote hescape
          rw [if_neg hplain, List.singleton_append, List.cons_append,
            readContent_plain (by simp) hquote hescape, ih]
          rfl

end Quoting

/-- A part of a dotted name as a reader finds it. -/
inductive NamePart
  | star
  | quoted (name : String)
  deriving DecidableEq

namespace NamePart

/-- A part of a path: a lone star, or a name. -/
def ofPart (part : String) : NamePart :=
  if part = "*" then star else quoted part

end NamePart

namespace Dialect

open Quoting

/-! ## Readers -/

/-- The string literal at the beginning of a text, and what follows it. -/
def readText (d : Dialect) : List Char → Option (String × List Char)
  | '\'' :: text =>
      (readContent '\'' d.escapesBackslash text).map fun read => (String.ofList read.1, read.2)
  | _ => none

/-- The quoted identifier at the beginning of a text, and what follows it.  A backslash means
nothing in identifiers. -/
def readIdentifier (d : Dialect) : List Char → Option (String × List Char)
  | [] => none
  | c :: text =>
      if c = d.quoteChar then
        (readContent c false text).map fun read => (String.ofList read.1, read.2)
      else none

def readPart (d : Dialect) : List Char → Option (NamePart × List Char)
  | '*' :: after => some (.star, after)
  | text => (d.readIdentifier text).map fun read => (.quoted read.1, read.2)

def readParts (d : Dialect) : Nat → List Char → Option (List NamePart × List Char)
  | 0, _ => none
  | limit + 1, text =>
      match d.readPart text with
      | none => none
      | some (part, '.' :: text) =>
          (d.readParts limit text).map fun read => (part :: read.1, read.2)
      | some (part, after) => some ([part], after)

/-- The dotted name at the beginning of a text, and what follows it. -/
def readPath (d : Dialect) (text : List Char) : Option (List NamePart × List Char) :=
  d.readParts (text.length + 1) text

def readDigits (text : List Char) : Option (List UInt8 × List Char) :=
  match text.dropWhile (· != '\'') with
  | [] => none
  | _ :: after => (Text.ofHexBytes? (text.takeWhile (· != '\''))).map fun bytes => (bytes, after)

def ofDigitText? (text : String) : Option (List UInt8) :=
  match text.toList with
  | '\\' :: 'x' :: digits => Text.ofHexBytes? digits
  | _ => none

/-- The binary literal at the beginning of a text, and what follows it: digits in quotes behind an
`X`, or a string literal of digits behind `\x`. -/
def readBinary : Dialect → List Char → Option (List UInt8 × List Char)
  | postgresql, text =>
      (postgresql.readText text).bind fun read =>
        (ofDigitText? read.1).map fun bytes => (bytes, read.2)
  | _, 'X' :: '\'' :: text => readDigits text
  | _, _ => none

variable {d : Dialect} {rest : List Char}

/-! ## Texts and identifiers -/

theorem isSpecial_text (d : Dialect) : IsSpecial '\'' d.escapesBackslash d.isDoubledInText := by
  intro c
  simp [isDoubledInText]

theorem isSpecial_identifier (d : Dialect) :
    IsSpecial d.quoteChar false (· == d.quoteChar) := by
  intro c
  simp

theorem readText_quoteText (h : rest.head? ≠ some '\'') (text : String) :
    d.readText ((d.quoteText text).toList ++ rest) = some (text, rest) := by
  have hcontent := readContent_double (isSpecial_text d) h text.toList
  rw [quoteText, String.toList_ofList, enclose, List.append_assoc, List.cons_append,
    List.singleton_append, readText, hcontent, Option.map_some, String.ofList_toList]

theorem readIdentifier_quoteIdentifier (h : rest.head? ≠ some d.quoteChar) (name : String) :
    d.readIdentifier ((d.quoteIdentifier name).toList ++ rest) = some (name, rest) := by
  have hcontent := readContent_double (isSpecial_identifier d) h name.toList
  rw [quoteIdentifier, String.toList_ofList, enclose, List.append_assoc, List.cons_append,
    List.singleton_append, readIdentifier, if_pos rfl, hcontent, Option.map_some,
    String.ofList_toList]

/-! ## Dotted names -/

theorem quoteChar_ne_star (d : Dialect) : d.quoteChar ≠ '*' := by
  cases d <;> decide

theorem quoteChar_ne_dot (d : Dialect) : d.quoteChar ≠ '.' := by
  cases d <;> decide

theorem readPart_quotePart (h : rest.head? ≠ some d.quoteChar) (part : String) :
    d.readPart ((d.quotePart part).toList ++ rest) = some (.ofPart part, rest) := by
  unfold quotePart NamePart.ofPart
  split
  next hstar =>
      rw [hstar]
      rfl
  next =>
      have hread := readIdentifier_quoteIdentifier h part
      unfold readPart
      split
      next after htext =>
          -- an identifier begins with a quote
          rw [quoteIdentifier, String.toList_ofList, enclose] at htext
          exact absurd (List.cons.inj htext).1 (quoteChar_ne_star d)
      next => rw [hread, Option.map_some]

/-- Neither a quote nor a dot goes on with a dotted name. -/
def EndsName (d : Dialect) (rest : List Char) : Prop :=
  rest.head? ≠ some d.quoteChar ∧ rest.head? ≠ some '.'

theorem readParts_join (h : d.EndsName rest) {parts : List String} (hne : parts ≠ []) {limit : Nat}
    (hlimit : parts.length ≤ limit) :
    d.readParts limit ((".".intercalate (parts.map d.quotePart)).toList ++ rest) =
      some (parts.map .ofPart, rest) := by
  induction parts generalizing limit with
  | nil => exact absurd rfl hne
  | cons part more ih =>
      obtain ⟨limit, rfl⟩ : ∃ n, limit = n + 1 :=
        ⟨limit - 1, by rw [List.length_cons] at hlimit; omega⟩
      cases more with
      | nil =>
          rw [List.map_cons, List.map_nil, String.intercalate_singleton, readParts,
            readPart_quotePart h.1]
          split
          next hnone => cases hnone
          next hdot =>
              cases hdot
              exact absurd rfl h.2
          next hread =>
              cases hread
              rfl
      | cons next more =>
          have hrest := ih (List.cons_ne_nil _ _) (Nat.le_of_succ_le_succ hlimit)
          have hdot : ('.' :: ((".".intercalate ((next :: more).map d.quotePart)).toList ++
              rest)).head? ≠ some d.quoteChar := by
            simpa using (quoteChar_ne_dot d).symm
          have htext : (".".intercalate ((part :: next :: more).map d.quotePart)).toList ++ rest =
              (d.quotePart part).toList ++
                '.' :: ((".".intercalate ((next :: more).map d.quotePart)).toList ++ rest) := by
            simp [String.intercalate_cons_cons]
          rw [htext, readParts, readPart_quotePart hdot]
          change (d.readParts limit _).map _ = _
          rw [hrest]
          rfl

theorem length_le_join (parts : List String) :
    parts.length ≤ (".".intercalate parts).toList.length + 1 := by
  induction parts with
  | nil => simp
  | cons part more ih =>
      cases more with
      | nil => simp
      | cons next more =>
          rw [String.intercalate_cons_cons]
          simp only [String.toList_append, List.length_append, List.length_cons] at ih ⊢
          have hdot : ".".toList.length = 1 := rfl
          omega

theorem readPath_quotePath (h : d.EndsName rest) (path : String) :
    d.readPath ((d.quotePath path).toList ++ rest) =
      some ((Text.split '.' path).map .ofPart, rest) := by
  have hne : Text.split '.' path ≠ [] := by simp [Text.split, Text.segments_ne_nil]
  have hlength := length_le_join ((Text.split '.' path).map d.quotePart)
  rw [readPath, quotePath]
  refine readParts_join h hne ?_
  rw [List.length_map] at hlength
  rw [List.length_append]
  omega

/-! ## Binary literals -/

theorem ofHexBytes?_map_hexBytes (shape : Char → Char)
    (h : ∀ n < 16, Text.hexValue? (shape (Nat.digitChar n)) = some n) (bytes : List UInt8) :
    Text.ofHexBytes? ((Text.hexBytes bytes).map shape) = some bytes := by
  induction bytes with
  | nil => rfl
  | cons byte rest ih =>
      have hbyte : byte.toNat < 256 := byte.toNat_lt
      have hhigh := h (byte.toNat / 16) (by omega)
      have hlow := h (byte.toNat % 16) (by omega)
      have hsplit : (Text.hexBytes (byte :: rest)).map shape =
          shape (Nat.digitChar (byte.toNat / 16)) :: shape (Nat.digitChar (byte.toNat % 16)) ::
            (Text.hexBytes rest).map shape := rfl
      have hsum : 16 * (byte.toNat / 16) + byte.toNat % 16 = byte.toNat := Nat.div_add_mod _ 16
      rw [hsplit, Text.ofHexBytes?, hhigh, hlow, ih]
      change some (UInt8.ofNat (16 * (byte.toNat / 16) + byte.toNat % 16) :: rest) = _
      rw [hsum, UInt8.ofNat_toNat]

theorem ofHexBytes?_hexBytes (bytes : List UInt8) :
    Text.ofHexBytes? (Text.hexBytes bytes) = some bytes := by
  have h := ofHexBytes?_map_hexBytes id (by decide) bytes
  rwa [List.map_id] at h

theorem ofDigitText?_hexBytes (bytes : List UInt8) :
    ofDigitText? (String.ofList ('\\' :: 'x' :: Text.hexBytes bytes)) = some bytes := by
  rw [ofDigitText?, String.toList_ofList]
  exact ofHexBytes?_hexBytes bytes

theorem readDigits_close {digits : List Char} (h : ∀ c ∈ digits, (c != '\'') = true) :
    readDigits (digits ++ '\'' :: rest) =
      (Text.ofHexBytes? digits).map fun bytes => (bytes, rest) := by
  rw [readDigits, List.dropWhile_append_of_pos h, List.takeWhile_append_of_pos h]
  simp

theorem readBinary_marked (hd : d ≠ postgresql) (bytes : List UInt8) :
    d.readBinary ((d.quoteBinary bytes).toList ++ rest) = some (bytes, rest) := by
  have hdigits : ∀ c ∈ (Text.hexBytes bytes).map Char.toUpper, (c != '\'') = true := by
    intro c hc
    obtain ⟨digit, hdigit, rfl⟩ := List.mem_map.mp hc
    simpa using (hexBytes_clean bytes digit hdigit).2.1
  have htext : (d.quoteBinary bytes).toList ++ rest =
      'X' :: '\'' :: ((Text.hexBytes bytes).map Char.toUpper ++ '\'' :: rest) := by
    cases d with
    | postgresql => exact absurd rfl hd
    | generic | sqlite | mysql =>
        change (String.ofList ("X'".toList ++ (Text.hexBytes bytes).map Char.toUpper ++
          ['\''])).toList ++ rest = _
        rw [String.toList_ofList, List.append_assoc, List.append_assoc]
        rfl
  have hread : ∀ text, d.readBinary ('X' :: '\'' :: text) = readDigits text := by
    cases d with
    | postgresql => exact absurd rfl hd
    | generic | sqlite | mysql => exact fun _ => rfl
  rw [htext, hread, readDigits_close hdigits, ofHexBytes?_map_hexBytes _ (by decide), Option.map_some]

/-- The digits behind `\x` hold no quote, so that doubling leaves them as they are. -/
theorem quoteBinary_postgresql (bytes : List UInt8) : postgresql.quoteBinary bytes =
    postgresql.quoteText (String.ofList ('\\' :: 'x' :: Text.hexBytes bytes)) := by
  have hplain : ∀ c ∈ '\\' :: 'x' :: Text.hexBytes bytes,
      postgresql.isDoubledInText c = false := by
    intro c hc
    simp only [List.mem_cons] at hc
    rcases hc with rfl | rfl | hc
    · rfl
    · rfl
    · simpa [isDoubledInText, escapesBackslash] using (hexBytes_clean bytes c hc).1.1
  rw [quoteText, String.toList_ofList, enclose, double_of_plain hplain]
  rfl

theorem readBinary_quoteBinary (h : rest.head? ≠ some '\'') (bytes : List UInt8) :
    d.readBinary ((d.quoteBinary bytes).toList ++ rest) = some (bytes, rest) := by
  by_cases hd : d = postgresql
  · subst hd
    rw [quoteBinary_postgresql, readBinary, readText_quoteText h, Option.bind_some,
      ofDigitText?_hexBytes, Option.map_some]
  · exact readBinary_marked hd bytes

/-! ## All that is quoted -/

/-- Neither a quoted text nor a dotted name goes on. -/
def EndsQuoted (d : Dialect) (rest : List Char) : Prop :=
  ∀ c ∈ rest.head?, c ≠ '\'' ∧ c ≠ d.quoteChar ∧ c ≠ '.'

instance (d : Dialect) : (rest : List Char) → Decidable (d.EndsQuoted rest)
  | [] => isTrue nofun
  | c :: _ => decidable_of_iff (c ≠ '\'' ∧ c ≠ d.quoteChar ∧ c ≠ '.') (by simp [EndsQuoted])

/-- Whatever is quoted, in front of whatever text, a reader of the dialect finds exactly what was
quoted and stops exactly at that text. -/
theorem reads_quoted (h : d.EndsQuoted rest) :
    (∀ text, d.readText ((d.quoteText text).toList ++ rest) = some (text, rest)) ∧
      (∀ name, d.readIdentifier ((d.quoteIdentifier name).toList ++ rest) = some (name, rest)) ∧
      (∀ path, ".".intercalate (Text.split '.' path) = path ∧
        (∀ part ∈ Text.split '.' path, '.' ∉ part.toList) ∧
        d.readPath ((d.quotePath path).toList ++ rest) =
          some ((Text.split '.' path).map .ofPart, rest)) ∧
      ∀ bytes, d.readBinary ((d.quoteBinary bytes).toList ++ rest) = some (bytes, rest) := by
  have hquote : rest.head? ≠ some '\'' := fun hc => (h _ hc).1 rfl
  have hname : rest.head? ≠ some d.quoteChar := fun hc => (h _ hc).2.1 rfl
  have hdot : rest.head? ≠ some '.' := fun hc => (h _ hc).2.2 rfl
  refine ⟨readText_quoteText hquote, readIdentifier_quoteIdentifier hname, fun path => ?_,
    readBinary_quoteBinary hquote⟩
  exact ⟨Text.join_split '.' path, Text.notMem_split, readPath_quotePath ⟨hname, hdot⟩ path⟩

/-- A literal that ends in a backslash and a quote, and a name of a quoted quote and a star. -/
theorem reads_quoted_mysql : mysql.EndsQuoted " AND".toList ∧
    mysql.readText "'it''s \\\\''' AND".toList = some ("it's \\'", " AND".toList) ∧
    mysql.readPath "\x60we\x60\x60ird\x60.* AND".toList =
      some ([.quoted "we\x60ird", .star], " AND".toList) := by
  have hends : mysql.EndsQuoted " AND".toList := by decide
  have hsplit : Text.split '.' "we\x60ird.*" = ["we\x60ird", "*"] := by decide +kernel
  obtain ⟨htext, -, hpath, -⟩ := reads_quoted hends
  have hread := (hpath "we\x60ird.*").2.2
  rw [hsplit] at hread
  exact ⟨hends, htext "it's \\'", hread⟩

end Dialect

end RecordMapper
