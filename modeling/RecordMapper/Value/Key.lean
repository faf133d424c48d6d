import RecordMapper.Value

/-!
# Keys

The identity by which rows are matched in memory.  Numbers that are whole share one form, so that a
key read back as a floating-point number still finds its integer.
-/

namespace RecordMapper

inductive Key
  | integer (n : Int64)
  | float (bits : UInt64)
  | text (s : String)
  | binary (bytes : List UInt8)
  | composite (parts : List Key)

namespace Key

mutual

def decideEq : (a b : Key) → Decidable (a = b)
  | integer a, integer b => if h : a = b then isTrue (h ▸ rfl) else isFalse (by simpa using h)
  | float a, float b => if h : a = b then isTrue (h ▸ rfl) else isFalse (by simpa using h)
  | text a, text b => if h : a = b then isTrue (h ▸ rfl) else isFalse (by simpa using h)
  | binary a, binary b => if h : a = b then isTrue (h ▸ rfl) else isFalse (by simpa using h)
  | composite a, composite b =>
      match decideEqAll a b with
      | isTrue h => isTrue (h ▸ rfl)
      | isFalse h => isFalse (by simpa using h)
  | integer _, float _ => isFalse nofun
  | integer _, text _ => isFalse nofun
  | integer _, binary _ => isFalse nofun
  | integer _, composite _ => isFalse nofun
  | float _, integer _ => isFalse nofun
  | float _, text _ => isFalse nofun
  | float _, binary _ => isFalse nofun
  | float _, composite _ => isFalse nofun
  | text _, integer _ => isFalse nofun
  | text _, float _ => isFalse nofun
  | text _, binary _ => isFalse nofun
  | text _, composite _ => isFalse nofun
  | binary _, integer _ => isFalse nofun
  | binary _, float _ => isFalse nofun
  | binary _, text _ => isFalse nofun
  | binary _, composite _ => isFalse nofun
  | composite _, integer _ => isFalse nofun
  | composite _, float _ => isFalse nofun
  | composite _, text _ => isFalse nofun
  | composite _, binary _ => isFalse nofun

def decideEqAll : (a b : List Key) → Decidable (a = b)
  | [], [] => isTrue rfl
  | [], _ :: _ => isFalse nofun
  | _ :: _, [] => isFalse nofun
  | a :: as, b :: bs =>
      match decideEq a b, decideEqAll as bs with
      | isTrue h, isTrue hs => isTrue (h ▸ hs ▸ rfl)
      | isFalse h, _ => isFalse fun e => h (List.cons.inj e).1
      | _, isFalse hs => isFalse fun e => hs (List.cons.inj e).2

end

instance : DecidableEq Key := decideEq

/-! ## Order -/

/-- The place of a key's form: integers, numbers with a fraction, texts, binaries, composites. -/
def rank : Key → Nat
  | integer _ => 0
  | float _ => 1
  | text _ => 2
  | binary _ => 3
  | composite _ => 4

mutual

/-- The order of keys: first by form, then by content. -/
def compare : Key → Key → Ordering
  | integer a, integer b => Ord.compare a.toInt b.toInt
  | float a, float b => Ord.compare a b
  | text a, text b => Ord.compare a b
  | binary a, binary b => List.compareLex Ord.compare a b
  | composite a, composite b => compareAll a b
  | a, b => Ord.compare a.rank b.rank

def compareAll : List Key → List Key → Ordering
  | [], [] => .eq
  | [], _ :: _ => .lt
  | _ :: _, [] => .gt
  | a :: as, b :: bs => (compare a b).then (compareAll as bs)

end

end Key

namespace Value

mutual

/-- The key of a value.  Null, and an array with a null in it, has none. -/
def key? : Value → Option Key
  | null => none
  | bool b => some (.integer (if b then 1 else 0))
  | integer n => some (.integer n)
  | float x =>
      match x.whole? with
      | some n => some (.integer (Int64.ofIntClamp n))
      | none => some (.float x.bits)
  | text s => some (.text s)
  | binary bytes => some (.binary bytes)
  | array items => (keys? items).map .composite

def keys? : List Value → Option (List Key)
  | [] => some []
  | item :: rest =>
      match key? item, keys? rest with
      | some key, some keys => some (key :: keys)
      | _, _ => none

end

end Value

end RecordMapper
