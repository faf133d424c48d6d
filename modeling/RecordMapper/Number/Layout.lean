import RecordMapper.Number.Shortest

/-!
# Writing floating-point numbers

Two texts of one number are in use.  SQL and messages write every digit in its place and leave a
whole number without a fraction.  JSON keeps one fraction digit on whole numbers and switches to an
exponent outside a range of sizes.
-/

namespace RecordMapper

structure NumberLayout where
  halfway : Halfway
  /-- The orders `p` with `10 ^ (p - 1) ≤ |x| < 10 ^ p` that are written without an exponent. -/
  isPositional : Int → Bool
  /-- What follows a whole number written without an exponent. -/
  wholeSuffix : String

namespace NumberLayout

/-- Every digit stands in its place, and a whole number has no fraction. -/
def plain : NumberLayout :=
  { halfway := .up, isPositional := fun _ => true, wholeSuffix := "" }

/-- Numbers from `10 ^ (-5)` up to `10 ^ 16` have no exponent, and whole ones end in `.0`. -/
def json : NumberLayout :=
  { halfway := .even, isPositional := fun p => -5 < p && p ≤ 16, wholeSuffix := ".0" }

end NumberLayout

namespace Decimal

def digitText (d : Decimal) : List Char :=
  Nat.toDigits 10 d.digits

/-- The place of the decimal point, counted from the first digit. -/
def point (d : Decimal) : Int :=
  d.digitText.length + d.power

def positional (d : Decimal) (wholeSuffix : String) : String :=
  match d.power with
  | .ofNat up =>
      String.ofList (d.digitText ++ List.replicate up '0') ++ wholeSuffix
  | .negSucc _ =>
      match d.point with
      | .ofNat (before + 1) =>
          String.ofList (d.digitText.take (before + 1)) ++ "." ++
            String.ofList (d.digitText.drop (before + 1))
      | .ofNat 0 => "0." ++ String.ofList d.digitText
      | .negSucc zeros =>
          "0." ++ String.ofList (List.replicate (zeros + 1) '0' ++ d.digitText)

def scientific (d : Decimal) : String :=
  let fraction := d.digitText.drop 1
  let exponent := d.point - 1
  String.ofList (d.digitText.take 1) ++
    (if fraction.isEmpty then "" else "." ++ String.ofList fraction) ++
    (if exponent < 0 then "e-" else "e+") ++ toString exponent.natAbs

end Decimal

namespace Binary64

def magnitudeText (x : Binary64) (layout : NumberLayout) : String :=
  if x.significand = 0 then "0" ++ layout.wholeSuffix
  else
    let d := x.shortest layout.halfway
    if layout.isPositional d.point then d.positional layout.wholeSuffix else d.scientific

def text (x : Binary64) (layout : NumberLayout) : String :=
  if x.isNaN then "NaN"
  else
    (if x.isNegative then "-" else "") ++
      (if x.isFinite then x.magnitudeText layout else "inf")

end Binary64

end RecordMapper
