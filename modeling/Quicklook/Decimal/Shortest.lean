/-!
# Shortest decimals

The text of a floating-point number: the fewest digits that read back as the number, of
those the digits nearest to it, written with a point and never with an exponent.

Every number `m · 2^e` stands for the span of reals that round to it. On the grid of
multiples of `10^q` only the two neighbours of the value have to be looked at: if any point
of the grid lies in the span, one of them does. The coarsest grid with a hit has the fewest
digits.
-/

namespace Quicklook.Decimal

open Float.Model (UnpackedFloat)

/-! ## §1 The span of a number -/

/-- The reals that round to a number. The ends belong to it when the significand is even. -/
structure Span where
  value : Rat
  /-- Halfway to the number below. -/
  lo : Rat
  /-- Halfway to the number above. -/
  hi : Rat
  /-- Whether the ends belong to the span. -/
  closed : Bool

/-- Whether a real rounds to the number. -/
def Span.contains (s : Span) (x : Rat) : Bool :=
  if s.closed then decide (s.lo ≤ x ∧ x ≤ s.hi) else decide (s.lo < x ∧ x < s.hi)

/-- The span of `m · 2^e`. Below the least significand of a binade the numbers lie twice as
    close, except at the bottom of the range. -/
def Span.of (m : Nat) (e : Int) : Span :=
  let unit : Rat := 2 ^ e
  -- At the foot of a binade `m` is `2^52`, and the neighbour below is half as far away.
  let below : Rat := if m = 4503599627370496 ∧ -1074 < e then unit / 4 else unit / 2
  { value := m * unit, lo := m * unit - below, hi := m * unit + unit / 2, closed := m % 2 == 0 }

/-! ## §2 The coarsest grid with a hit -/

/-- The number of decimal digits. -/
def digitCount (n : Nat) : Nat :=
  (Nat.toDigits 10 n).length

/-- The exponent `p` with `10^p ≤ x < 10^(p+1)`, for a positive `x`. -/
def magnitude (x : Rat) : Int :=
  let guess : Int := digitCount x.num.toNat - digitCount x.den
  if (10 : Rat) ^ guess ≤ x then guess else guess - 1

/-- The multiple of `10^q` in the span that is nearest to its value, as the factor; of two
    equally near ones the larger. -/
def Span.onGrid (s : Span) (q : Int) : Option Nat :=
  let step : Rat := 10 ^ q
  let d := (s.value / step).floor.toNat
  let low : Rat := d * step
  let high : Rat := (d + 1) * step
  match s.contains low, s.contains high with
  | true, true => some (if s.value - low < high - s.value then d else d + 1)
  | true, false => some d
  | false, true => some (d + 1)
  | false, false => none

/-- The digits and the exponent of the shortest decimal in the span. Seventeen digits always
    suffice. -/
def Span.shortest (s : Span) : Nat × Int :=
  let p := magnitude s.value
  -- The grids get finer by a factor of ten with every digit.
  let hit := (List.range 17).findSome? fun (k : Nat) => (s.onGrid (p - k)).map (·, p - (k : Int))
  hit.getD ((s.value / 10 ^ (p - 16)).floor.toNat, p - 16)

/-! ## §3 Layout -/

/-- Digits without the zeros at their end, and the exponent that goes with them. -/
def dropZeros (digits : List Char) (q : Int) : List Char × Int :=
  let kept := (digits.reverse.dropWhile (· == '0')).reverse
  (kept, q + (digits.length - kept.length : Nat))

/-- The digits of `digits · 10^q` with a point where one is needed. -/
def place (digits : List Char) (q : Int) : List Char :=
  if 0 ≤ q then digits ++ List.replicate q.toNat '0'
  else
    let k := (-q).toNat
    let n := digits.length
    if k < n then digits.take (n - k) ++ '.' :: digits.drop (n - k)
    else ['0', '.'] ++ List.replicate (k - n) '0' ++ digits

/-- The text of a number, with a point only where there is a fraction. -/
def positional (x : Float) : String :=
  match x.toModel.unpack with
  | .notANumber => "NaN"
  | .infinity .positive => "inf"
  | .infinity .negative => "-inf"
  | .zero .positive => "0"
  | .zero .negative => "-0"
  | .finite sign m e _ =>
    let (d, q) := (Span.of m e).shortest
    let (digits, q) := dropZeros (Nat.toDigits 10 d) q
    let mark := match sign with
      | .positive => []
      | .negative => ['-']
    String.ofList (mark ++ place digits q)

/-- The text of a number, with a point in every finite one. -/
def pointed (x : Float) : String :=
  let text := positional x
  if x.isFinite && ! text.toList.contains '.' then text ++ ".0" else text

end Quicklook.Decimal
