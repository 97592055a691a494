/-!
# Shortest decimals

The fewest decimal digits that read back as a given floating-point number, and the text made of
them. The digits are found in exact arithmetic: on the grid of `n` digits the two neighbours of the
value are tried, for `n = 1, 2, …`, until one lies in the interval of reals that round to it.
-/

namespace DocTree.Number

/-- A positive floating-point number `m * 2 ^ q`; `narrow` tells that the gap below is half the gap
above. -/
structure Dyadic where
  m : Nat
  q : Int
  narrow : Bool
  deriving DecidableEq, Repr

/-- What a floating-point number is, its sign apart. -/
inductive Magnitude
  | nan
  | infinite
  | zero
  | finite (d : Dyadic)
  deriving DecidableEq, Repr

/-- The sign and the magnitude in the bits of a double. -/
def unpack (x : Float) : Bool × Magnitude :=
  let bits := x.toBits.toNat
  let neg := bits >>> 63 == 1
  let e : Nat := (bits >>> 52) % 2048
  let f : Nat := bits % 0x10000000000000
  if e == 2047 then (neg, if f == 0 then .infinite else .nan)
  else if e == 0 then (neg, if f == 0 then .zero else .finite ⟨f, -1074, false⟩)
  else (neg, .finite ⟨0x10000000000000 + f, e - 1075, f == 0 && e != 1⟩)

/-- Digits `d` in units of `10 ^ k`. -/
structure Decimal where
  d : Nat
  k : Int
  deriving DecidableEq, Repr

namespace Dyadic

/-- The number over a common denominator: below, value and above, where reals that round to it end. -/
def bounds (x : Dyadic) : Nat × Nat × Nat × Nat :=
  let up : Nat := 1 <<< (x.q - 2).toNat
  let den : Nat := 1 <<< (2 - x.q).toNat
  ((4 * x.m - if x.narrow then 1 else 2) * up, 4 * x.m * up, (4 * x.m + 2) * up, den)

/-- Whether a decimal, scaled to the same denominator, rounds to the number. -/
def takes (x : Dyadic) (lo hi c : Nat) : Bool :=
  if x.m % 2 == 0 then lo ≤ c && c ≤ hi else lo < c && c < hi

/-- Numerator and denominator scaled so that one unit of the numerator is `10 ^ k`. -/
def scale (k : Int) (den : Nat) : Nat × Nat :=
  (Nat.pow 10 (-k).toNat, den * Nat.pow 10 k.toNat)

/-- A decimal on the grid `10 ^ k` that rounds to the number, the nearest if there are two. -/
def onGrid? (x : Dyadic) (k : Int) : Option Decimal :=
  let (lo, v, hi, den) := x.bounds
  let (a, b) := scale k den
  let (lo, v, hi) := (lo * a, v * a, hi * a)
  let d := v / b
  let below := x.takes lo hi (d * b)
  let above := x.takes lo hi ((d + 1) * b)
  let down := v - d * b
  let up := (d + 1) * b - v
  if below && above then
    some ⟨if down < up || (down == up && d % 2 == 0) then d else d + 1, k⟩
  else if below && d != 0 then some ⟨d, k⟩
  else if above then some ⟨d + 1, k⟩
  else none

/-- How many digits stand before the decimal point; zero or less for numbers below a tenth. -/
def pointAfter (x : Dyadic) : Int :=
  let (_, v, _, den) := x.bounds
  if den ≤ v then (Nat.toDigits 10 (v / den)).length
  else 1 - ((Nat.toDigits 10 ((den - 1) / v)).length : Int)

/-- The shortest decimal that rounds to the number, tried with `n` and more digits. -/
def shortestFrom (x : Dyadic) (n : Nat) : (fuel : Nat) → Decimal
  | 0 => ⟨0, 0⟩
  | fuel + 1 => (x.onGrid? (x.pointAfter - n)).getD (shortestFrom x (n + 1) fuel)

def shortest (x : Dyadic) : Decimal := x.shortestFrom 1 18

end Dyadic

/-- Where positional notation ends: the point may stand after at most so many digits, and above
at least so many zeros. -/
structure Layout where
  most : Int
  least : Int
  exponentDigits : Nat

/-- Numbers are written out from `1e-4` up to below `1e16`, exponents with two digits or more. -/
def plainLayout : Layout := ⟨16, -4, 2⟩

/-- The digits of a positive decimal, without trailing zeros, and where its point stands. -/
def Decimal.digits (x : Decimal) : List Char × Int :=
  let ds := Nat.toDigits 10 x.d
  let kept := (ds.reverse.dropWhile (· == '0')).reverse
  (kept, ds.length + x.k)

/-- An exponent with its sign and at least `width` digits. -/
def exponentText (width : Nat) (e : Int) : List Char :=
  let ds := Nat.toDigits 10 e.natAbs
  'e' :: (if e < 0 then '-' else '+') :: (List.replicate (width - ds.length) '0' ++ ds)

def Decimal.text (n : Layout) (x : Decimal) : List Char :=
  let (ds, point) := x.digits
  if point ≤ n.least || n.most < point then
    match ds with
    | [] => []
    | d :: rest =>
      d :: ((if rest.isEmpty then [] else '.' :: rest) ++ exponentText n.exponentDigits (point - 1))
  else if point ≤ 0 then
    '0' :: '.' :: (List.replicate (-point).toNat '0' ++ ds)
  else
    let whole := ds.take point.toNat
    let fraction := ds.drop point.toNat
    whole ++ List.replicate (point.toNat - whole.length) '0'
      ++ '.' :: (if fraction.isEmpty then ['0'] else fraction)

/-- A floating-point number as text: the shortest that reads back. -/
def floatText (x : Float) : String :=
  let (neg, m) := unpack x
  let sign := if neg then "-" else ""
  match m with
  | .nan => "nan"
  | .infinite => sign ++ "inf"
  | .zero => sign ++ "0.0"
  | .finite d => sign ++ .ofList (d.shortest.text plainLayout)

def natText (n : Nat) : String := .ofList (Nat.toDigits 10 n)

/-- A number filled up with leading zeros to `width` digits. -/
def padNat (width n : Nat) : String :=
  let ds := Nat.toDigits 10 n
  .ofList (List.replicate (width - ds.length) '0' ++ ds)

def intText (i : Int) : String :=
  if i < 0 then "-" ++ natText i.natAbs else natText i.natAbs

end DocTree.Number
