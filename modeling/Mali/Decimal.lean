/-!
# Decimal text of large counts

A count that is reported as a binary floating point number is first rounded to 53 significant bits
(`nearestDouble`, ties to even).  If the rounded number still fits a signed 64-bit word it is
written as an integer; past that it is written with the fewest significant digits that round back
to it (`shortest`), in scientific notation.

* `nearestDouble`: mantissa and binary exponent of the nearest double.
* `shortest`: the decimal with the fewest digits that rounds to a double, the nearest of those.
* `doubleText`: the text of a count.
* `decimalText`: the text of a decimal that was read as a double.
-/

namespace Mali

/-- The mantissa `m` and exponent `q` of the double `m * 2 ^ q` nearest to `n`, where `m` has at
most 53 bits and ties go to the even mantissa. -/
def nearestDouble (n : Nat) : Nat × Nat :=
  let q := n.log2 + 1 - 53
  let unit := 1 <<< q
  let m := n / unit
  let r := n % unit
  let m := if unit < 2 * r ∨ (2 * r = unit ∧ m % 2 = 1) then m + 1 else m
  if m = 1 <<< 53 then (1 <<< 52, q + 1) else (m, q)

/-- Whether a number rounds to the double `m * 2 ^ q`.  The gap below a power of two is half as
wide as the one above, and the ends of the interval belong to even mantissas. -/
def roundsTo (m q x : Nat) : Bool :=
  let v := 4 * (m <<< q)
  let lo := v - (if m = 1 <<< 52 ∧ 0 < q then 1 <<< q else 2 <<< q)
  let hi := v + 2 <<< q
  if m % 2 = 0 then lo ≤ 4 * x && 4 * x ≤ hi else lo < 4 * x && 4 * x < hi

/-- The neighbour of `v` on the grid of multiples of `unit` that rounds to the double, the nearer
one if both do. -/
def gridNeighbour? (m q unit : Nat) : Option Nat :=
  let v := m <<< q
  let below := v / unit * unit
  let above := below + unit
  match roundsTo m q below, roundsTo m q above with
  | true, true => some (if above - v < v - below then above else below)
  | true, false => some below
  | false, true => some above
  | false, false => none

/-- The first hit on grids that get finer. -/
def firstHit (m q : Nat) : (exponent : Nat) → Nat
  | 0 => m <<< q
  | exponent + 1 => (gridNeighbour? m q (Nat.pow 10 (exponent + 1))).getD (firstHit m q exponent)

/-- The number with the fewest significant digits that rounds to `m * 2 ^ q`. -/
def shortest (m q : Nat) : Nat :=
  firstHit m q ((Nat.toDigits 10 (m <<< q)).length - 1)

/-- The number with the fewest significant digits that rounds to the same double as a quotient of at
least `2 ^ 53`.  A remainder counts as half a unit, which is enough to tell on which side of a tie
the quotient lies. -/
def shortestQuotient (n d : Nat) : Nat :=
  let (m, q) := nearestDouble (2 * (n / d) + if n % d = 0 then 0 else 1)
  shortest m (q - 1)

/-- The digits of a number without trailing zeros. -/
def significant (n : Nat) : List Char :=
  ((Nat.toDigits 10 n).reverse.dropWhile (· == '0')).reverse

/-- Scientific notation, with a point after the first digit if more follow, and an exponent of at
least two digits. -/
def scientific (n : Nat) : String :=
  let exponent := (Nat.toDigits 10 n).length - 1
  let exponentText := (if exponent < 10 then "0" else "") ++ toString exponent
  let mantissa :=
    match significant n with
    | [] => "0"
    | [d] => String.ofList [d]
    | d :: ds => String.ofList (d :: '.' :: ds)
  mantissa ++ "e+" ++ exponentText

/-- The text of a count as a double. -/
def doubleText (n : Nat) : String :=
  let (m, q) := nearestDouble n
  let v := m <<< q
  if v < 1 <<< 63 then toString v else scientific (shortest m q)

/-- The text of the double nearest to `v / 10 ^ places`.  Scientific notation begins at `10 ^ 21`. -/
def decimalText (v : Int) (places : Nat) : String :=
  let n := v.natAbs
  let unit := Nat.pow 10 places
  let digits :=
    if unit <<< 53 ≤ n then
      let whole := shortestQuotient n unit
      if Nat.pow 10 21 ≤ whole then scientific whole else toString whole
    else if n % unit = 0 then toString (n / unit)
    else
      let fraction := Nat.toDigits 10 (n % unit)
      let zeros := List.replicate (places - fraction.length) '0'
      toString (n / unit) ++ "." ++ String.ofList (zeros ++ fraction)
  if v < 0 then "-" ++ digits else digits

end Mali
