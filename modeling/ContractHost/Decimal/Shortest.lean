import ContractHost.Decimal.Digits

/-!
# Shortest decimals

The fewest decimal digits that read back as a given binary number.  A positive double is
`m * 2 ^ q`; the decimals that read back as it fill an interval around it, whose ends belong to it
exactly if `m` is even.  For one digit, two digits and so on, the two neighbours of the number on
the grid of decimals of that length are tried, in exact arithmetic; the first grid with a hit wins,
and of two hits the nearer, or the even one if both are equally near.
-/

namespace ContractHost.Decimal

/-- The interval of the numbers that are nearest to `value / unit`: all three points are in
`unit`-ths, and `closed` says whether the ends belong to it. -/
structure Rounding where
  unit : Nat
  low : Nat
  value : Nat
  high : Nat
  closed : Bool

namespace Rounding

/-- The interval of `m * 2 ^ q`.  Where `m` is the least mantissa, the numbers below lie twice as
dense. -/
def ofBinary (m : Nat) (q : Int) (least : Bool) : Rounding :=
  let up := Nat.pow 2 (q - 2).toNat
  { unit := Nat.pow 2 (2 - q).toNat
    low := (4 * m - if least then 1 else 2) * up
    value := 4 * m * up
    high := (4 * m + 2) * up
    closed := m % 2 = 0 }

/-- The leading bit of the mantissa of a double, which its bits leave out. -/
def leadingBit : Nat := 0x10000000000000

/-- The interval of a positive finite double, by its bits. -/
def ofBits (bits : UInt64) : Rounding :=
  let e := (bits >>> 52).toNat % 2048
  let f := bits.toNat % leadingBit
  if e = 0 then ofBinary f (-1074) false
  else ofBinary (leadingBit + f) (e - 1075) (f = 0 && 1 < e)

/-- Whether `c * 10 ^ k` lies in the interval. -/
def contains (r : Rounding) (c : Nat) (k : Int) : Bool :=
  let point := c * Nat.pow 10 k.toNat * r.unit
  let scale := Nat.pow 10 (-k).toNat
  if r.closed then r.low * scale ≤ point && point ≤ r.high * scale
  else r.low * scale < point && point < r.high * scale

/-- The number divided by `10 ^ k`, rounded down, and how twice the remainder compares with the
divisor. -/
def floorAt (r : Rounding) (k : Int) : Nat × Ordering :=
  let num := r.value * Nat.pow 10 (-k).toNat
  let den := r.unit * Nat.pow 10 k.toNat
  (num / den, compare (2 * (num % den)) den)

/-- The neighbour of the number on the grid of multiples of `10 ^ k` that reads back as it. -/
def candidate? (r : Rounding) (k : Int) : Option Nat :=
  let (c, side) := r.floorAt k
  match r.contains c k, r.contains (c + 1) k with
  | false, false => none
  | true, false => some c
  | false, true => some (c + 1)
  | true, true =>
    match side with
    | .lt => some c
    | .gt => some (c + 1)
    | .eq => some (if c % 2 = 0 then c else c + 1)

/-- The power of ten of the first digit of the number. -/
def leadingExponent (r : Rounding) : Int :=
  if r.unit ≤ r.value then (digits (r.value / r.unit)).length - 1
  else -(below 400 1 : Nat)
where
  /-- The least power by which the number must be multiplied to reach one. -/
  below : Nat → Nat → Nat
    | 0, j => j
    | fuel + 1, j => if r.unit ≤ r.value * Nat.pow 10 j then j else below fuel (j + 1)

/-- The first grid with a hit, from `n` digits on: a whole number and the power of ten it counts. -/
def shortestFrom (r : Rounding) (lead : Int) : (fuel n : Nat) → Nat × Int
  | 0, n =>
    let k := lead - n + 1
    ((r.floorAt k).1, k)
  | fuel + 1, n =>
    let k := lead - n + 1
    match r.candidate? k with
    | some c => (c, k)
    | none => shortestFrom r lead fuel (n + 1)

/-- The fewest digits that read back as the number, and the power of ten of the last of them. -/
def shortest (r : Rounding) : Nat × Int := r.shortestFrom r.leadingExponent 17 1

end Rounding

/-- Drops zeros at the end of a list of digits, and raises the power of ten by their number. -/
def trimZeros (ds : List Nat) (k : Int) : List Nat × Int :=
  let zeros := (ds.reverse.takeWhile (· == 0)).length
  (ds.take (ds.length - zeros), k + zeros)

/-- The digits of the shortest decimal of a positive finite double, and the power of ten of the
first of them. -/
def shortestDigits (bits : UInt64) : List Nat × Int :=
  let (c, k) := (Rounding.ofBits bits).shortest
  let (ds, k) := trimZeros (digits c) k
  (ds, k + ds.length - 1)

end ContractHost.Decimal
