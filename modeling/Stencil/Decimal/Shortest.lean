/-!
# The shortest decimal of a binary number

A finite binary64 number stands for the reals that round to it. Among the decimals in that interval
one has the fewest digits, and of several the nearest to the number is taken. All comparisons are
made exactly: every binary64 number and the ends of its interval are whole multiples of
`10 ^ -1076`, so after scaling the search is one over natural numbers.

## Main definitions

* `Decimal`: digits and an exponent
* `Interval`: a number with the ends of the interval that rounds to it, scaled
* `Interval.shortest`: its shortest decimal
* `Layout`: how a decimal is laid out as text
-/

namespace Stencil

/-- A decimal: `digits * 10 ^ exponent`. -/
structure Decimal where
  digits : Nat
  exponent : Int
deriving Repr, DecidableEq

namespace Decimal

/-- A number and the ends of the interval of reals that round to it, in units of `10 ^ -1076`; the
ends belong to the interval if `closed` holds. -/
structure Interval where
  low : Nat
  value : Nat
  high : Nat
  closed : Bool
deriving Repr, DecidableEq

namespace Interval

/-- The interval of the finite number with the given bits, sign apart. The gap below a power of two
is half as wide as the gap above it, except at the bottom of the range. -/
def ofBits (bits : UInt64) : Interval :=
  let exponent := ((bits >>> 52) &&& 0x7FF).toNat
  let fraction := (bits &&& 0xFFFFFFFFFFFFF).toNat
  let mantissa := if exponent = 0 then fraction else Nat.pow 2 52 + fraction
  let scale := Nat.pow 2 (exponent - 1) * Nat.pow 5 1076
  { low := (4 * mantissa - if fraction = 0 ∧ 1 < exponent then 1 else 2) * scale
    value := 4 * mantissa * scale
    high := (4 * mantissa + 2) * scale
    closed := mantissa % 2 = 0 }

/-- Whether a scaled number lies in the interval. -/
def contains (i : Interval) (n : Nat) : Bool :=
  if i.closed then i.low ≤ n && n ≤ i.high else i.low < n && n < i.high

/-- The multiple of `grid` in the interval that is nearest to the value, as a factor: one of the
value's two neighbours. A tie goes up if `tiesUp` holds and to the even factor otherwise. -/
def nearest? (i : Interval) (tiesUp : Bool) (grid : Nat) : Option Nat :=
  let below := i.value / grid
  let above := below + 1
  match i.contains (below * grid), i.contains (above * grid) with
  | false, false => none
  | true, false => some below
  | false, true => some above
  | true, true =>
    match compare (2 * i.value) ((below + above) * grid) with
    | .lt => some below
    | .gt => some above
    | .eq => some (if tiesUp || below % 2 = 1 then above else below)

/-- Moves the zeros at the end of the digits into the exponent; `limit` bounds their number. -/
def stripZeros (limit : Nat) (d : Decimal) : Decimal :=
  match limit with
  | 0 => d
  | limit + 1 =>
    if d.digits ≠ 0 ∧ d.digits % 10 = 0 then
      stripZeros limit ⟨d.digits / 10, d.exponent + 1⟩
    else d

/-- The greatest power of ten that is at most a positive number, if it is below `2 ^ bits`: its
binary digits are found from the highest down. -/
def leadingPower : Nat → Nat → Nat
  | 0, _ => 0
  | bits + 1, n =>
    let step := Nat.pow 2 bits
    let scale := Nat.pow 10 step
    if scale ≤ n then step + leadingPower bits (n / scale) else leadingPower bits n

/-- The decimal with the fewest digits in the interval: grids of one digit, two digits and so on
are tried in turn. Seventeen digits always suffice; the exact value stands behind them. -/
def shortest (i : Interval) (tiesUp : Bool) : Decimal :=
  let leading := leadingPower 11 i.value
  let found := (List.range 17).findSome? fun n =>
    let place := leading - n
    (i.nearest? tiesUp (Nat.pow 10 place)).map fun digits =>
      (⟨digits, (place : Int) - 1076⟩ : Decimal)
  stripZeros 20 (found.getD ⟨i.value, -1076⟩)

end Interval

/-- How numbers are laid out as text. -/
structure Layout where
  /-- The decimal exponents that are written without an exponent part, from `plainFrom` up to but
  not including `plainBelow`; all of them if there is no range. -/
  plain : Option (Int × Int)
  /-- Whether whole numbers keep a digit after the point. -/
  keepsPoint : Bool
  /-- Whether the greater of two equally near decimals is taken, rather than the even one. -/
  tiesUp : Bool
deriving Repr, DecidableEq

namespace Layout

/-- The digits of a decimal with the point in place. -/
def positional (layout : Layout) (digits : List Char) (exponent : Int) : List Char :=
  let size : Int := digits.length
  if 0 ≤ exponent then
    digits ++ List.replicate exponent.toNat '0' ++ if layout.keepsPoint then ['.', '0'] else []
  else if 0 < size + exponent then
    let whole := (size + exponent).toNat
    digits.take whole ++ '.' :: digits.drop whole
  else '0' :: '.' :: List.replicate (-(size + exponent)).toNat '0' ++ digits

/-- The digits of a decimal with an exponent part, one digit before the point. -/
def scientific (digits : List Char) (leading : Int) : List Char :=
  let fraction := digits.drop 1
  let point := if fraction.isEmpty then [] else '.' :: fraction
  let sign := if leading < 0 then '-' else '+'
  digits.take 1 ++ point ++ 'e' :: sign :: Nat.toDigits 10 leading.natAbs

/-- The text of a decimal other than zero. -/
def ofDecimal (layout : Layout) (d : Decimal) : List Char :=
  let digits := Nat.toDigits 10 d.digits
  let leading := (digits.length : Int) - 1 + d.exponent
  match layout.plain with
  | none => layout.positional digits d.exponent
  | some (low, high) =>
    if low ≤ leading ∧ leading < high then layout.positional digits d.exponent
    else scientific digits leading

/-- The text of a finite number. Zero keeps its sign. -/
def text (layout : Layout) (x : Float) : String :=
  let bits := x.toBits
  let magnitude := bits &&& 0x7FFFFFFFFFFFFFFF
  let sign := if bits = magnitude then [] else ['-']
  let digits :=
    if magnitude = 0 then layout.positional ['0'] 0
    else layout.ofDecimal ((Interval.ofBits magnitude).shortest layout.tiesUp)
  String.ofList (sign ++ digits)

end Layout

end Decimal

end Stencil
