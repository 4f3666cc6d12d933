import StackCode.Number.Binary

namespace StackCode.Number

inductive Tie where
  | up
  | even
deriving DecidableEq, Repr

/-- The decimal `0.d₁d₂d₃… * 10 ^ point`. -/
structure Decimal where
  digits : List Char
  point : Int
deriving DecidableEq, Repr

/-- The exact value of a code, and the two ends of the interval of reals that round to it, as
integers: the value counts units of `10 ^ -places`, the ends count half units. -/
structure Interval where
  value : Nat
  low : Nat
  high : Nat
  closed : Bool

def Format.interval (format : Format) (code : Nat) : Interval :=
  let here := format.units code
  let scale := Nat.pow 5 format.places
  { value := here * scale
    low := (format.units (code - 1) + here) * scale
    high := (here + format.units (code + 1)) * scale
    closed := code % 2 == 0 }

/-- Does the interval hold the decimal `n`, counted in units of `10 ^ -places`? -/
def Interval.holds (i : Interval) (n : Nat) : Bool :=
  if i.closed then i.low ≤ 2 * n && 2 * n ≤ i.high else i.low < 2 * n && 2 * n < i.high

/-- The multiple of `unit` that lies in the interval next to its value, the nearer one of two. -/
def Interval.hit (i : Interval) (tie : Tie) (unit : Nat) : Option Nat :=
  let below := i.value / unit
  match i.holds (below * unit), i.holds ((below + 1) * unit) with
  | false, false => none
  | true, false => some below
  | false, true => some (below + 1)
  | true, true =>
    let double := 2 * (i.value % unit)
    if double < unit then some below
    else if unit < double then some (below + 1)
    else match tie with
      | .up => some (below + 1)
      | .even => some (below + below % 2)

def dropTrailingZeros (digits : List Char) : List Char :=
  (digits.reverse.dropWhile (· == '0')).reverse

/-- The first decimal grid with a hit gives the shortest digits; on the finest one the value hits
itself. -/
def Finite.shortest {format : Format} (x : Finite format) (tie : Tie) : Decimal :=
  if x.code = 0 then ⟨['0'], 1⟩
  else
    let i := format.interval x.code
    let size := decimalSize i.value
    let found := (List.range size).findSome? fun n =>
      (i.hit tie (Nat.pow 10 (size - n - 1))).map fun hit => (hit, size - n - 1)
    let (hit, cut) := found.getD (i.value, 0)
    let digits := Nat.toDigits 10 hit
    ⟨dropTrailingZeros digits, (digits.length + cut : Int) - format.places⟩

structure Layout where
  positional : Option (Int × Int)
  fraction : Bool
  plus : Bool
  tie : Tie

def Layout.listing : Layout := ⟨some (-4, 15), true, false, .up⟩

def Layout.plain : Layout := ⟨none, false, false, .up⟩

def Layout.document : Layout := ⟨some (-5, 15), true, true, .even⟩

def zeros (n : Nat) : List Char := List.replicate n '0'

def Layout.writePositional (layout : Layout) (d : Decimal) : List Char :=
  match d.point with
  | .negSucc n => ['0', '.'] ++ zeros (n + 1) ++ d.digits
  | .ofNat 0 => ['0', '.'] ++ d.digits
  | .ofNat point =>
    if d.digits.length ≤ point then
      d.digits ++ zeros (point - d.digits.length) ++ if layout.fraction then ['.', '0'] else []
    else d.digits.take point ++ ['.'] ++ d.digits.drop point

def Layout.writeExponent (layout : Layout) (exponent : Int) : List Char :=
  let sign := if layout.plus ∧ 0 < exponent then ['+'] else []
  'e' :: (sign ++ (toString exponent).toList)

def Layout.writeScientific (layout : Layout) (d : Decimal) : List Char :=
  let exponent := layout.writeExponent (d.point - 1)
  match d.digits with
  | lead :: rest@(_ :: _) => lead :: '.' :: (rest ++ exponent)
  | digits => digits ++ exponent

def Layout.writeDecimal (layout : Layout) (d : Decimal) : List Char :=
  match layout.positional with
  | some (least, most) =>
    if d.digits ≠ ['0'] ∧ (d.point - 1 < least ∨ most < d.point - 1) then
      layout.writeScientific d
    else layout.writePositional d
  | none => layout.writePositional d

def signText (negative : Bool) : String := if negative then "-" else ""

def Finite.write {format : Format} (x : Finite format) (layout : Layout) : String :=
  signText x.negative ++ String.ofList (layout.writeDecimal (x.shortest layout.tie))

def Rounded.write {format : Format} (x : Rounded format) (layout : Layout) : String :=
  match x with
  | .finite value => value.write layout
  | .infinite negative => signText negative ++ "inf"

end StackCode.Number
