namespace StackCode.Number

structure Format where
  fraction : Nat
  places : Nat
  finite : Nat

def Format.double : Format := ⟨52, 1074, 2047 * Nat.pow 2 52⟩

def Format.single : Format := ⟨23, 149, 255 * Nat.pow 2 23⟩

/-- The magnitude with a given code, in units of the smallest positive one. -/
def Format.units (format : Format) (code : Nat) : Nat :=
  let leading := Nat.pow 2 format.fraction
  let exponent := code / leading
  if exponent = 0 then code else (leading + code % leading) * Nat.pow 2 (exponent - 1)

/-- A quotient rounded to the nearest natural number, a half to the even one. -/
def roundHalfEven (num den : Nat) : Nat :=
  let quotient := num / den
  let double := 2 * (num % den)
  if double < den then quotient
  else if den < double then quotient + 1
  else quotient + quotient % 2

def Format.nearest (format : Format) (num den : Nat) : Nat :=
  let scaled := num * Nat.pow 2 format.places
  let shift := (scaled / den).log2 - format.fraction
  shift * Nat.pow 2 format.fraction + roundHalfEven scaled (den * Nat.pow 2 shift)

/-- A finite value of a format. The two zeros differ. -/
structure Finite (format : Format) where
  negative : Bool
  code : Nat
  code_lt : code < format.finite
deriving DecidableEq, Repr

abbrev Double := Finite .double

def Finite.zero {format : Format} (positive : 0 < format.finite := by decide) : Finite format :=
  ⟨false, 0, positive⟩

def Finite.sameValue {format : Format} (x y : Finite format) : Bool :=
  x.code == y.code && (x.negative == y.negative || x.code == 0)

inductive Rounded (format : Format) where
  | finite (value : Finite format)
  | infinite (negative : Bool)
deriving DecidableEq, Repr

def Format.round (format : Format) (negative : Bool) (num den : Nat) : Rounded format :=
  let code := format.nearest num den
  if h : code < format.finite then .finite ⟨negative, code, h⟩ else .infinite negative

def Finite.round {format : Format} (target : Format) (x : Finite format) : Rounded target :=
  target.round x.negative (format.units x.code) (Nat.pow 2 format.places)

def Format.zero (format : Format) (negative : Bool) : Rounded format := format.round negative 0 1

def decimalSize (n : Nat) : Nat := (Nat.toDigits 10 n).length

/-- The value nearest to `digits * 10 ^ exponent`. Far beyond both ends of a format the answer is
clear without raising ten to the exponent. -/
def Format.ofDecimal (format : Format) (negative : Bool) (digits : Nat) (exponent : Int) :
    Rounded format :=
  let top := exponent + decimalSize digits
  if digits = 0 || top < -(format.places : Int) then format.zero negative
  else if (format.places : Int) < top then .infinite negative
  else match exponent with
    | .ofNat e => format.round negative (digits * Nat.pow 10 e) 1
    | .negSucc e => format.round negative digits (Nat.pow 10 (e + 1))

end StackCode.Number
