import Mathlib
import StackCode.Json.Document

namespace StackCode

namespace Number

variable {format : Format}

theorem roundHalfEven_mul {n den : Nat} (positive : 0 < den) : roundHalfEven (n * den) den = n := by
  rw [roundHalfEven, Nat.mul_div_cancel n positive, Nat.mul_mod_left]
  exact if_pos positive

theorem Format.units_eq (format : Format) (exponent fraction : Nat) (low : fraction < 2 ^ format.fraction) :
    format.units ((exponent + 1) * 2 ^ format.fraction + fraction) =
      (2 ^ format.fraction + fraction) * 2 ^ exponent := by
  have leading : 0 < 2 ^ format.fraction := Nat.two_pow_pos _
  have quotient : ((exponent + 1) * 2 ^ format.fraction + fraction) / 2 ^ format.fraction = exponent + 1 := by
    rw [Nat.add_comm, Nat.add_mul_div_right _ _ leading, Nat.div_eq_of_lt low, Nat.zero_add]
  have rest : ((exponent + 1) * 2 ^ format.fraction + fraction) % 2 ^ format.fraction = fraction := by
    rw [Nat.add_comm, Nat.add_mul_mod_self_right, Nat.mod_eq_of_lt low]
  unfold Format.units
  simp only [Nat.pow_eq, quotient, rest]
  simp

theorem log2_units {exponent fraction bits : Nat} (low : fraction < 2 ^ bits) :
    ((2 ^ bits + fraction) * 2 ^ exponent).log2 = bits + exponent := by
  have positive := Nat.two_pow_pos exponent
  rw [Nat.log2_eq_iff (by positivity)]
  constructor
  · rw [Nat.pow_add]
    exact Nat.mul_le_mul_right _ (Nat.le_add_right _ _)
  · have top : 2 ^ bits + fraction < 2 ^ (bits + 1) := by
      rw [Nat.pow_succ]
      omega
    calc (2 ^ bits + fraction) * 2 ^ exponent < 2 ^ (bits + 1) * 2 ^ exponent :=
          Nat.mul_lt_mul_of_pos_right top positive
      _ = 2 ^ (bits + exponent + 1) := by rw [← Nat.pow_add]; congr 1; omega

theorem Format.units_of_lt (format : Format) {code : Nat} (low : code < 2 ^ format.fraction) :
    format.units code = code := by
  unfold Format.units
  simp only [Nat.pow_eq, Nat.div_eq_of_lt low]
  rfl

theorem Format.exists_split (format : Format) {code : Nat} (high : 2 ^ format.fraction ≤ code) :
    ∃ exponent fraction, fraction < 2 ^ format.fraction ∧
      code = (exponent + 1) * 2 ^ format.fraction + fraction := by
  have leading : 0 < 2 ^ format.fraction := Nat.two_pow_pos _
  have quotient : 0 < code / 2 ^ format.fraction := Nat.div_pos high leading
  refine ⟨code / 2 ^ format.fraction - 1, code % 2 ^ format.fraction, Nat.mod_lt _ leading, ?_⟩
  rw [Nat.sub_add_cancel quotient, Nat.mul_comm]
  exact (Nat.div_add_mod code _).symm

theorem Format.nearest_of_units (format : Format) {num den : Nat} (code : Nat) (positive : 0 < den)
    (exactly : num * 2 ^ format.places = format.units code * den) : format.nearest num den = code := by
  unfold Format.nearest
  simp only [Nat.pow_eq, exactly, Nat.mul_div_cancel _ positive]
  by_cases low : code < 2 ^ format.fraction
  · have none : code.log2 - format.fraction = 0 := by
      rcases Nat.eq_zero_or_pos code with rfl | some
      · rw [Nat.log2_zero, Nat.zero_sub]
      · have bits := (Nat.log2_lt (Nat.ne_of_gt some)).mpr low
        omega
    rw [format.units_of_lt low, none, Nat.pow_zero, Nat.mul_one, Nat.zero_mul, Nat.zero_add]
    exact roundHalfEven_mul positive
  · obtain ⟨exponent, fraction, small, rfl⟩ := format.exists_split (Nat.le_of_not_lt low)
    rw [format.units_eq exponent fraction small, log2_units small, Nat.add_sub_cancel_left,
      Nat.mul_assoc, Nat.mul_comm (2 ^ exponent) den,
      roundHalfEven_mul (Nat.mul_pos positive (Nat.two_pow_pos _))]
    ring

/-- The decimal digits of a magnitude, written out to its last binary place. -/
def Finite.digits {format : Format} (x : Finite format) : Nat :=
  format.units x.code * 5 ^ format.places

theorem Finite.round_digits {format : Format} (x : Finite format) :
    format.round x.negative x.digits (10 ^ format.places) = .finite x := by
  have exactly : x.digits * 2 ^ format.places = format.units x.code * 10 ^ format.places := by
    rw [Finite.digits, Nat.mul_assoc, ← Nat.mul_pow]
  unfold Format.round
  simp only [format.nearest_of_units x.code (Nat.pow_pos (by decide)) exactly, x.code_lt, dite_true]

theorem Format.units_lt (format : Format) {code top : Nat} (bound : code < (top + 2) * 2 ^ format.fraction) :
    format.units code < 2 ^ (format.fraction + 1 + top) := by
  by_cases low : code < 2 ^ format.fraction
  · rw [format.units_of_lt low]
    exact low.trans_le (Nat.pow_le_pow_right (by decide) (by omega))
  · obtain ⟨exponent, fraction, small, rfl⟩ := format.exists_split (Nat.le_of_not_lt low)
    have few : exponent + 1 < top + 2 :=
      Nat.lt_of_mul_lt_mul_right ((Nat.le_add_right _ fraction).trans_lt bound)
    have mantissa : 2 ^ format.fraction + fraction < 2 ^ (format.fraction + 1) := by
      rw [Nat.pow_succ]
      omega
    rw [format.units_eq exponent fraction small, Nat.pow_add _ (format.fraction + 1)]
    exact Nat.mul_lt_mul_of_lt_of_le mantissa (Nat.pow_le_pow_right (by decide) (by omega))
      (Nat.two_pow_pos _)

theorem Finite.digits_lt {format : Format} {x : Finite format}
    (small : format.units x.code < 2 ^ (2 * format.places)) : x.digits < 10 ^ (2 * format.places) := by
  have tens : 2 ^ format.places ≤ 10 ^ format.places := Nat.pow_le_pow_left (by decide) _
  calc x.digits < 2 ^ (2 * format.places) * 5 ^ format.places :=
        Nat.mul_lt_mul_of_pos_right small (Nat.pow_pos (by decide))
    _ = 2 ^ format.places * 10 ^ format.places := by
      rw [Nat.two_mul, Nat.pow_add, Nat.mul_assoc, ← Nat.mul_pow]
    _ ≤ 10 ^ format.places * 10 ^ format.places := Nat.mul_le_mul_right _ tens
    _ = 10 ^ (2 * format.places) := by rw [Nat.two_mul, Nat.pow_add]

theorem Finite.ofDecimal_digits {format : Format} {last : Nat} (places : format.places = last + 1)
    (x : Finite format) (small : format.units x.code < 2 ^ (2 * format.places)) :
    format.ofDecimal x.negative x.digits (.negSucc last) = .finite x := by
  have size : decimalSize x.digits ≤ 2 * format.places :=
    Nat.toDigits_length 10 _ _ (by omega) (Finite.digits_lt small)
  have bottom : ¬ (Int.negSucc last + decimalSize x.digits < -(format.places : Int)) := by omega
  have top : ¬ ((format.places : Int) < Int.negSucc last + decimalSize x.digits) := by omega
  unfold Format.ofDecimal
  by_cases zero : x.digits = 0
  · have none : format.units x.code = 0 :=
      (Nat.mul_eq_zero.mp zero).resolve_right (Nat.ne_of_gt (Nat.pow_pos (by decide)))
    have code : format.nearest 0 1 = x.code := format.nearest_of_units x.code (by decide) (by simp [none])
    simp only [zero, decide_true, Bool.true_or, if_true, Format.zero, Format.round, code, x.code_lt,
      dite_true]
  · simp only [zero, bottom, top, decide_false, Bool.or_self, Bool.false_eq_true, if_false]
    rw [Nat.pow_eq, ← places]
    exact x.round_digits

end Number

namespace Json

open Number

def intNumeral (n : Int) : Numeral := ⟨n < 0, n.natAbs, 0, true⟩

theorem quantity_intNumeral {n : Int} (low : -0x8000000000000000 ≤ n) (high : n ≤ 0xffffffffffffffff) :
    (intNumeral n).quantity = some (.int n) := by
  by_cases negative : n < 0
  · have held : n.natAbs ≠ 0 ∧ n.natAbs ≤ 0x8000000000000000 := by omega
    have same : -(n.natAbs : Int) = n := by omega
    simp only [Numeral.quantity, intNumeral, negative, held, same, decide_true, Bool.true_and, if_true,
      ne_eq, not_false_eq_true]
  · have held : n.natAbs < 0x10000000000000000 := by omega
    have same : (n.natAbs : Int) = n := by omega
    simp only [Numeral.quantity, intNumeral, negative, held, same, decide_true, decide_false,
      Bool.true_and, if_true, Bool.false_eq_true, if_false]

def floatNumeral (x : Double) : Numeral := ⟨x.negative, x.digits, .negSucc 1073, false⟩

theorem float_of_ofDecimal {n : Numeral} {x : Double}
    (read : Format.double.ofDecimal n.negative n.digits n.exponent = .finite x) : n.float = some x := by
  rw [Numeral.float, read]

theorem float_floatNumeral (x : Double) : (floatNumeral x).float = some x := by
  have bound : x.code < (2045 + 2) * 2 ^ Format.double.fraction := x.code_lt
  have exponents : Format.double.fraction + 1 + 2045 ≤ 2 * Format.double.places := by decide
  have small : Format.double.units x.code < 2 ^ (2 * Format.double.places) :=
    (Format.double.units_lt bound).trans_le (Nat.pow_le_pow_right (by decide) exponents)
  have places : Format.double.places = 1073 + 1 := rfl
  exact float_of_ofDecimal (Finite.ofDecimal_digits places x small)

end Json

end StackCode
