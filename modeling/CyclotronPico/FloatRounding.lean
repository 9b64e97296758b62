import Mathlib.Algebra.Order.Floor.Ring
import Mathlib.Data.Rat.Floor
import Mathlib.Tactic.Linarith

/-!
# Monotone roundings of exact rational operations

A floating-point operation is the exact rational operation followed by a
rounding. All that is asked of a rounding is that it keeps order and leaves
integers of magnitude up to `2^24` alone, which every mode of a binary
format with a 24-bit significand does.
-/

namespace CyclotronPico.FloatRounding

/-- A rounding that keeps order and is exact on small integers. -/
structure Rounding where
  /-- The rounded value. -/
  round : ℚ → ℚ
  /-- Order is kept. -/
  monotone : Monotone round
  /-- Integers that fit the significand are left alone. -/
  exact : ∀ k : ℤ,|k|≤2^24 → round k=k

/-- Arithmetic without any rounding error, one admissible rounding. -/
def exactRounding : Rounding := ⟨id,monotone_id,fun _ _ => rfl⟩

/-- The two formats in which the firmware computes. -/
structure FloatUnit where
  /-- Rounding of single precision. -/
  float : Rounding
  /-- Rounding of double precision. -/
  double : Rounding

/-- Both formats computing exactly. -/
def exactUnit : FloatUnit := ⟨exactRounding,exactRounding⟩

namespace Rounding

variable (r : Rounding)

/-- Natural numbers that fit the significand are left alone. -/
theorem round_natCast {k : ℕ} (hk : k≤2^24) : r.round (k : ℚ)=k := by
  have he := r.exact k (by rw [abs_of_nonneg (Int.natCast_nonneg k)]; exact_mod_cast hk)
  simpa only [Int.cast_natCast] using he

/-- Rounding does not cross an integer that fits the significand from below. -/
theorem round_le {x : ℚ} {k : ℕ} (hk : k≤2^24) (hx : x≤k) : r.round x≤k :=
  (r.monotone hx).trans_eq (r.round_natCast hk)

/-- Rounding does not cross an integer that fits the significand from above. -/
theorem le_round {x : ℚ} {k : ℕ} (hk : k≤2^24) (hx : (k : ℚ)≤x) : (k : ℚ) ≤ r.round x :=
  (r.round_natCast hk).symm.trans_le (r.monotone hx)

/-- A value in `[0,k]` stays there. -/
theorem round_mem {x : ℚ} {k : ℕ} (hk : k≤2^24) (h0 : 0≤x) (hx : x≤k) :
    0 ≤ r.round x ∧ r.round x≤k := by
  refine ⟨?_,r.round_le hk hx⟩
  have hz := r.le_round (k:=0) (Nat.zero_le _) (by exact_mod_cast h0)
  exact_mod_cast hz

end Rounding

/-- The conversion of a float to `uint16_t`: the fraction is dropped; out of
range the language promises nothing and the model keeps the low bits. -/
def toUint16 (x : ℚ) : BitVec 16 := BitVec.ofInt 16 (if 0≤x then ⌊x⌋ else ⌈x⌉)

/-- The conversion to `uint16_t` is defined when the truncated value fits. -/
def InRange (x : ℚ) : Prop := -1<x ∧ x<2^16

/-- Conversion of a value between zero and a sixteen-bit bound keeps the bound. -/
theorem toUint16_le {x : ℚ} {k : ℕ} (hk : k<2^16) (h0 : 0≤x) (hx : x≤k) :
    (toUint16 x).toNat≤k ∧ InRange x := by
  have hf0 : 0≤⌊x⌋ := Int.floor_nonneg.mpr h0
  have hfk : ⌊x⌋≤(k : ℤ) := by
    have hle : (⌊x⌋ : ℚ)≤k := (Int.floor_le x).trans hx
    exact_mod_cast hle
  obtain ⟨f,hf⟩ := Int.eq_ofNat_of_zero_le hf0
  have hkq : (k : ℚ)<2^16 := by exact_mod_cast hk
  refine ⟨?_,by linarith,by linarith⟩
  rw [toUint16,if_pos h0,hf,BitVec.ofInt_natCast,BitVec.toNat_ofNat]
  omega

/-- Conversion of a sixteen-bit natural number gives it back. -/
theorem toUint16_natCast (k : ℕ) : toUint16 (k : ℚ)=BitVec.ofNat 16 k := by
  rw [toUint16,if_pos (Nat.cast_nonneg k),Int.floor_natCast,BitVec.ofInt_natCast]

end CyclotronPico.FloatRounding
