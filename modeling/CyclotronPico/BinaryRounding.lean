import CyclotronPico.FloatRounding
import Mathlib.Data.Int.Log
import Mathlib.Tactic.Ring
import Mathlib.Tactic.Positivity

/-!
# Rounding to the nearest binary number

The number with a significand of `p` bits that is nearest to a rational, ties
to the even significand, with an exponent of any size: the operations of a
binary format as long as they neither overflow nor leave the normal numbers.
A rounding moves a number by a small part of it, and several roundings in
sequence move it by a few such parts, whatever is added or scaled between
them.
-/

namespace CyclotronPico.BinaryRounding

open FloatRounding

/-! ### The nearest integer -/

/-- The nearest integer, ties to the even one. -/
def halfEven (q : ℚ) : ℤ :=
  if 2*(q-⌊q⌋)<1 then ⌊q⌋
  else if 1<2*(q-⌊q⌋) then ⌊q⌋+1
  else if ⌊q⌋%2=0 then ⌊q⌋ else ⌊q⌋+1

/-- Below the middle the nearest integer is the one below. -/
theorem halfEven_below {q : ℚ} (h : 2*(q-⌊q⌋)<1) : halfEven q=⌊q⌋ := if_pos h

/-- Above the middle it is the one above. -/
theorem halfEven_above {q : ℚ} (h : 1<2*(q-⌊q⌋)) : halfEven q=⌊q⌋+1 := by
  rw [halfEven,if_neg h.le.not_gt,if_pos h]

/-- In the middle it is the even one. -/
theorem halfEven_middle {q : ℚ} (h : 2*(q-⌊q⌋)=1) :
    halfEven q=if ⌊q⌋%2=0 then ⌊q⌋ else ⌊q⌋+1 := by
  rw [halfEven,if_neg h.not_lt,if_neg h.not_gt]

/-- The nearest integer is the one below or the one above. -/
theorem halfEven_mem (q : ℚ) : ⌊q⌋≤halfEven q ∧ halfEven q≤⌊q⌋+1 := by
  rcases lt_trichotomy (2*(q-⌊q⌋)) 1 with h | h | h
  · rw [halfEven_below h]
    omega
  · rw [halfEven_middle h]
    split <;> omega
  · rw [halfEven_above h]
    omega

/-- The nearest integer is at most one half away. -/
theorem abs_halfEven_sub (q : ℚ) : |halfEven q-q|≤1/2 := by
  have hfloor := Int.floor_le q
  have hnext := (Int.lt_floor_add_one q).le
  rcases lt_trichotomy (2*(q-⌊q⌋)) 1 with h | h | h
  · rw [halfEven_below h,abs_le]
    constructor <;> linarith
  · rw [halfEven_middle h,abs_le]
    split
    · constructor <;> linarith
    · push_cast
      constructor <;> linarith
  · rw [halfEven_above h,abs_le]
    push_cast
    constructor <;> linarith

/-- The nearest integer keeps order. -/
theorem halfEven_mono {x y : ℚ} (hxy : x≤y) : halfEven x≤halfEven y := by
  rcases (Int.floor_mono hxy).lt_or_eq with hlt | heq
  · have hx := (halfEven_mem x).2
    have hy := (halfEven_mem y).1
    omega
  -- within one unit the fractions decide
  have hfraction : 2*(x-⌊x⌋)≤2*(y-⌊y⌋) := by
    rw [heq]
    linarith
  rcases lt_trichotomy (2*(y-⌊y⌋)) 1 with hy | hy | hy
  · rw [halfEven_below hy,halfEven_below (hfraction.trans_lt hy),heq]
  · rw [halfEven_middle hy]
    rcases (hfraction.trans_eq hy).lt_or_eq with hx | hx
    · rw [halfEven_below hx]
      split <;> omega
    · rw [halfEven_middle hx,heq]
  · rw [halfEven_above hy,←heq]
    exact (halfEven_mem x).2

/-- An integer is its own nearest integer. -/
theorem halfEven_intCast (k : ℤ) : halfEven (k : ℚ)=k := by
  rw [halfEven,Int.floor_intCast,sub_self,mul_zero,if_pos one_pos]

/-! ### The nearest binary number -/

variable (p : ℕ)

/-- The distance of neighbouring numbers at a positive number. -/
def ulp (x : ℚ) : ℚ := 2^(Int.log 2 x-(p-1 : ℤ))

/-- A number without its sign, rounded. -/
def magnitude (x : ℚ) : ℚ := halfEven (x/ulp p x)*ulp p x

/-- The nearest number with a significand of `p` bits. -/
def nearest (x : ℚ) : ℚ := if 0≤x then magnitude p x else -magnitude p (-x)

/-- Neighbouring numbers are apart. -/
theorem ulp_pos (x : ℚ) : 0 < ulp p x := zpow_pos two_pos _

/-- A number that is a multiple of the distance is not moved. -/
theorem magnitude_of_multiple {x : ℚ} {n : ℤ} (h : x=n*ulp p x) : magnitude p x=x := by
  have hdiv : x/ulp p x=n := by
    rw [div_eq_iff (ulp_pos p x).ne']
    exact h
  rw [magnitude,hdiv,halfEven_intCast]
  exact h.symm

/-- A magnitude is not negative. -/
theorem magnitude_nonneg {x : ℚ} (hx : 0≤x) : 0 ≤ magnitude p x := by
  have hz : halfEven 0≤halfEven (x/ulp p x) := halfEven_mono (div_nonneg hx (ulp_pos p x).le)
  have hzero : halfEven ((0 : ℤ) : ℚ)=0 := halfEven_intCast 0
  rw [Int.cast_zero] at hzero
  rw [hzero] at hz
  exact mul_nonneg (Int.cast_nonneg hz) (ulp_pos p x).le

/-- A rounded magnitude stays between the powers of two around it. -/
theorem magnitude_bounds (hp : 1≤p) {x : ℚ} (hx : 0 < x) :
    2^(Int.log 2 x) ≤ magnitude p x ∧ magnitude p x≤2^(Int.log 2 x+1) := by
  have hu := ulp_pos p x
  have hlow : (2 : ℚ)^(Int.log 2 x)≤x := Int.zpow_log_le_self one_lt_two hx
  have hhigh : x<(2 : ℚ)^(Int.log 2 x+1) := Int.lt_zpow_succ_log_self one_lt_two x
  have hsplit : ∀ k : ℕ,((2^k : ℤ) : ℚ)*ulp p x=2^(k+(Int.log 2 x-(p-1 : ℤ))) := by
    intro k
    rw [zpow_add₀ two_ne_zero,zpow_natCast,ulp,Int.cast_pow,Int.cast_ofNat]
  have hbottom : ((2^(p-1) : ℤ) : ℚ)*ulp p x=2^(Int.log 2 x) := by
    rw [hsplit]
    congr 1
    omega
  have htop : ((2^p : ℤ) : ℚ)*ulp p x=2^(Int.log 2 x+1) := by
    rw [hsplit]
    congr 1
    omega
  constructor
  · have hmono : halfEven ((2^(p-1) : ℤ) : ℚ)≤halfEven (x/ulp p x) := by
      refine halfEven_mono ((le_div_iff₀ hu).mpr ?_)
      rw [hbottom]
      exact hlow
    rw [halfEven_intCast] at hmono
    rw [magnitude,←hbottom]
    exact mul_le_mul_of_nonneg_right (by exact_mod_cast hmono) hu.le
  · have hmono : halfEven (x/ulp p x)≤halfEven ((2^p : ℤ) : ℚ) := by
      refine halfEven_mono ((div_le_iff₀ hu).mpr ?_)
      rw [htop]
      exact hhigh.le
    rw [halfEven_intCast] at hmono
    rw [magnitude,←htop]
    exact mul_le_mul_of_nonneg_right (by exact_mod_cast hmono) hu.le

/-- Rounding magnitudes keeps order. -/
theorem magnitude_mono (hp : 1≤p) {x y : ℚ} (hx : 0≤x) (hxy : x≤y) :
    magnitude p x ≤ magnitude p y := by
  rcases hx.eq_or_lt with rfl | hpos
  · have hzero : magnitude p 0=0 := magnitude_of_multiple p (n:=0) (by rw [Int.cast_zero,zero_mul])
    rw [hzero]
    exact magnitude_nonneg p hxy
  rcases (Int.log_mono_right hpos hxy : Int.log 2 x≤Int.log 2 y).lt_or_eq with hlt | heq
  · -- the powers of two between them are numbers themselves
    have hbetween : (2 : ℚ)^(Int.log 2 x+1)≤2^(Int.log 2 y) :=
      zpow_le_zpow_right₀ one_le_two hlt
    exact (magnitude_bounds p hp hpos).2.trans
      (hbetween.trans (magnitude_bounds p hp (hpos.trans_le hxy)).1)
  · have hulp : ulp p x=ulp p y := by rw [ulp,ulp,heq]
    have hmono : halfEven (x/ulp p y)≤halfEven (y/ulp p y) :=
      halfEven_mono (div_le_div_of_nonneg_right hxy (ulp_pos p y).le)
    rw [magnitude,magnitude,hulp]
    exact mul_le_mul_of_nonneg_right (by exact_mod_cast hmono) (ulp_pos p y).le

/-- Rounding keeps order. -/
theorem nearest_mono (hp : 1≤p) : Monotone (nearest p) := by
  intro x y hxy
  rw [nearest,nearest]
  split
  · rename_i hx
    rw [if_pos (hx.trans hxy)]
    exact magnitude_mono p hp hx hxy
  · rename_i hx
    rw [not_le] at hx
    have hneg := magnitude_nonneg p (neg_nonneg.mpr hx.le)
    split
    · rename_i hy
      have hpos := magnitude_nonneg p hy
      linarith
    · rename_i hy
      rw [not_le] at hy
      exact neg_le_neg (magnitude_mono p hp (neg_nonneg.mpr hy.le) (neg_le_neg hxy))

/-- An integer that fits the significand is a magnitude. -/
theorem magnitude_natCast (hp : 1≤p) {k : ℕ} (hk : k≤2^p) : magnitude p (k : ℚ)=k := by
  have hlog : Int.log 2 (k : ℚ)=Nat.log 2 k := Int.log_natCast 2 k
  have hle : Nat.log 2 k≤p := by
    refine (Nat.log_mono_right hk).trans ?_
    rw [Nat.log_pow one_lt_two]
  rcases hle.lt_or_eq with hlt | heq
  · refine magnitude_of_multiple p (n:=k*2^(p-1-Nat.log 2 k)) ?_
    have hone : (2 : ℚ)^(p-1-Nat.log 2 k)*2^((Nat.log 2 k : ℤ)-(p-1 : ℤ))=1 := by
      rw [←zpow_natCast,←zpow_add₀ two_ne_zero]
      have hexp : ((p-1-Nat.log 2 k : ℕ) : ℤ)+((Nat.log 2 k : ℤ)-(p-1 : ℤ))=0 := by omega
      rw [hexp,zpow_zero]
    rw [ulp,hlog]
    push_cast
    rw [mul_assoc,hone,mul_one]
  · -- only the power of two itself has so many bits
    have hpow : k=2^p := by
      refine le_antisymm hk ?_
      rw [←heq]
      refine Nat.pow_log_le_self 2 ?_
      rintro rfl
      rw [Nat.log_zero_right] at heq
      omega
    refine magnitude_of_multiple p (n:=2^(p-1)) ?_
    rw [ulp,hlog,heq,hpow]
    push_cast
    rw [←zpow_natCast,←zpow_natCast,←zpow_add₀ two_ne_zero]
    congr 1
    omega

/-- An integer that fits the significand is not moved. -/
theorem nearest_intCast (hp : 1≤p) {k : ℤ} (hk : |k|≤2^p) : nearest p (k : ℚ)=k := by
  obtain ⟨n,rfl | rfl⟩ := Int.eq_nat_or_neg k
  · have hn : n≤2^p := by
      rw [abs_of_nonneg (Int.natCast_nonneg n)] at hk
      exact_mod_cast hk
    rw [nearest,Int.cast_natCast,if_pos (Nat.cast_nonneg n),magnitude_natCast p hp hn]
  · have hn : n≤2^p := by
      rw [abs_neg,abs_of_nonneg (Int.natCast_nonneg n)] at hk
      exact_mod_cast hk
    have hmag := magnitude_natCast p hp hn
    rw [nearest,Int.cast_neg,Int.cast_natCast]
    split
    · rename_i hsign
      have hzero : (n : ℚ)=0 := le_antisymm (by linarith) (Nat.cast_nonneg n)
      rw [hzero] at hmag ⊢
      rw [neg_zero]
      exact hmag
    · rw [neg_neg,hmag]

/-- A format that rounds to the nearest number. -/
def binary (hp : 24≤p) : Rounding where
  round := nearest p
  monotone := nearest_mono p (by omega)
  exact k hk := nearest_intCast p (by omega) (hk.trans (pow_le_pow_right₀ one_le_two hp))

/-- Single and double precision. -/
def ieee : FloatUnit := ⟨binary 24 le_rfl,binary 53 (by decide)⟩

/-! ### Accuracy -/

/-- A rounding moves a number by at most a part of it. -/
def Accurate (r : Rounding) (u : ℚ) : Prop := ∀ x,|r.round x-x|≤u*|x|

/-- A rounded magnitude is off by at most half a unit in the last place. -/
theorem magnitude_error {x : ℚ} (hx : 0≤x) : |magnitude p x-x|≤x/2^p := by
  have hu := ulp_pos p x
  have hdiff : magnitude p x-x=(halfEven (x/ulp p x)-x/ulp p x)*ulp p x := by
    rw [magnitude,sub_mul,div_mul_cancel₀ _ hu.ne']
  have hhalf : |magnitude p x-x|≤1/2*ulp p x := by
    rw [hdiff,abs_mul,abs_of_pos hu]
    exact mul_le_mul_of_nonneg_right (abs_halfEven_sub _) hu.le
  rcases hx.eq_or_lt with rfl | hpos
  · have hzero : magnitude p 0=0 := magnitude_of_multiple p (n:=0) (by rw [Int.cast_zero,zero_mul])
    rw [hzero,sub_zero,abs_zero,zero_div]
  · have hlow : (2 : ℚ)^(Int.log 2 x)≤x := Int.zpow_log_le_self one_lt_two hpos
    have hunit : 1/2*ulp p x=2^(Int.log 2 x)/2^p := by
      have hexp : Int.log 2 x-(p-1 : ℤ)=Int.log 2 x-p+1 := by ring
      rw [ulp,hexp,zpow_add_one₀ two_ne_zero,zpow_sub₀ two_ne_zero,zpow_natCast]
      ring
    rw [hunit] at hhalf
    exact hhalf.trans (div_le_div_of_nonneg_right hlow (by positivity))

/-- A format that rounds to the nearest number is accurate to its significand. -/
theorem binary_accurate (hp : 24≤p) : Accurate (binary p hp) (1/2^p) := by
  intro x
  have hround : (binary p hp).round x=nearest p x := rfl
  rw [hround,nearest,one_div_mul_eq_div]
  split
  · rename_i hx
    rw [abs_of_nonneg hx]
    exact magnitude_error p hx
  · rename_i hx
    rw [not_le] at hx
    have herror := magnitude_error p (neg_nonneg.mpr hx.le)
    rw [abs_of_neg hx,←abs_neg]
    have hneg : -(-magnitude p (-x)-x)=magnitude p (-x)-(-x) := by ring
    rw [hneg]
    exact herror

/-- What is accurate is accurate enough. -/
theorem Accurate.mono {r : Rounding} {u v : ℚ} (h : Accurate r u) (huv : u≤v) : Accurate r v :=
  fun x => (h x).trans (mul_le_mul_of_nonneg_right huv (abs_nonneg x))

/-! ### Several roundings -/

/-- A computed number is a number that is not negative, moved by some
roundings. -/
def Within (u : ℚ) (k : ℕ) (x y : ℚ) : Prop := 0≤x ∧ (1-u)^k*x≤y ∧ y≤(1+u)^k*x

section Within

variable {u : ℚ} (h0 : 0≤u) (h1 : u≤1) {k : ℕ} {x y x' y' : ℚ}

/-- Nothing is moved before the first rounding. -/
theorem Within.refl (u : ℚ) (hx : 0≤x) : Within u 0 x x :=
  ⟨hx,by rw [pow_zero,one_mul],by rw [pow_zero,one_mul]⟩

include h1 in
/-- What is moved does not become negative. -/
theorem Within.nonneg (h : Within u k x y) : 0≤y :=
  (mul_nonneg (pow_nonneg (sub_nonneg.mpr h1) k) h.1).trans h.2.1

include h0 h1 in
/-- One more rounding. -/
theorem Within.round {r : Rounding} (hr : Accurate r u) (h : Within u k x y) :
    Within u (k+1) x (r.round y) := by
  have hy := h.nonneg h1
  have herror := hr y
  rw [abs_of_nonneg hy,abs_le] at herror
  refine ⟨h.1,?_,?_⟩
  · calc (1-u)^(k+1)*x=(1-u)*((1-u)^k*x) := by ring
      _≤(1-u)*y := mul_le_mul_of_nonneg_left h.2.1 (sub_nonneg.mpr h1)
      _≤r.round y := by linarith [herror.1]
  · calc r.round y≤(1+u)*y := by linarith [herror.2]
      _≤(1+u)*((1+u)^k*x) := mul_le_mul_of_nonneg_left h.2.2 (by linarith)
      _=(1+u)^(k+1)*x := by ring

/-- Scaling. -/
theorem Within.scale (h : Within u k x y) {c : ℚ} (hc : 0≤c) : Within u k (c*x) (c*y) := by
  refine ⟨mul_nonneg hc h.1,?_,?_⟩
  · rw [mul_left_comm]
    exact mul_le_mul_of_nonneg_left h.2.1 hc
  · rw [mul_left_comm]
    exact mul_le_mul_of_nonneg_left h.2.2 hc

/-- Adding. -/
theorem Within.add (h : Within u k x y) (h' : Within u k x' y') :
    Within u k (x+x') (y+y') := by
  refine ⟨add_nonneg h.1 h'.1,?_,?_⟩
  · rw [mul_add]
    exact add_le_add h.2.1 h'.2.1
  · rw [mul_add]
    exact add_le_add h.2.2 h'.2.2

include h0 h1 in
/-- More roundings allow for more. -/
theorem Within.mono {n : ℕ} (h : Within u k x y) (hkn : k≤n) : Within u n x y := by
  refine ⟨h.1,(mul_le_mul_of_nonneg_right ?_ h.1).trans h.2.1,
    h.2.2.trans (mul_le_mul_of_nonneg_right ?_ h.1)⟩
  · exact pow_le_pow_of_le_one (sub_nonneg.mpr h1) (by linarith) hkn
  · exact pow_le_pow_right₀ (by linarith) hkn

end Within

end CyclotronPico.BinaryRounding
