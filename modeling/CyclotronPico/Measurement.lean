import CyclotronPico.BinaryRounding
import CyclotronPico.ReadRegisters

/-!
# The accuracy of the measured current

The average of five samples goes through ten roundings before it is truncated
to an integer. Each moves it by at most a part in `2^23`, whatever the mode of
the format, so the reading is the truncated mean of the samples, except that
a mean which is an integer may come out one too low. The set point that a
cycle under local control copies is off by little more than one step.
-/

namespace CyclotronPico.Measurement

open BitBuffer BitFields FloatRounding BinaryRounding Supply200A SupplyCycle ReadRegisters

/-! ### Truncation -/

/-- The conversion of a value in range drops the fraction. -/
theorem toUint16_floor {x : ℚ} (h0 : 0≤x) (h : x<65536) :
    (((toUint16 x).toNat : ℕ) : ℚ)≤x ∧ x<(toUint16 x).toNat+1 := by
  have hf0 : 0≤⌊x⌋ := Int.floor_nonneg.mpr h0
  have hlt : ⌊x⌋<65536 := Int.floor_lt.mpr (by exact_mod_cast h)
  obtain ⟨n,hn⟩ := Int.eq_ofNat_of_zero_le hf0
  have hvalue : (toUint16 x).toNat=n := by
    rw [toUint16,if_pos h0,hn,BitVec.ofInt_natCast,BitVec.toNat_ofNat]
    omega
  have hle := Int.floor_le x
  have hnext := Int.lt_floor_add_one x
  rw [hn,Int.cast_natCast] at hle hnext
  rw [hvalue]
  exact ⟨hle,hnext⟩

/-! ### Ten roundings -/

/-- A part of a number in which the last place of single precision lies. -/
def floatPart : ℚ := 1/2^23

variable {fp : FloatUnit}

/-- Twelve roundings or fewer move a number by less than thirteen parts. -/
theorem within_close {k : ℕ} (hk : k≤12) {x y : ℚ} (h : Within floatPart k x y) :
    x-x*(13/2^23)≤y ∧ y≤x+x*(13/2^23) := by
  have h0 : (0 : ℚ)≤floatPart := by norm_num [floatPart]
  have h1 : floatPart≤1 := by norm_num [floatPart]
  obtain ⟨hx,hlow,hhigh⟩ := h.mono h0 h1 hk
  have hdown : 1-13/2^23≤(1-floatPart)^12 := by norm_num [floatPart]
  have hup : (1+floatPart)^12≤1+13/2^23 := by norm_num [floatPart]
  constructor
  · calc x-x*(13/2^23)=(1-13/2^23)*x := by ring
      _≤(1-floatPart)^12*x := mul_le_mul_of_nonneg_right hdown hx
      _≤y := hlow
  · calc y≤(1+floatPart)^12*x := hhigh
      _≤(1+13/2^23)*x := mul_le_mul_of_nonneg_right hup hx
      _=x+x*(13/2^23) := by ring

/-- The sum of the samples of a cycle that starts with answer `n`, as
integers. -/
def sampleSum (reply : ℕ → Vector Byte 6) (n : ℕ) : ℕ → ℕ
  | 0 => 0
  | k+1 => sampleSum reply n k+rawOf (reply (n+k))

/-- Twelve bits a sample. -/
theorem sampleSum_le (reply : ℕ → Vector Byte 6) (n k : ℕ) : sampleSum reply n k≤4095*k := by
  induction k with
  | zero => exact le_rfl
  | succ k ih =>
    have hraw := rawOf_le (reply (n+k))
    rw [sampleSum]
    omega

/-- Both formats are at least as accurate as single precision in any mode. -/
structure Accurately (fp : FloatUnit) : Prop where
  /-- Single precision. -/
  float : Accurate fp.float floatPart
  /-- Double precision. -/
  double : Accurate fp.double floatPart

/-- Rounding to the nearest number is. -/
theorem ieee_accurately : Accurately ieee where
  float := (binary_accurate 24 le_rfl).mono (by norm_num [floatPart])
  double := (binary_accurate 53 (by decide)).mono (by norm_num [floatPart])

/-- After a cycle the average is that of its five samples. -/
theorem cycle_average (fp : FloatUnit) (p : PowerSupply200A) :
    (safeCommunicationWithPS fp p).avrgCurrent=averaged fp p.psSpi.reply p.psSpi.sent.length := by
  rw [safeCommunicationWithPS_eq]
  split <;> rfl

section Accurate

variable (ha : Accurately fp)

include ha

/-- One more rounding in single precision. -/
theorem within_float {k : ℕ} {x y : ℚ} (h : Within floatPart k x y) :
    Within floatPart (k+1) x (fp.float.round y) :=
  h.round (by norm_num [floatPart]) (by norm_num [floatPart]) ha.float

/-- A sample is rounded twice. -/
theorem measured_within (answer : Vector Byte 6) :
    Within floatPart 2 (200*rawOf answer/4095) (measured fp answer) := by
  have hstart : Within floatPart 0 (((200*rawOf answer : ℕ) : ℚ)/((4095 : ℕ) : ℚ))
      (((200*rawOf answer : ℕ) : ℚ)/((4095 : ℕ) : ℚ)) := .refl _ (by positivity)
  have hdouble := hstart.round (by norm_num [floatPart]) (by norm_num [floatPart]) ha.double
  have hfloat := within_float ha hdouble
  rw [measured_eq]
  push_cast at hfloat ⊢
  exact hfloat

/-- A running sum is rounded once more for each sample. -/
theorem summed_within (reply : ℕ → Vector Byte 6) (n k : ℕ) :
    Within floatPart (k+2) (200*sampleSum reply n k/4095) (summed fp reply n k) := by
  have h0 : (0 : ℚ)≤floatPart := by norm_num [floatPart]
  have h1 : floatPart≤1 := by norm_num [floatPart]
  induction k with
  | zero =>
    have hzero : (200*sampleSum reply n 0/4095 : ℚ)=0 := by
      rw [sampleSum,Nat.cast_zero,mul_zero,zero_div]
    rw [hzero]
    exact (Within.refl floatPart le_rfl).mono h0 h1 (Nat.zero_le 2)
  | succ k ih =>
    have hsample := (measured_within ha (reply (n+k))).mono h0 h1 (Nat.le_add_left 2 k)
    have hsum := within_float ha (ih.add hsample)
    have hexact : (200*sampleSum reply n (k+1)/4095 : ℚ)=
        200*sampleSum reply n k/4095+200*rawOf (reply (n+k))/4095 := by
      rw [sampleSum]
      push_cast
      ring
    rw [hexact]
    exact hsum

/-- The average is rounded eight times. -/
theorem averaged_within (reply : ℕ → Vector Byte 6) (n : ℕ) :
    Within floatPart 8 (200*sampleSum reply n 5/20475) (averaged fp reply n) := by
  have hscale := (summed_within ha reply n 5).scale (by norm_num : (0 : ℚ)≤1/5)
  have hround := within_float ha hscale
  have hexact : (200*sampleSum reply n 5/20475 : ℚ)=1/5*(200*sampleSum reply n 5/4095) := by ring
  have hdiv : 1/5*summed fp reply n 5=summed fp reply n 5/(5 : ℕ) := by
    push_cast
    ring
  rw [hdiv] at hround
  rw [averaged,hexact]
  exact hround

/-- The conversion to the unit of a field rounds twice. -/
theorem scaled_within {k len : ℕ} (hlen : len≤24) {p : PowerSupply200A} {x : ℚ}
    (h : Within floatPart k x p.avrgCurrent) :
    Within floatPart (k+2) (x*(2^len-1 : ℕ)/200) (avrgCurrentScaled fp p len) := by
  have hproduct := within_float ha (h.scale (Nat.cast_nonneg (2^len-1)))
  have hquotient := within_float ha (hproduct.scale (by norm_num : (0 : ℚ)≤1/200))
  have hexact : x*(2^len-1 : ℕ)/200=1/200*((2^len-1 : ℕ)*x) := by ring
  have hdiv : ∀ z : ℚ,1/200*z=z/(psMaxCurrent : ℕ) := fun z => by
    rw [psMaxCurrent]
    push_cast
    ring
  rw [avrgCurrentScaled,maxPossibleValue_eq fp hlen,hexact,mul_comm p.avrgCurrent,←hdiv]
  exact hquotient

/-! ### The reading -/

/-- The reading after a cycle is close to the mean of its samples. -/
theorem reading_close (p : PowerSupply200A) :
    let mean : ℚ := sampleSum p.psSpi.reply p.psSpi.sent.length 5/5
    mean-mean*(13/2^23)≤avrgCurrentScaled fp (safeCommunicationWithPS fp p) psCurrentLen ∧
      avrgCurrentScaled fp (safeCommunicationWithPS fp p) psCurrentLen ≤ mean+mean*(13/2^23) := by
  intro mean
  have haverage := averaged_within ha p.psSpi.reply p.psSpi.sent.length
  rw [←cycle_average] at haverage
  have hscaled := scaled_within ha (by decide : psCurrentLen≤24) haverage
  have hmean : (200*sampleSum p.psSpi.reply p.psSpi.sent.length 5/20475 : ℚ)*
      (2^psCurrentLen-1 : ℕ)/200=mean := by
    have hfield : ((2^psCurrentLen-1 : ℕ) : ℚ)=4095 := by
      have hnat : 2^psCurrentLen-1=4095 := rfl
      rw [hnat]
      norm_num
    rw [hfield]
    ring
  rw [hmean] at hscaled
  exact within_close (by decide) hscaled

/-- The reading after a cycle is the truncated mean of its samples, or one
less when the mean is an integer. -/
theorem reading_mean (p : PowerSupply200A) :
    let sum := sampleSum p.psSpi.reply p.psSpi.sent.length 5
    let current := (readCurrent fp (safeCommunicationWithPS fp p)).toNat
    current=sum/5 ∨ sum%5=0 ∧ current+1=sum/5 := by
  intro sum current
  obtain ⟨hlow,hhigh⟩ := reading_close ha p
  have hbounds : AverageBounds (safeCommunicationWithPS fp p) := by
    rw [AverageBounds,cycle_average]
    exact averaged_mem fp _ _
  obtain ⟨h0,hfield⟩ := scaled_mem fp hbounds (by decide : psCurrentLen≤16)
  have hsmall : avrgCurrentScaled fp (safeCommunicationWithPS fp p) psCurrentLen<65536 := by
    have hnat : ((2^psCurrentLen-1 : ℕ) : ℚ)<65536 := by
      have hfield : 2^psCurrentLen-1=4095 := rfl
      rw [hfield]
      norm_num
    exact hfield.trans_lt hnat
  obtain ⟨hle,hlt⟩ := toUint16_floor h0 hsmall
  change ((current : ℕ) : ℚ)≤_ at hle
  change _<((current : ℕ) : ℚ)+1 at hlt
  have hsum : sum≤20475 := sampleSum_le _ _ 5
  have hsumq : (sum : ℚ)≤20475 := by exact_mod_cast hsum
  have hsum0 : (0 : ℚ) ≤ sum := Nat.cast_nonneg sum
  -- the error is far below the fifth of a unit by which two means differ
  have habove : (5*current : ℚ)<sum+1 := by
    change _≤(sum : ℚ)/5+(sum : ℚ)/5*(13/2^23) at hhigh
    linarith
  have hbelow : (sum : ℚ)<5*current+6 := by
    change (sum : ℚ)/5-(sum : ℚ)/5*(13/2^23)≤_ at hlow
    linarith
  have hup : 5*current<sum+1 := by exact_mod_cast habove
  have hdown : sum<5*current+6 := by exact_mod_cast hbelow
  omega

end Accurate

/-! ### Set points from a current -/

/-- A current in ampere in the unit of the set point. -/
def currentConvert (fp : FloatUnit) (crr : ℚ) : Word :=
  toUint16 (fp.float.round
    (fp.float.round (crr*maxPossibleValue fp psOUTCurrentLen)/psMaxCurrent))

/-- A value of a floating-point type. -/
inductive FloatValue where
  /-- Not a number. -/
  | nan
  /-- An infinity. -/
  | infinite (negative : Bool)
  /-- A number. -/
  | finite (x : ℚ)

/-- Whether a value is less than another; what is not a number never is, nor
is anything less than it. -/
def FloatValue.lt : FloatValue → FloatValue → Bool
  | nan,_ | _,nan => false
  | infinite a,infinite b => a && !b
  | infinite a,finite _ => a
  | finite _,infinite b => !b
  | finite x,finite y => decide (x<y)

/-- A value times a positive one that divides by a positive one, both rounded. -/
def FloatValue.scale (fp : FloatUnit) (num den : ℚ) : FloatValue → FloatValue
  | nan => nan
  | infinite a => infinite a
  | finite x => finite (fp.float.round (fp.float.round (x*num)/den))

/-- The conversion to `uint16_t`; of what is not a finite number the language
promises nothing. -/
def FloatValue.toWord (undefined : Word) : FloatValue → Word
  | finite x => toUint16 x
  | nan | infinite _ => undefined

/-- Command a current given in ampere; out of range it is refused. -/
def setCurrentFloat (fp : FloatUnit) (undefined : Word) (p : PowerSupply200A) (crr : FloatValue) :
    ℤ×PowerSupply200A :=
  if (FloatValue.finite psMaxCurrent).lt crr=true ∨ crr.lt (.finite 0)=true then (-1,p)
  else
    let val := (crr.scale fp (maxPossibleValue fp psOUTCurrentLen) psMaxCurrent).toWord undefined
    (1,setCurrent p val)

/-- A cycle under local control copies its average. -/
theorem copied_eq (p : PowerSupply200A) :
    copied fp p=currentConvert fp (averaged fp p.psSpi.reply p.psSpi.sent.length) := rfl

/-- The full scale of the set point. -/
theorem setPoint_scale : ((2^psOUTCurrentLen-1 : ℕ) : ℚ)=65535 := by
  have hnat : 2^psOUTCurrentLen-1=65535 := rfl
  rw [hnat]
  norm_num

/-- A current in range is converted without leaving the range of the set point. -/
theorem converted_mem (fp : FloatUnit) {crr : ℚ} (h0 : 0≤crr) (hmax : crr≤200) :
    let p : PowerSupply200A := {PowerSupply200A.init (fun _ => Vector.replicate 6 0#8) with
      avrgCurrent := crr}
    0≤avrgCurrentScaled fp p psOUTCurrentLen ∧ avrgCurrentScaled fp p psOUTCurrentLen<65536 ∧
      currentConvert fp crr=toUint16 (avrgCurrentScaled fp p psOUTCurrentLen) := by
  intro p
  have hbounds : AverageBounds p := ⟨h0,hmax.trans_eq (by norm_num)⟩
  obtain ⟨hlow,hhigh⟩ := scaled_mem fp hbounds (by decide : psOUTCurrentLen≤16)
  rw [setPoint_scale] at hhigh
  exact ⟨hlow,hhigh.trans_lt (by norm_num),rfl⟩

/-- A set point is off by little more than the step that truncation drops. -/
theorem converted_close (ha : Accurately fp) {k : ℕ} (hk : k≤10) {x crr : ℚ}
    (h : Within floatPart k x crr) (hx : x≤200) (h0 : 0≤crr) (hmax : crr≤200) :
    ((currentConvert fp crr).toNat : ℚ)≤x*65535/200+1/9 ∧
      x*65535/200<(currentConvert fp crr).toNat+1+1/9 := by
  obtain ⟨hlow,hhigh,hconvert⟩ := converted_mem fp h0 hmax
  obtain ⟨hle,hlt⟩ := toUint16_floor hlow hhigh
  rw [←hconvert] at hle hlt
  have hscaled := scaled_within ha (by decide : psOUTCurrentLen≤24)
    (p:={PowerSupply200A.init (fun _ => Vector.replicate 6 0#8) with avrgCurrent := crr}) h
  rw [setPoint_scale] at hscaled
  obtain ⟨hdown,hup⟩ := within_close (by omega) hscaled
  have hfull : x*65535/200≤65535 := by linarith
  constructor <;> linarith

/-- The set point that a cycle under local control copies is that of the mean
of its samples up to little more than one step. -/
theorem copied_close (ha : Accurately fp) (p : PowerSupply200A) :
    let sum := sampleSum p.psSpi.reply p.psSpi.sent.length 5
    ((copied fp p).toNat : ℚ) ≤ sum*65535/20475+1/9 ∧
      (sum*65535/20475 : ℚ)<(copied fp p).toNat+1+1/9 := by
  intro sum
  have hsum : sum≤20475 := sampleSum_le _ _ 5
  have hsumq : (sum : ℚ)≤20475 := by exact_mod_cast hsum
  have hmean : (200*sum/20475 : ℚ)≤200 := by linarith
  obtain ⟨h0,hmax⟩ := averaged_mem fp p.psSpi.reply p.psSpi.sent.length
  have hclose := converted_close ha (by decide) (averaged_within ha p.psSpi.reply
    p.psSpi.sent.length) hmean h0 (hmax.trans_eq (by norm_num))
  have hexact : (200*sum/20475 : ℚ)*65535/200=sum*65535/20475 := by ring
  rw [←copied_eq,hexact] at hclose
  exact hclose

/-- What a cycle measures, in every state of the driver, for every answers of
the supply and every rounding mode: the current of a read is the truncated
mean of the five samples, or one less when the mean is an integer; and under
local control the set point left in the frame is that of the mean, up to
little more than one step. -/
theorem cycle_measures (ha : Accurately fp) (p : PowerSupply200A) :
    let sum := sampleSum p.psSpi.reply p.psSpi.sent.length 5
    let next := safeCommunicationWithPS fp p
    let current := (registerAt (ModbusServer.readRegisters (powerSupply200A fp) next) 0).toNat%2^12
    (current=sum/5 ∨ sum%5=0 ∧ current+1=sum/5) ∧
      (remoteFifth p=false → ((setPoint next.psBufOut).toNat : ℚ) ≤ sum*65535/20475+1/9 ∧
        (sum*65535/20475 : ℚ)<(setPoint next.psBufOut).toNat+1+1/9) := by
  intro sum next current
  have hbounds : AverageBounds next := by
    rw [AverageBounds,cycle_average]
    exact averaged_mem fp _ _
  have hcurrent : current=(readCurrent fp next).toNat :=
    (encodes_of_bounded (supply200A_bounded fp hbounds)).current
  rw [hcurrent]
  refine ⟨reading_mean ha p,fun hlocal => ?_⟩
  have hnext : next=mirroredState fp p := by
    refine (safeCommunicationWithPS_eq fp p).trans (if_neg ?_)
    rw [hlocal]
    exact Bool.false_ne_true
  rw [hnext,mirroredState_setPoint]
  exact copied_close ha p

/-- A supply that always measures full scale under local control. -/
theorem cycle_measures_full :
    let p := PowerSupply200A.init fun _ => #v[0#8,255#8,255#8,0#8,0#8,0#8]
    let sum := sampleSum p.psSpi.reply p.psSpi.sent.length 5
    let next := safeCommunicationWithPS ieee p
    let current :=
      (registerAt (ModbusServer.readRegisters (powerSupply200A ieee) next) 0).toNat%2^12
    (current=sum/5 ∨ sum%5=0 ∧ current+1=sum/5) ∧
      ((setPoint next.psBufOut).toNat : ℚ) ≤ sum*65535/20475+1/9 ∧
        (sum*65535/20475 : ℚ)<(setPoint next.psBufOut).toNat+1+1/9 := by
  intro p
  have h := cycle_measures ieee_accurately p
  exact ⟨h.1,h.2 (by decide)⟩

/-- Rounding to the nearest number, five samples of 67 are read as 66. -/
example : (readCurrent ieee (safeCommunicationWithPS ieee
    (PowerSupply200A.init fun _ => #v[0#8,67#8,0#8,0#8,0#8,0#8]))).toNat=66 := by
  decide +kernel

/-- A larger current never gives a smaller set point. -/
theorem currentConvert_mono {crr more : ℚ} (h0 : 0≤crr) (hle : crr ≤ more) (hmax : more≤200) :
    (currentConvert fp crr).toNat ≤ (currentConvert fp more).toNat := by
  obtain ⟨hlow,hhigh,hconvert⟩ := converted_mem fp h0 (hle.trans hmax)
  obtain ⟨hlow',hhigh',hconvert'⟩ := converted_mem fp (h0.trans hle) hmax
  have hfloor := (toUint16_floor hlow hhigh).1
  have hnext := (toUint16_floor hlow' hhigh').2
  have hscaled : fp.float.round (fp.float.round
        (crr*maxPossibleValue fp psOUTCurrentLen)/psMaxCurrent)≤
      fp.float.round (fp.float.round (more*maxPossibleValue fp psOUTCurrentLen)/psMaxCurrent) := by
    rw [maxPossibleValue_eq fp (by decide)]
    refine fp.float.monotone (div_le_div_of_nonneg_right (fp.float.monotone ?_)
      (Nat.cast_nonneg _))
    exact mul_le_mul_of_nonneg_right hle (Nat.cast_nonneg _)
  rw [←hconvert] at hfloor
  rw [←hconvert'] at hnext
  have hbetween := hfloor.trans_lt (lt_of_le_of_lt hscaled hnext)
  exact Nat.lt_succ_iff.mp (by exact_mod_cast hbetween)

/-- A set point that is commanded is in an armed frame. -/
theorem setCurrent_armed (p : PowerSupply200A) (val : Word) :
    bitAt (setCurrent p val).psBufOut 21=true ∧ bitAt (setCurrent p val).psBufOut 23=true ∧
      setPoint (setCurrent p val).psBufOut=val := by
  have hout : (setCurrent p val).psBufOut=
      setUint (confirm true p.psBufOut) val psOUTCurrentPos psOUTCurrentLen true := rfl
  refine ⟨?_,?_,?_⟩
  · rw [hout,setUint_other _ _ (by decide),confirm_bit,if_pos (.inl rfl)]
  · rw [hout,setUint_other _ _ (by decide),confirm_bit,if_pos (.inr rfl)]
  · rw [hout,setPoint_setUint]

/-- The largest current. -/
theorem psMaxCurrent_cast : (psMaxCurrent : ℚ)=200 := by norm_num [psMaxCurrent]

/-- A number in range is commanded. -/
theorem setCurrentFloat_commands (fp : FloatUnit) (undefined : Word) (p : PowerSupply200A) {x : ℚ}
    (h0 : 0≤x) (hmax : x≤200) :
    setCurrentFloat fp undefined p (.finite x)=(1,setCurrent p (currentConvert fp x)) := by
  refine if_neg (not_or.mpr ⟨?_,?_⟩)
  · exact fun h => absurd (of_decide_eq_true h) (by rw [psMaxCurrent_cast]; exact hmax.not_gt)
  · exact fun h => absurd (of_decide_eq_true h) h0.not_gt

/-- A number out of range is refused. -/
theorem setCurrentFloat_refuses (fp : FloatUnit) (undefined : Word) (p : PowerSupply200A) {x : ℚ}
    (h : x<0 ∨ 200<x) : setCurrentFloat fp undefined p (.finite x)=(-1,p) := by
  refine if_pos ?_
  rcases h with hlow | hhigh
  · exact .inr (decide_eq_true hlow)
  · exact .inl (decide_eq_true (by rw [psMaxCurrent_cast]; exact hhigh))

/-- A value that the supply refuses: an infinity or a number out of range. -/
def Refused : FloatValue → Prop
  | .nan => False
  | .infinite _ => True
  | .finite x => x<0 ∨ 200<x

/-- A current given in ampere as a floating-point value. The infinities and
the numbers out of range are refused and change nothing. What is not a number
passes the check and arms the frame with whatever its conversion gives. Every
other number leaves an armed frame whose set point is that of the current, up
to little more than one step, and a larger current never gives a smaller set
point. -/
theorem setCurrentFloat_close (ha : Accurately fp) (undefined : Word) (p : PowerSupply200A)
    (crr : FloatValue) :
    (Refused crr ∧ setCurrentFloat fp undefined p crr=(-1,p)) ∨
    ¬Refused crr ∧ (setCurrentFloat fp undefined p crr).1=1 ∧
      let out := (setCurrentFloat fp undefined p crr).2.psBufOut
      bitAt out 21=true ∧ bitAt out 23=true ∧ (crr=.nan → setPoint out=undefined) ∧
      ∀ x,crr=.finite x →
        ((setPoint out).toNat : ℚ)≤x*65535/200+1/9 ∧ x*65535/200<(setPoint out).toNat+1+1/9 ∧
        ∀ q more,x ≤ more → more≤200 → (setPoint out).toNat ≤
          (setPoint (setCurrentFloat fp undefined q (.finite more)).2.psBufOut).toNat := by
  cases crr with
  | nan =>
    have hset : setCurrentFloat fp undefined p .nan=(1,setCurrent p undefined) := rfl
    obtain ⟨hfirst,hsecond,hpoint⟩ := setCurrent_armed p undefined
    rw [hset]
    exact .inr ⟨id,rfl,hfirst,hsecond,fun _ => hpoint,fun x hx => nomatch hx⟩
  | infinite negative =>
    refine .inl ⟨trivial,?_⟩
    cases negative <;> rfl
  | finite x =>
    by_cases hrange : x<0 ∨ 200<x
    · exact .inl ⟨hrange,setCurrentFloat_refuses fp undefined p hrange⟩
    · obtain ⟨h0,hmax⟩ := not_or.mp hrange
      rw [not_lt] at h0 hmax
      obtain ⟨hfirst,hsecond,hpoint⟩ := setCurrent_armed p (currentConvert fp x)
      obtain ⟨hle,hlt⟩ := converted_close ha (Nat.zero_le 10) (.refl floatPart h0) hmax h0 hmax
      rw [setCurrentFloat_commands fp undefined p h0 hmax]
      refine .inr ⟨hrange,rfl,hfirst,hsecond,fun h => (nomatch h),?_⟩
      rintro _ ⟨⟩
      dsimp only
      rw [hpoint]
      refine ⟨hle,hlt,fun q more hmore hmore' => ?_⟩
      rw [setCurrentFloat_commands fp undefined q (h0.trans hmore) hmore',
        (setCurrent_armed q _).2.2]
      exact currentConvert_mono h0 hmore hmore'

/-- Rounding to the nearest number, a hundred ampere are commanded, more than
two hundred are refused, and what is not a number arms the frame. -/
theorem setCurrentFloat_close_hundred :
    let p := PowerSupply200A.init fun _ => Vector.replicate 6 0#8
    let out := (setCurrentFloat ieee 7#16 p (.finite 100)).2.psBufOut
    (bitAt out 21=true ∧ ((setPoint out).toNat : ℚ)≤100*65535/200+1/9 ∧
      100*65535/200<((setPoint out).toNat : ℚ)+1+1/9) ∧
    setCurrentFloat ieee 7#16 p (.finite 201)=(-1,p) ∧
    setPoint (setCurrentFloat ieee 7#16 p .nan).2.psBufOut=7#16 := by
  intro p out
  have hundred := (setCurrentFloat_close ieee_accurately 7#16 p (.finite 100)).resolve_left
    (fun h => absurd h.1 (by norm_num [Refused]))
  have hover := (setCurrentFloat_close ieee_accurately 7#16 p (.finite 201)).resolve_right
    (fun h => h.1 (by norm_num [Refused]))
  have hnan := (setCurrentFloat_close ieee_accurately 7#16 p .nan).resolve_left (fun h => h.1)
  obtain ⟨_,_,hfirst,_,_,hnumber⟩ := hundred
  obtain ⟨hle,hlt,_⟩ := hnumber 100 rfl
  exact ⟨⟨hfirst,hle,hlt⟩,hover.2,hnan.2.2.2.2.1 rfl⟩

end CyclotronPico.Measurement
