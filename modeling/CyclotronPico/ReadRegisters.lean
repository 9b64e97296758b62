import CyclotronPico.ServerAnswers
import CyclotronPico.SubstituteSupply
import CyclotronPico.SupplyCycle

/-!
# The registers of a read answer

The server adds the fields of a register without masking them. No field runs
into the next because the readings are bounded, and the bounds hold in every
state that a supply can be brought into: of the 200 A supply because the
average of five samples, rounded at every step, stays between zero and full
scale; of the substitute supply because of the scaling.
-/

namespace CyclotronPico.ReadRegisters

open BitBuffer BitFields Effects FloatRounding Nanomodbus SupplyInterface ServerAnswers
  ModbusServer

variable {τ : Type}

/-! ### Fields of a register -/

/-- A register of an answer. -/
def registerAt (registers : Vector Word 125) (i : ℕ) : Word := registers.toList.getD i 0#16

/-- The two registers and the third hold what the supply reports. -/
structure Encodes (ps : PowerSupplyInterface τ) (p : τ) (registers : Vector Word 125) : Prop where
  /-- Bits 0 to 11 of the first register. -/
  current : (registerAt registers 0).toNat%2^12=(ps.readCurrent p).toNat
  /-- Bit 12. -/
  powerCircuit : (registerAt registers 0).getLsbD 12=ps.isPowerCircuitOn p
  /-- Bit 13. -/
  polarity : (registerAt registers 0).getLsbD 13=ps.readPolarity p
  /-- Bit 14. -/
  reset : (registerAt registers 0).getLsbD 14=ps.readReset p
  /-- Bit 15. -/
  remote : (registerAt registers 0).getLsbD 15=ps.isRemote p
  /-- Bits 0 to 11 of the second register. -/
  voltage : (registerAt registers 1).toNat%2^12=(ps.readVoltage p).toNat
  /-- Bits 12 and 13. -/
  errors : (registerAt registers 1).toNat/2^12%2^2=(ps.readErrors p).toNat
  /-- Bit 14. -/
  polaritySet : (registerAt registers 1).getLsbD 14=ps.getPolaritySet p
  /-- Bit 15. -/
  isOnSet : (registerAt registers 1).getLsbD 15=ps.getIsOnSet p
  /-- The third register. -/
  lastSet : registerAt registers 2=ps.getLastSetCurrent p

/-- The readings of a supply are as wide as their fields. -/
structure Bounded (ps : PowerSupplyInterface τ) (p : τ) : Prop where
  /-- Twelve bits of current. -/
  current : (ps.readCurrent p).toNat≤4095
  /-- Twelve bits of voltage. -/
  voltage : (ps.readVoltage p).toNat≤4095
  /-- Two bits of errors. -/
  errors : (ps.readErrors p).toNat≤3

/-- A field of twelve bits below a field of four. -/
theorem register_split {low high : ℕ} (hlow : low<2^12) (hhigh : high<2^4) :
    (BitVec.ofNat 16 (low+2^12*high)).toNat%2^12=low ∧
    (BitVec.ofNat 16 (low+2^12*high)).toNat/2^12=high ∧
    ∀ i,(BitVec.ofNat 16 (low+2^12*high)).getLsbD (12+i)=high.testBit i := by
  have hsum : (BitVec.ofNat 16 (low+2^12*high)).toNat=low+2^12*high := by
    rw [BitVec.toNat_ofNat]
    omega
  rw [hsum]
  refine ⟨by omega,by omega,?_⟩
  intro i
  have hbit := Nat.testBit_two_pow_mul_add high hlow (12+i)
  rw [BitVec.getLsbD,hsum,Nat.add_comm low,hbit,if_neg (by omega),Nat.add_sub_cancel_left]

/-- The flags of a register, one above the other. -/
theorem flags_bits (b0 b1 b2 b3 : Bool) :
    b0.toNat+2*b1.toNat+4*b2.toNat+8*b3.toNat<2^4 ∧
    (b0.toNat+2*b1.toNat+4*b2.toNat+8*b3.toNat).testBit 0=b0 ∧
    (b0.toNat+2*b1.toNat+4*b2.toNat+8*b3.toNat).testBit 1=b1 ∧
    (b0.toNat+2*b1.toNat+4*b2.toNat+8*b3.toNat).testBit 2=b2 ∧
    (b0.toNat+2*b1.toNat+4*b2.toNat+8*b3.toNat).testBit 3=b3 := by
  revert b0 b1 b2 b3
  decide

/-- Two flags of a register above two bits of errors. -/
theorem errors_bits {e : ℕ} (h : e<2^2) (b2 b3 : Bool) :
    e+4*b2.toNat+8*b3.toNat<2^4 ∧ (e+4*b2.toNat+8*b3.toNat)%2^2=e ∧
    (e+4*b2.toNat+8*b3.toNat).testBit 2=b2 ∧ (e+4*b2.toNat+8*b3.toNat).testBit 3=b3 := by
  revert b2 b3
  interval_cases e <;> decide

/-- Within the bounds no field runs into the next. -/
theorem encodes_of_bounded {ps : PowerSupplyInterface τ} {p : τ} (h : Bounded ps p) :
    Encodes ps p (readRegisters ps p) := by
  have hc := h.current
  have hv := h.voltage
  have he := h.errors
  have hfirst : registerAt (readRegisters ps p) 0=BitVec.ofNat 16 ((ps.readCurrent p).toNat+2^12*
      ((ps.isPowerCircuitOn p).toNat+2*(ps.readPolarity p).toNat+4*(ps.readReset p).toNat+
        8*(ps.isRemote p).toNat)) := by
    change currentRegister ps p=_
    rw [currentRegister]
    refine congrArg (BitVec.ofNat 16) ?_
    simp only [currentReadBits,Nat.shiftLeft_eq,Nat.reduceAdd,Nat.reducePow]
    omega
  have hsecond : registerAt (readRegisters ps p) 1=BitVec.ofNat 16 ((ps.readVoltage p).toNat+2^12*
      ((ps.readErrors p).toNat+4*(ps.getPolaritySet p).toNat+8*(ps.getIsOnSet p).toNat)) := by
    change voltageRegister ps p=_
    rw [voltageRegister]
    refine congrArg (BitVec.ofNat 16) ?_
    simp only [voltageReadBits,errorReadBits,Nat.shiftLeft_eq,Nat.reduceAdd,Nat.reducePow]
    omega
  obtain ⟨hflags,h0,h1,h2,h3⟩ := flags_bits (ps.isPowerCircuitOn p) (ps.readPolarity p)
    (ps.readReset p) (ps.isRemote p)
  obtain ⟨herrors,hmod,h4,h5⟩ := errors_bits (by omega : (ps.readErrors p).toNat<2^2)
    (ps.getPolaritySet p) (ps.getIsOnSet p)
  obtain ⟨hlow,_,hbits⟩ := register_split (by omega : (ps.readCurrent p).toNat<2^12) hflags
  obtain ⟨hlow',hhigh',hbits'⟩ := register_split (by omega : (ps.readVoltage p).toNat<2^12) herrors
  constructor
  · rw [hfirst,hlow]
  · rw [hfirst]
    exact (hbits 0).trans h0
  · rw [hfirst]
    exact (hbits 1).trans h1
  · rw [hfirst]
    exact (hbits 2).trans h2
  · rw [hfirst]
    exact (hbits 3).trans h3
  · rw [hsecond,hlow']
  · rw [hsecond,hhigh',hmod]
  · rw [hsecond]
    exact (hbits' 2).trans h4
  · rw [hsecond]
    exact (hbits' 3).trans h5
  · rfl

/-! ### Reachable supplies -/

/-- The states into which setting parameters and exchanging bring a supply. -/
inductive Reached (ps : PowerSupplyInterface τ) (start : τ) : τ → Prop where
  /-- The state after construction. -/
  | start : Reached ps start start
  /-- A parameter is set, or declined. -/
  | set {p : τ} (dataType : Byte) (value : Word) (h : Reached ps start p) :
      Reached ps start (ps.setStatus dataType value p).2
  /-- Set points and readings are exchanged. -/
  | exchanged {p : τ} (h : Reached ps start p) : Reached ps start (ps.safeCommunicationWithPS p)

/-- The callback for input registers answers a read of the three registers
with an encoding of the supply after an exchange. -/
def ReadsFaithfully (ps : PowerSupplyInterface τ) (p : τ) : Prop :=
  ∀ (unit : Byte) (calls : List SetStatusCall),∃ registers,
    handleReadData ps 0#16 3#16 unit ⟨p,calls⟩=
      (.ok (.errorNone,registers),⟨ps.safeCommunicationWithPS p,calls⟩) ∧
    Encodes ps (ps.safeCommunicationWithPS p) registers

/-- A supply that is bounded after an exchange is read faithfully. -/
theorem readsFaithfully_of_bounded {ps : PowerSupplyInterface τ} {p : τ}
    (h : Bounded ps (ps.safeCommunicationWithPS p)) : ReadsFaithfully ps p := by
  intro unit calls
  have hrun := (handleReadData_run ps 0#16 3#16 unit ⟨p,calls⟩).trans (if_neg (by decide))
  exact ⟨_,hrun,encodes_of_bounded h⟩

/-! ### The substitute supply -/

section Substitute

open SubstituteSupply

/-- What every state of the substitute supply has. -/
structure SubstituteBounds (p : PowerSupply) : Prop where
  /-- The current is a reading of twelve bits. -/
  current : p.current.toNat≤4095
  /-- The voltage is never set. -/
  voltage : p.voltage=100#16
  /-- The errors are never set. -/
  errors : p.errors=0#8

/-- A current is converted to twelve bits. -/
theorem convertCurrent_le (value : Word) : (convertCurrent value).toNat≤4095 := by
  have hv := value.isLt
  have hdiv : value.toNat*((2<<<11)-1)/65535≤4095 := by
    rw [show (2<<<11)-1=4095 from rfl]
    exact Nat.div_le_of_le_mul (by omega)
  rw [convertCurrent,BitVec.toNat_ofNat]
  exact (Nat.mod_le _ _).trans hdiv

/-- Setting a parameter keeps the bounds. -/
theorem substituteBounds_set {p : PowerSupply} (h : SubstituteBounds p) (dataType : Byte)
    (value : Word) : SubstituteBounds (SubstituteSupply.setStatus dataType value p).2 := by
  rw [SubstituteSupply.setStatus,if_neg (not_not.mpr rfl : ¬illegalDataValueLinuxTest≠0)]
  split
  · exact ⟨h.current,h.voltage,h.errors⟩
  · exact ⟨h.current,h.voltage,h.errors⟩
  · exact ⟨h.current,h.voltage,h.errors⟩
  · exact ⟨convertCurrent_le value,h.voltage,h.errors⟩
  · exact h

/-- Every state of the substitute supply is within its bounds. -/
theorem substitute_bounds {p : PowerSupply} (h : Reached powerSupply {} p) :
    SubstituteBounds p := by
  induction h with
  | start => exact ⟨by decide,rfl,rfl⟩
  | set dataType value _ ih => exact substituteBounds_set ih dataType value
  | exchanged _ ih => exact ih

/-- The readings of the substitute supply are as wide as their fields. -/
theorem substitute_bounded {p : PowerSupply} (h : SubstituteBounds p) :
    Bounded powerSupply p where
  current := h.current
  voltage := by
    change p.voltage.toNat≤4095
    rw [h.voltage]
    decide
  errors := by
    change p.errors.toNat≤3
    rw [h.errors]
    decide

end Substitute

/-! ### The 200 A supply -/

section Supply200A

open Supply200A SupplyCycle

variable (fp : FloatUnit)

/-- The measured current of an answer, an integer of twelve bits. -/
def rawOf (answer : Vector Byte 6) : ℕ := (readUint answer psCurrentPos psCurrentLen).toNat

/-- Twelve bits are read. -/
theorem rawOf_le (answer : Vector Byte 6) : rawOf answer≤4095 := by
  have h : rawOf answer<2^12 := readUint_lt answer psCurrentPos (by decide)
  omega

/-- A sample: up to the quotient the computation is without rounding error. -/
theorem measured_eq (answer : Vector Byte 6) :
    measured fp answer=
      fp.float.round (fp.double.round (((200*rawOf answer : ℕ) : ℚ)/((4095 : ℕ) : ℚ))) := by
  have hraw := rawOf_le answer
  have hscale : fp.double.round (1*(psMaxCurrent : ℚ))=(200 : ℕ) := by
    rw [one_mul]
    exact fp.double.round_natCast (by decide)
  have hproduct : fp.double.round (((200 : ℕ) : ℚ)*((rawOf answer : ℕ) : ℚ))=
      ((200*rawOf answer : ℕ) : ℚ) := by
    rw [←Nat.cast_mul]
    exact fp.double.round_natCast (by omega)
  have hmax : maxPossibleValue fp psCurrentLen=(4095 : ℕ) := maxPossibleValue_eq fp (by decide)
  change fp.float.round (fp.double.round (fp.double.round (fp.double.round (1*(psMaxCurrent : ℚ))*
    (rawOf answer : ℚ))/maxPossibleValue fp psCurrentLen))=_
  rw [hscale,hproduct,hmax]

/-- A sample lies between zero and full scale. -/
theorem measured_mem (answer : Vector Byte 6) :
    0 ≤ measured fp answer ∧ measured fp answer≤(200 : ℕ) := by
  have hraw := rawOf_le answer
  have h0 : (0 : ℚ)≤((200*rawOf answer : ℕ) : ℚ)/((4095 : ℕ) : ℚ) := by positivity
  have hle : ((200*rawOf answer : ℕ) : ℚ)/((4095 : ℕ) : ℚ)≤(200 : ℕ) := by
    rw [div_le_iff₀ (by norm_num),←Nat.cast_mul]
    exact_mod_cast Nat.mul_le_mul_left 200 hraw
  obtain ⟨hd0,hdle⟩ := fp.double.round_mem (by norm_num) h0 hle
  rw [measured_eq]
  exact fp.float.round_mem (by norm_num) hd0 hdle

/-- The running sum of `k` samples lies between zero and `k` times full scale. -/
theorem summed_mem (reply : ℕ → Vector Byte 6) (n : ℕ) {k : ℕ} (hk : k≤5) :
    0 ≤ summed fp reply n k ∧ summed fp reply n k≤((200*k : ℕ) : ℚ) := by
  induction k with
  | zero =>
    rw [Nat.mul_zero,Nat.cast_zero]
    exact ⟨le_rfl,le_rfl⟩
  | succ k ih =>
    obtain ⟨hs0,hsle⟩ := ih (by omega)
    obtain ⟨hm0,hmle⟩ := measured_mem fp (reply (n+k))
    have hsum : summed fp reply n k+measured fp (reply (n+k))≤((200*(k+1) : ℕ) : ℚ) := by
      rw [Nat.mul_succ,Nat.cast_add]
      exact add_le_add hsle hmle
    exact fp.float.round_mem (by omega) (add_nonneg hs0 hm0) hsum

/-- The average of a cycle lies between zero and full scale. -/
theorem averaged_mem (reply : ℕ → Vector Byte 6) (n : ℕ) :
    0≤averaged fp reply n ∧ averaged fp reply n≤(200 : ℕ) := by
  obtain ⟨h0,hle⟩ := summed_mem fp reply n le_rfl
  have hdiv : summed fp reply n 5/((5 : ℕ) : ℚ)≤(200 : ℕ) := by
    rw [div_le_iff₀ (by norm_num),←Nat.cast_mul]
    exact hle
  exact fp.float.round_mem (by norm_num) (div_nonneg h0 (Nat.cast_nonneg 5)) hdiv

/-- The average kept by the driver lies between zero and full scale. -/
def AverageBounds (p : PowerSupply200A) : Prop := 0≤p.avrgCurrent ∧ p.avrgCurrent≤(200 : ℕ)

/-- So does the average of a cycle before it is used for a copy. -/
theorem averagedState_bounds (p : PowerSupply200A) : AverageBounds (averagedState fp p) :=
  averaged_mem fp _ _

/-- Every state of the driver keeps the average within its bounds. -/
theorem average_bounds {reply : ℕ → Vector Byte 6} {p : PowerSupply200A}
    (h : Reached (powerSupply200A fp) (PowerSupply200A.init reply) p) : AverageBounds p := by
  induction h with
  | start => exact ⟨le_rfl,Nat.cast_nonneg 200⟩
  | @set p dataType value _ ih =>
    have hkeep : ((powerSupply200A fp).setStatus dataType value p).2.avrgCurrent=
        p.avrgCurrent := by
      change (Supply200A.setStatus dataType value p).2.avrgCurrent=p.avrgCurrent
      rw [Supply200A.setStatus]
      split <;> rfl
    rw [AverageBounds,hkeep]
    exact ih
  | @exchanged p _ ih =>
    change AverageBounds (safeCommunicationWithPS fp p)
    rw [safeCommunicationWithPS_eq]
    split
    · exact averaged_mem fp _ _
    · exact averaged_mem fp _ _

/-- The average in the unit of a field of `len` bits fits the field. -/
theorem scaled_mem {p : PowerSupply200A} (h : AverageBounds p) {len : ℕ} (hlen : len≤16) :
    0≤avrgCurrentScaled fp p len ∧ avrgCurrentScaled fp p len≤((2^len-1 : ℕ) : ℚ) := by
  have hpow : 2^len≤2^16 := Nat.pow_le_pow_right (by norm_num) hlen
  have hmax : maxPossibleValue fp len=((2^len-1 : ℕ) : ℚ) := maxPossibleValue_eq fp (by omega)
  have hmul : p.avrgCurrent*((2^len-1 : ℕ) : ℚ)≤((200*(2^len-1) : ℕ) : ℚ) := by
    rw [Nat.cast_mul]
    exact mul_le_mul_of_nonneg_right h.2 (Nat.cast_nonneg _)
  obtain ⟨hp0,hple⟩ := fp.float.round_mem (by omega)
    (mul_nonneg h.1 (Nat.cast_nonneg (2^len-1))) hmul
  have hdiv : fp.float.round (p.avrgCurrent*((2^len-1 : ℕ) : ℚ))/(psMaxCurrent : ℚ)≤
      ((2^len-1 : ℕ) : ℚ) := by
    rw [psMaxCurrent,div_le_iff₀ (by norm_num),←Nat.cast_mul,Nat.mul_comm]
    exact hple
  rw [avrgCurrentScaled,hmax]
  exact fp.float.round_mem (by omega) (div_nonneg hp0 (Nat.cast_nonneg _)) hdiv

/-- The readings of the 200 A supply are as wide as their fields. -/
theorem supply200A_bounded {p : PowerSupply200A} (h : AverageBounds p) :
    Bounded (powerSupply200A fp) p where
  current := by
    obtain ⟨h0,hle⟩ := scaled_mem fp h (by decide : psCurrentLen≤16)
    exact (toUint16_le (by decide) h0 hle).1
  voltage := by
    have hv : (readVoltage p).toNat<2^12 := readUint_lt p.psBufIn psVoltagePos (by decide)
    change (readVoltage p).toNat≤4095
    omega
  errors := by
    change (readErrors p).toNat≤3
    rw [readErrors]
    cases getBit p.psBufIn psStatusErrorExternalPos <;>
      cases getBit p.psBufIn psStatusErrorColectivePos <;> decide

/-- The conversions of the average to sixteen bits are in range. -/
theorem scaled_inRange {p : PowerSupply200A} (h : AverageBounds p) {len : ℕ} (hlen : len≤16) :
    InRange (avrgCurrentScaled fp p len) := by
  have hpow : 2^len≤2^16 := Nat.pow_le_pow_right (by norm_num) hlen
  have hpos : 1≤2^len := Nat.one_le_two_pow
  obtain ⟨h0,hle⟩ := scaled_mem fp h hlen
  exact (toUint16_le (by omega) h0 hle).2

end Supply200A

/-! ### Both supplies -/

/-- In every reachable state of both supplies the readings fit their fields
and a read of the three registers is answered with an encoding of the supply;
in every reachable state of the 200 A supply, and inside its cycles, the
conversions from float are in range. -/
theorem reads_faithfully (fp : FloatUnit) :
    (∀ p,Reached SubstituteSupply.powerSupply {} p →
      Bounded SubstituteSupply.powerSupply p ∧ ReadsFaithfully SubstituteSupply.powerSupply p) ∧
    ∀ reply p,Reached (Supply200A.powerSupply200A fp) (Supply200A.PowerSupply200A.init reply) p →
      (Bounded (Supply200A.powerSupply200A fp) p ∧
        ReadsFaithfully (Supply200A.powerSupply200A fp) p) ∧
      InRange (Supply200A.avrgCurrentScaled fp p Supply200A.psCurrentLen) ∧
      InRange (Supply200A.avrgCurrentScaled fp p Supply200A.psOUTCurrentLen) ∧
      InRange (Supply200A.avrgCurrentScaled fp (SupplyCycle.averagedState fp p)
        Supply200A.psOUTCurrentLen) := by
  constructor
  · intro p h
    exact ⟨substitute_bounded (substitute_bounds h),
      readsFaithfully_of_bounded (substitute_bounded (substitute_bounds h.exchanged))⟩
  · intro reply p h
    have hp := average_bounds fp h
    exact ⟨⟨supply200A_bounded fp hp,
      readsFaithfully_of_bounded (supply200A_bounded fp (average_bounds fp h.exchanged))⟩,
      scaled_inRange fp hp (by decide),scaled_inRange fp hp (by decide),
      scaled_inRange fp (averagedState_bounds fp p) (by decide)⟩

/-- Both supplies right after construction. -/
theorem reads_faithfully_start :
    ReadsFaithfully SubstituteSupply.powerSupply {} ∧
    ReadsFaithfully (Supply200A.powerSupply200A exactUnit)
      (Supply200A.PowerSupply200A.init fun _ => Vector.replicate 6 255#8) :=
  ⟨((reads_faithfully exactUnit).1 {} .start).2,
    ((reads_faithfully exactUnit).2 (fun _ => Vector.replicate 6 255#8) _ .start).1.2⟩

end CyclotronPico.ReadRegisters
