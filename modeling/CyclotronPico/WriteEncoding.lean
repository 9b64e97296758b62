import CyclotronPico.Sessions
import CyclotronPico.WriteFrames
import Mathlib.Tactic.IntervalCases

/-!
# The encoding of a command

How the master spells a command to a supply as coils: two for the parameter,
least significant first, then the digits of the value, most significant
first. Decoding what was encoded gives the command back, and up to sixteen
digits every write frame without padding bits is the encoding of exactly one
command.
-/

namespace CyclotronPico.WriteEncoding

open BitBuffer Frames Requests ServerAnswers ModbusServer WriteFrames Sessions

/-- The parameters of a supply. -/
inductive PowerSupplyParameter where
  /-- The power switch. -/
  | isOn
  /-- The polarity. -/
  | polarity
  /-- The reset. -/
  | reset
  /-- The current. -/
  | current
  deriving DecidableEq

/-- The number of a parameter. -/
def PowerSupplyParameter.number : PowerSupplyParameter → Byte
  | isOn => 0#8
  | polarity => 1#8
  | reset => 2#8
  | current => 3#8

/-- A command of the master. -/
@[ext] structure Command where
  /-- What is set. -/
  parameter : PowerSupplyParameter
  /-- To what. -/
  value : Word
  /-- The number of binary digits that are sent. -/
  digits : ℕ
  /-- At least one. -/
  least : 1≤digits
  /-- As many as a value has. -/
  most : digits≤16
  /-- The value has no more. -/
  fits : value.toNat<2^digits
  deriving DecidableEq

/-- The quantity of coils of a command. -/
def Command.quantity (c : Command) : ℕ := writtenDataTypeCoils+c.digits

/-- A coil of a command. -/
def Command.coil (c : Command) (i : ℕ) : Bool :=
  if i<2 then c.parameter.number.getLsbD i
  else if i<c.quantity then c.value.getLsbD (c.quantity-i-1) else false

/-- Eight coils from a place on, as a byte. -/
def coilByte (coil : ℕ → Bool) (i : ℕ) : Byte :=
  BitVec.ofBoolListLE [coil i,coil (i+1),coil (i+2),coil (i+3),coil (i+4),coil (i+5),coil (i+6),
    coil (i+7)]

/-- The bytes of a command's coils. -/
def Command.coils (c : Command) : List Byte :=
  (List.range ((c.quantity+7)/8)).map fun j => coilByte c.coil (8*j)

/-! ### Encoding -/

/-- The coils of a byte. -/
theorem coilByte_bit (coil : ℕ → Bool) (i : ℕ) {k : ℕ} (hk : k<8) :
    (coilByte coil i).getLsbD k=coil (i+k) := by
  rw [coilByte,BitVec.getLsbD_ofBoolListLE]
  interval_cases k <;> rfl

/-- A quantity takes one to three bytes. -/
theorem Command.quantity_bounds (c : Command) : 3≤c.quantity ∧ c.quantity≤18 := by
  have hleast := c.least
  have hmost := c.most
  rw [quantity,writtenDataTypeCoils]
  omega

/-- Coils behind the quantity are zero. -/
theorem Command.coil_padding (c : Command) {i : ℕ} (hi : c.quantity ≤ i) : c.coil i=false := by
  have hbounds := c.quantity_bounds
  rw [coil,if_neg (by omega),if_neg (by omega)]

/-- As many bytes as the coils fill. -/
theorem Command.coils_length (c : Command) : c.coils.length=(c.quantity+7)/8 := by
  rw [coils,List.length_map,List.length_range]

/-- The coils in the bytes. -/
theorem Command.coils_coil (c : Command) (i : ℕ) : coilAt c.coils i=c.coil i := by
  rw [coilAt,byteAt]
  by_cases hi : i/8<(c.quantity+7)/8
  · have hget : c.coils.getD (i/8) 0#8=coilByte c.coil (8*(i/8)) := by
      rw [List.getD_eq_getElem?_getD,coils,List.getElem?_map,List.getElem?_range hi]
      rfl
    rw [hget,coilByte_bit _ _ (Nat.mod_lt i (by omega)),Nat.div_add_mod]
  · have hget : c.coils.getD (i/8) 0#8=0#8 := by
      rw [List.getD_eq_getElem?_getD,List.getElem?_eq_none (by rw [c.coils_length]; omega)]
      rfl
    rw [hget,BitVec.getLsbD_zero,c.coil_padding (by omega)]

/-- The fields of the write frame of a command. -/
theorem Command.fields (c : Command) {u : Byte} (hu : u=0#8 ∨ u=1#8) :
    WriteFields u c.quantity c.coils where
  unit := hu
  low := c.quantity_bounds.1
  high := c.quantity_bounds.2.trans (by omega)
  bytes := c.coils_length

/-- The write frame of a command to a unit. -/
def Command.frame (c : Command) (u : Byte) : List Byte := writeFrame u c.quantity c.coils

/-- The byte count of a command's write frame. -/
theorem Command.count_coils (c : Command) :
    coilsLayout.count (writeBody 1#8 c.quantity c.coils)=c.coils.length := by
  have hbytes := c.coils_length
  have hbounds := c.quantity_bounds
  change (BitVec.ofNat 8 c.coils.length).toNat=c.coils.length
  rw [BitVec.toNat_ofNat]
  omega

/-- The write frame of a command, as a request to this server. -/
def Command.request (c : Command) : Request where
  unit := 1#8
  fc := 15#8
  payload := [0#8,0#8,BitVec.ofNat 8 (c.quantity/256),BitVec.ofNat 8 c.quantity,
    BitVec.ofNat 8 c.coils.length]++c.coils
  lay := coilsLayout
  known := rfl
  filled := by
    change (writeBody 1#8 c.quantity c.coils).length=
      7+coilsLayout.count (writeBody 1#8 c.quantity c.coils)
    rw [c.count_coils]
    exact writeBody_length 1#8 c.quantity c.coils
  fits := by
    change coilsLayout.overrunAt (coilsLayout.count (writeBody 1#8 c.quantity c.coils))=none
    have hbytes := c.coils_length
    have hbounds := c.quantity_bounds
    rw [c.count_coils]
    exact if_pos (by omega)
  covered := by
    change crcBytes ((writeBody 1#8 c.quantity c.coils).take (7+coilsLayout.count
      (writeBody 1#8 c.quantity c.coils)))=crcBytes (writeBody 1#8 c.quantity c.coils)
    rw [c.count_coils,List.take_of_length_le (writeBody_length 1#8 c.quantity c.coils).le]

/-! ### Decoding -/

/-- The digits of a number, most significant first. -/
theorem digitsValue_testBit (bit : ℕ → Bool) (i n : ℕ) {k : ℕ} (hk : k<n) :
    (digitsValue bit i n).testBit k=bit (i+n-1-k) := by
  induction n generalizing i with
  | zero => omega
  | succ n ih =>
    have hlt := digitsValue_lt bit (i+1) n
    rw [digitsValue,Nat.mul_comm,Nat.testBit_two_pow_mul_add _ hlt]
    by_cases hkn : k<n
    · rw [if_pos hkn,ih (i+1) hkn]
      congr 1
      omega
    · obtain rfl : k=n := by omega
      rw [if_neg hkn,Nat.sub_self]
      have hfirst : i+(k+1)-1-k=i := by omega
      rw [hfirst]
      cases bit i <;> rfl

/-- A number is the one that its digits spell. -/
theorem digitsValue_digits {bit : ℕ → Bool} {i n x : ℕ} (hx : x<2^n)
    (h : ∀ k,k<n → bit (i+n-1-k)=x.testBit k) : digitsValue bit i n=x := by
  refine Nat.eq_of_testBit_eq fun k => ?_
  by_cases hk : k<n
  · rw [digitsValue_testBit bit i n hk,h k hk]
  · have hpow : 2^n≤2^k := Nat.pow_le_pow_right Nat.two_pos (by omega)
    rw [Nat.testBit_lt_two_pow ((digitsValue_lt bit i n).trans_le hpow),
      Nat.testBit_lt_two_pow (hx.trans_le hpow)]

/-- The coils that the server takes from the write frame of a command. -/
theorem Command.coilsOf_frame (c : Command) {u : Byte} (hu : u=0#8 ∨ u=1#8) (i : ℕ) :
    bitAt (coilsOf (c.frame u)) i=c.coil i :=
  (coilsOf_writeFrame (c.fields hu) i).trans (c.coils_coil i)

/-- The server reads the parameter of a command. -/
theorem Command.decoded_type (c : Command) {u : Byte} (hu : u=0#8 ∨ u=1#8) :
    writtenType (c.frame u)=c.parameter.number := by
  apply BitVec.eq_of_toNat_eq
  rw [writtenType,dataTypeOf_toNat,c.coilsOf_frame hu,c.coilsOf_frame hu,coil,coil,
    if_pos Nat.two_pos,if_pos Nat.one_lt_two]
  cases c.parameter <;> rfl

variable (overshift : Overshift)

/-- The server reads the value of a command. -/
theorem Command.decoded_value (c : Command) {u : Byte} (hu : u=0#8 ∨ u=1#8) :
    writtenValue overshift (c.frame u)=c.value := by
  obtain ⟨hlow,hhigh⟩ := c.quantity_bounds
  have hquantity : (wordAt (c.frame u) 4).toNat=c.quantity := writeFrame_quantity (c.fields hu)
  apply BitVec.eq_of_toNat_eq
  rw [writtenValue,hquantity,valueOf_small overshift _ (by omega) hhigh,payload]
  have hdigits : c.quantity-2=c.digits := by
    rw [quantity,writtenDataTypeCoils,Nat.add_sub_cancel_left]
  rw [hdigits]
  refine digitsValue_digits c.fits fun k hk => ?_
  have hplace : c.quantity-(2+c.digits-1-k)-1=k := by
    omega
  rw [c.coilsOf_frame hu,coil,if_neg (by omega),if_pos (by omega),hplace]
  rfl

/-! ### Frames without padding bits -/

/-- The parameter that two coils number. -/
def parameterOf : Bool → Bool → PowerSupplyParameter
  | false,false => .isOn
  | true,false => .polarity
  | false,true => .reset
  | true,true => .current

/-- The coils that number a parameter. -/
theorem parameterOf_bits (low high : Bool) :
    (parameterOf low high).number.getLsbD 0=low ∧ (parameterOf low high).number.getLsbD 1=high := by
  cases low <;> cases high <;> exact ⟨rfl,rfl⟩

/-- Parameters of equal numbers are equal. -/
theorem number_injective {a b : PowerSupplyParameter} (h : a.number=b.number) : a=b := by
  cases a <;> cases b <;> first | rfl | exact absurd h (by decide)

variable {u : Byte} {q : ℕ} {coils : List Byte}

/-- The command that a write frame of at most sixteen digits spells. -/
def commandOf (hf : WriteFields u q coils) (hq : q≤18) : Command where
  parameter := parameterOf (coilAt coils 0) (coilAt coils 1)
  value := BitVec.ofNat 16 (payload (coilAt coils) q)
  digits := q-2
  least := Nat.le_sub_of_add_le hf.low
  most := Nat.sub_le_of_le_add hq
  fits := by
    rw [BitVec.toNat_ofNat]
    exact (Nat.mod_le _ _).trans_lt (digitsValue_lt _ _ _)

/-- The quantity of a spelled command. -/
theorem commandOf_quantity (hf : WriteFields u q coils) (hq : q≤18) :
    (commandOf hf hq).quantity=q := by
  have hlow := hf.low
  have hdigits : (commandOf hf hq).digits=q-2 := rfl
  rw [Command.quantity,hdigits,writtenDataTypeCoils]
  omega

/-- The coils of a spelled command are those of the frame, if the bits behind
them are zero. -/
theorem commandOf_coil (hf : WriteFields u q coils) (hq : q≤18)
    (hpad : ∀ i,q ≤ i → coilAt coils i=false) (i : ℕ) :
    (commandOf hf hq).coil i=coilAt coils i := by
  have hlow := hf.low
  obtain ⟨hfirst,hsecond⟩ := parameterOf_bits (coilAt coils 0) (coilAt coils 1)
  rw [Command.coil,commandOf_quantity hf hq]
  by_cases h2 : i<2
  · rw [if_pos h2]
    interval_cases i
    · exact hfirst
    · exact hsecond
  · rw [if_neg h2]
    by_cases hi : i<q
    · have hvalue : (commandOf hf hq).value=BitVec.ofNat 16 (payload (coilAt coils) q) := rfl
      have hbit := digitsValue_testBit (coilAt coils) 2 (q-2) (k:=q-i-1) (by omega)
      have hplace : 2+(q-2)-1-(q-i-1)=i := by omega
      rw [hplace] at hbit
      rw [if_pos hi,hvalue,BitVec.getLsbD_ofNat,decide_eq_true (by omega : q-i-1<16),
        Bool.true_and]
      exact hbit
    · rw [if_neg hi,hpad i (by omega)]

/-- The bytes of a spelled command are those of the frame. -/
theorem commandOf_coils (hf : WriteFields u q coils) (hq : q≤18)
    (hpad : ∀ i,q ≤ i → coilAt coils i=false) : (commandOf hf hq).coils=coils := by
  have hlen : (commandOf hf hq).coils.length=coils.length := by
    rw [Command.coils_length,commandOf_quantity hf hq,hf.bytes]
  refine List.ext_getElem hlen fun j h h' => ?_
  have hbyte : ∀ bs : List Byte,∀ hj : j<bs.length,∀ k,k<8 → bs[j].getLsbD k=coilAt bs (8*j+k) := by
    intro bs hj k hk
    have hdiv : (8*j+k)/8=j := by omega
    have hmod : (8*j+k)%8=k := by omega
    rw [coilAt,byteAt,hdiv,hmod,List.getD_eq_getElem?_getD,List.getElem?_eq_getElem hj]
    rfl
  refine BitVec.eq_of_getLsbD_eq fun k hk => ?_
  rw [hbyte _ h k hk,hbyte _ h' k hk,Command.coils_coil,commandOf_coil hf hq hpad]

/-- Commands of equal frames are equal. -/
theorem frame_injective (overshift : Overshift) (hu : u=0#8 ∨ u=1#8) {c c' : Command}
    (h : c.frame u=c'.frame u) : c=c' := by
  have htype : c.parameter.number=c'.parameter.number := by
    rw [←c.decoded_type hu,h,c'.decoded_type hu]
  have hvalue : c.value=c'.value := by
    rw [←c.decoded_value overshift hu,h,c'.decoded_value overshift hu]
  have hquantity : c.quantity=c'.quantity := by
    rw [←writeFrame_quantity (c.fields hu),←writeFrame_quantity (c'.fields hu)]
    exact congrArg (fun frame => (wordAt frame 4).toNat) h
  exact Command.ext (number_injective htype) hvalue (Nat.add_left_cancel hquantity)

/-- Every write frame of at most sixteen digits whose padding bits are zero
is the encoding of exactly one command, and the server reads from it the
parameter and the value of that command. -/
theorem frame_command (hf : WriteFields u q coils) (hq : q≤18)
    (hpad : ∀ i,q ≤ i → coilAt coils i=false) :
    ∃ c : Command,c.frame u=writeFrame u q coils ∧ (∀ c' : Command,c'.frame u=c.frame u → c'=c) ∧
      writtenType (writeFrame u q coils)=c.parameter.number ∧
      writtenValue overshift (writeFrame u q coils)=c.value := by
  have hframe : (commandOf hf hq).frame u=writeFrame u q coils := by
    rw [Command.frame,commandOf_quantity,commandOf_coils hf hq hpad]
  refine ⟨commandOf hf hq,hframe,fun c' => frame_injective overshift hf.unit,?_,?_⟩
  · rw [←hframe]
    exact (commandOf hf hq).decoded_type hf.unit
  · rw [←hframe]
    exact (commandOf hf hq).decoded_value overshift hf.unit

/-- The current 41137, as the tests send it. -/
theorem frame_command_current :
    ∃ c : Command,c.frame 1#8=writeFrame 1#8 18 [0x17#8,0x34#8,0x02#8] ∧
      (∀ c' : Command,c'.frame 1#8=c.frame 1#8 → c'=c) ∧
      writtenType (writeFrame 1#8 18 [0x17#8,0x34#8,0x02#8])=c.parameter.number ∧
      writtenValue (fun _ _ => 0#32) (writeFrame 1#8 18 [0x17#8,0x34#8,0x02#8])=c.value := by
  refine frame_command (fun _ _ => 0#32) ⟨.inr rfl,by decide,by decide,rfl⟩ le_rfl fun i hi => ?_
  by_cases hlast : i<24
  · interval_cases i <;> rfl
  · have hlen : [0x17#8,0x34#8,0x02#8].length ≤ i/8 := by
      rw [List.length_cons,List.length_cons,List.length_singleton]
      omega
    rw [coilAt,byteAt,List.getD_eq_getElem?_getD,List.getElem?_eq_none hlen,Option.getD_none,
      BitVec.getLsbD_zero]

example : (⟨.current,41137#16,16,by decide,le_rfl,by decide⟩ : Command).coils=
    [0x17#8,0x34#8,0x02#8] := by decide

end CyclotronPico.WriteEncoding
