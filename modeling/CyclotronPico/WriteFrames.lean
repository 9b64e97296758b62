import CyclotronPico.Handling
import Mathlib.Algebra.Group.Nat.Defs

/-!
# Write frames

What a write of a parameter looks like on the line, and what the server
makes of it: the type is a number of two coils, the value the number whose
binary digits are the other coils, most significant first. The decoding loop
works modulo `2^16` and shifts in thirty-two bits, and nothing bounds the
number of coils but the format.
-/

namespace CyclotronPico.WriteFrames

open BitBuffer Effects PicoController Nanomodbus NanomodbusServer Frames Reception Requests
  Answers ServerAnswers Polls SupplyInterface ModbusServer Handling

variable {τ : Type} (overshift : Overshift) (ps : PowerSupplyInterface τ)

/-! ### Binary digits -/

/-- The number whose binary digits, most significant first, are the `n` bits
from `i` on. -/
def digitsValue (bit : ℕ → Bool) (i : ℕ) : ℕ → ℕ
  | 0 => 0
  | n+1 => (bit i).toNat*2^n+digitsValue bit (i+1) n

/-- The value spelled by the coils after the first two. -/
def payload (coil : ℕ → Bool) (quantity : ℕ) : ℕ := digitsValue coil 2 (quantity-2)

/-- A number of `n` digits is below `2^n`. -/
theorem digitsValue_lt (bit : ℕ → Bool) (i n : ℕ) : digitsValue bit i n<2^n := by
  induction n generalizing i with
  | zero => exact Nat.one_pos
  | succ n ih =>
    have hrest := ih (i+1)
    have hbit : (bit i).toNat*2^n≤2^n :=
      (Nat.mul_le_mul_right _ (Bool.toNat_le (bit i))).trans_eq (Nat.one_mul _)
    rw [digitsValue,Nat.pow_succ]
    omega

/-- A number is below `2^k` when its digits above the last `k` are zero, and
only then. -/
theorem digitsValue_lt_iff (bit : ℕ → Bool) (i n k : ℕ) :
    digitsValue bit i n<2^k ↔ ∀ j,i≤j → j+k < i+n → bit j=false := by
  induction n generalizing i with
  | zero => exact iff_of_true (Nat.two_pow_pos k) (fun j hij hj => by omega)
  | succ n ih =>
    have hrest := digitsValue_lt bit (i+1) n
    by_cases hk : n<k
    · have hpow : 2^(n+1)≤2^k := Nat.pow_le_pow_right Nat.two_pos hk
      exact iff_of_true ((digitsValue_lt bit i (n+1)).trans_le hpow) (fun j hij hj => by omega)
    · have hpow : 2^k≤2^n := Nat.pow_le_pow_right Nat.two_pos (by omega)
      rw [digitsValue]
      cases hb : bit i with
      | true =>
        rw [Bool.toNat_true,Nat.one_mul]
        refine iff_of_false (by omega) (fun h => ?_)
        have hfirst := h i le_rfl (by omega)
        rw [hb] at hfirst
        cases hfirst
      | false =>
        rw [Bool.toNat_false,Nat.zero_mul,Nat.zero_add,ih]
        constructor
        · intro h j hij hj
          by_cases he : i=j
          · rw [←he,hb]
          · exact h j (by omega) (by omega)
        · exact fun h j hij hj => h j (by omega) (by omega)

/-- Numbers of equal digits are equal. -/
theorem digitsValue_congr {bit bit' : ℕ → Bool} (h : ∀ i,bit i=bit' i) (i n : ℕ) :
    digitsValue bit i n=digitsValue bit' i n := by
  rw [show bit=bit' from funext h]

/-! ### The decoding loop -/

/-- One round of the loop adds a digit modulo `2^16` while the shift stays
inside the `int`. -/
theorem addDigit_toNat (value : Word) (bit : Bool) {amount : ℕ} (h : amount<32) :
    ((value.setWidth 32+shiftLeft overshift bit amount).setWidth 16).toNat=
      (value.toNat+bit.toNat*2^amount)%2^16 := by
  have hv := value.isLt
  have hpow : 2^amount<2^32 := Nat.pow_lt_pow_right (by omega) h
  have hbit : bit.toNat*2^amount<2^32 := by
    have hle := Nat.mul_le_mul_right (2^amount) (Bool.toNat_le bit)
    omega
  have hone : (BitVec.ofNat 32 bit.toNat).toNat=bit.toNat := by
    cases bit <;> rfl
  rw [shiftLeft,if_pos h,BitVec.toNat_setWidth,BitVec.toNat_add,BitVec.toNat_setWidth,
    BitVec.toNat_shiftLeft,hone,Nat.shiftLeft_eq]
  omega

/-- Up to thirty-four coils the loop computes the number modulo `2^16`. -/
theorem decodedFrom_toNat (coils : Vector Byte 250) (quantity : ℕ) (hq : quantity≤34)
    (value : Word) {i n : ℕ} (hi : 2 ≤ i) (hn : i+n=quantity) :
    (decodedFrom overshift coils quantity value i n).toNat=
      (value.toNat+digitsValue (bitAt coils) i n)%2^16 := by
  induction n generalizing value i with
  | zero =>
    have hv := value.isLt
    rw [decodedFrom,digitsValue]
    omega
  | succ n ih =>
    have hamount : shiftAmount quantity i=n := by
      rw [shiftAmount]
      omega
    have hdigit := addDigit_toNat overshift value (bitAt coils i) (by omega : n<32)
    rw [decodedFrom,hamount,ih _ (by omega) (by omega),hdigit,digitsValue]
    omega

/-- Up to thirty-four coils the value that is set is the payload modulo `2^16`. -/
theorem valueOf_toNat (coils : Vector Byte 250) {quantity : ℕ} (h2 : 2≤quantity)
    (hq : quantity≤34) :
    (valueOf overshift coils quantity).toNat=payload (bitAt coils) quantity%2^16 := by
  have hrun := decodedFrom_toNat overshift coils quantity hq 0#16 le_rfl
    (by omega : 2+(quantity-2)=quantity)
  rw [BitVec.toNat_zero,Nat.zero_add] at hrun
  exact hrun

/-- Up to eighteen coils nothing is lost. -/
theorem valueOf_small (coils : Vector Byte 250) {quantity : ℕ} (h2 : 2≤quantity)
    (hq : quantity≤18) :
    (valueOf overshift coils quantity).toNat=payload (bitAt coils) quantity := by
  have hlt := digitsValue_lt (bitAt coils) 2 (quantity-2)
  have hpow : 2^(quantity-2)≤2^16 := Nat.pow_le_pow_right Nat.two_pos (by omega)
  rw [valueOf_toNat overshift coils h2 (by omega)]
  exact Nat.mod_eq_of_lt (hlt.trans_le hpow)

/-- The type that is set is the number of the first two coils. -/
theorem dataTypeOf_toNat (coils : Vector Byte 250) :
    (dataTypeOf coils).toNat=(bitAt coils 0).toNat+2*(bitAt coils 1).toNat := by
  rw [dataTypeOf]
  cases bitAt coils 0 <;> cases bitAt coils 1 <;> rfl

/-- What the decoding of a write of coils must not lose: every shift is
inside the `int`, and the value set is the one spelled by the coils. -/
def Lossless (coils : Vector Byte 250) (quantity : ℕ) (app app' : App τ) : Prop :=
  (∀ i,2 ≤ i → i<quantity → shiftAmount quantity i<32) ∧
    ∃ call,app'.calls=app.calls++[call] ∧ call.value.toNat=payload (bitAt coils) quantity

/-- A write that is accepted loses nothing exactly when it has at most
thirty-four coils and those above the last sixteen are zero. -/
theorem lossless_iff (address quantity : Word) (coils : Vector Byte 250) (unit : Byte)
    (app app' : App τ) (hq : quantity.toNat≤0x07B0)
    (h : handleWriteData overshift ps address quantity coils unit app=(.ok .errorNone,app')) :
    Lossless coils quantity.toNat app app' ↔
      quantity.toNat≤34 ∧ ∀ i,2 ≤ i → i+16<quantity.toNat → bitAt coils i=false := by
  rw [handleWriteData_run overshift ps address quantity coils unit app (by omega)] at h
  by_cases hc : address.toNat≠0 ∨ quantity.toNat<coilsWriteMinCount
  · rw [if_pos hc] at h
    cases h
  · rw [if_neg hc] at h
    have h3 : 3≤quantity.toNat := by
      rw [coilsWriteMinCount,writtenDataTypeCoils] at hc
      omega
    have hcalls : app'.calls=app.calls++[⟨dataTypeOf coils,valueOf overshift coils quantity.toNat,
        (ps.setStatus (dataTypeOf coils) (valueOf overshift coils quantity.toNat)
          app.powerSupply).1⟩] := by
      split at h
      · cases h
      · exact (congrArg (fun r => App.calls (Prod.snd r)) h).symm
    have hcall : (∃ call,app'.calls=app.calls++[call] ∧
        call.value.toNat=payload (bitAt coils) quantity.toNat) ↔
        (valueOf overshift coils quantity.toNat).toNat=payload (bitAt coils) quantity.toNat := by
      constructor
      · rintro ⟨call,happ,hvalue⟩
        rw [hcalls,List.append_cancel_left_eq,List.singleton_inj] at happ
        rw [←happ] at hvalue
        exact hvalue
      · exact fun hvalue => ⟨_,hcalls,hvalue⟩
    have hdigits := digitsValue_lt_iff (bitAt coils) 2 (quantity.toNat-2) 16
    rw [show 2+(quantity.toNat-2)=quantity.toNat by omega] at hdigits
    rw [Lossless,hcall]
    constructor
    · rintro ⟨hshift,hvalue⟩
      have hfirst := hshift 2 le_rfl (by omega)
      rw [shiftAmount] at hfirst
      refine ⟨by omega,hdigits.mp ?_⟩
      exact hvalue.symm.trans_lt (valueOf overshift coils quantity.toNat).isLt
    · rintro ⟨h34,hzero⟩
      constructor
      · intro i hi hlt
        rw [shiftAmount]
        omega
      · rw [valueOf_toNat overshift coils (by omega) h34]
        exact Nat.mod_eq_of_lt (hdigits.mpr hzero)

/-- The coils of a set current of sixteen binary digits behind two zeros. -/
def sixteenDigits : Vector Byte 250 :=
  (((Vector.replicate 250 0#8).set 0 0x13#8).set 1 0x55#8).set 2 9#8

/-- A write of twenty coils sets this current. -/
theorem lossless_twenty :
    ∃ app',handleWriteData (fun _ _ => 0#32) SubstituteSupply.powerSupply 0#16 20#16
      sixteenDigits 1#8 ⟨{},[]⟩=(.ok .errorNone,app') ∧ payload (bitAt sixteenDigits) 20=0x8AA9 ∧
      Lossless sixteenDigits 20 ⟨({} : SubstituteSupply.PowerSupply),[]⟩ app' := by
  have hrun : handleWriteData (fun _ _ => 0#32) SubstituteSupply.powerSupply 0#16 20#16
      sixteenDigits 1#8 ⟨{},[]⟩=(.ok .errorNone,_) := rfl
  refine ⟨_,hrun,by decide,(lossless_iff (fun _ _ => 0#32) SubstituteSupply.powerSupply 0#16 20#16
    sixteenDigits 1#8 ⟨{},[]⟩ _ (by decide) hrun).mpr ⟨by decide,fun i hlow hhigh => ?_⟩⟩
  have hzeros : ∀ i<4,2 ≤ i → bitAt sixteenDigits i=false := by decide
  have htwenty : (20#16).toNat=20 := rfl
  exact hzeros i (by omega) hlow

/-- The coils of a set current of seventeen binary digits, the first one and the
others zero. -/
def seventeenDigits : Vector Byte 250 := (Vector.replicate 250 0#8).set 0 7#8

/-- A write of nineteen coils is accepted with its first digit lost. -/
theorem truncated_nineteen :
    ∃ app',handleWriteData (fun _ _ => 0#32) SubstituteSupply.powerSupply 0#16 19#16
      seventeenDigits 1#8 ⟨{},[]⟩=(.ok .errorNone,app') ∧
      ¬Lossless seventeenDigits 19 ⟨({} : SubstituteSupply.PowerSupply),[]⟩ app' := by
  have hrun : handleWriteData (fun _ _ => 0#32) SubstituteSupply.powerSupply 0#16 19#16
      seventeenDigits 1#8 ⟨{},[]⟩=(.ok .errorNone,_) := rfl
  refine ⟨_,hrun,?_⟩
  rintro ⟨_,call,_,hvalue⟩
  have hlt := call.value.isLt
  have hpayload : payload (bitAt seventeenDigits) 19=2^16 := rfl
  omega

/-! ### Frames on the line -/

/-- Coil `i` of some coil bytes. -/
def coilAt (coils : List Byte) (i : ℕ) : Bool := (byteAt coils (i/8)).getLsbD (i%8)

/-- The bytes of a write frame before its checksum. -/
def writeBody (u : Byte) (q : ℕ) (coils : List Byte) : List Byte :=
  [u,15#8,0#8,0#8,BitVec.ofNat 8 (q/256),BitVec.ofNat 8 q,BitVec.ofNat 8 coils.length]++coils

/-- A write frame: unit, function code 15, address zero, quantity, byte
count, coils, checksum. -/
def writeFrame (u : Byte) (q : ℕ) (coils : List Byte) : List Byte := sealed (writeBody u q coils)

/-- The fields of a write frame for this server. -/
structure WriteFields (u : Byte) (q : ℕ) (coils : List Byte) : Prop where
  /-- It goes to every unit or to this one. -/
  unit : u=0#8 ∨ u=1#8
  /-- It has a coil after the type. -/
  low : 3≤q
  /-- It has no more coils than the format allows. -/
  high : q≤1968
  /-- Its coils fill the bytes. -/
  bytes : coils.length=(q+7)/8

/-- The length of a write frame before its checksum. -/
theorem writeBody_length (u : Byte) (q : ℕ) (coils : List Byte) :
    (writeBody u q coils).length=7+coils.length := by
  rw [writeBody,List.length_append]
  rfl

/-- The quantity in a write frame. -/
theorem writeFrame_quantity {u : Byte} {q : ℕ} {coils : List Byte} (hf : WriteFields u q coils) :
    (wordAt (writeFrame u q coils) 4).toNat=q := by
  have hhigh := hf.high
  change (wordOf (BitVec.ofNat 8 (q/256)) (BitVec.ofNat 8 q)).toNat=q
  rw [wordOf_toNat,BitVec.toNat_ofNat,BitVec.toNat_ofNat]
  omega

/-- A line that begins with a write frame is received as one. -/
theorem writeFrame_received {u : Byte} {q : ℕ} {coils : List Byte} (hf : WriteFields u q coils)
    (rest : List Byte) :
    coilsLayout.receive (writeFrame u q coils++rest)=.frame ∧
    coilsLayout.span (writeFrame u q coils++rest)=(writeFrame u q coils).length ∧
    IsWrite 15#8 (writeFrame u q coils) := by
  have hlow := hf.low
  have hhigh := hf.high
  have hbytes := hf.bytes
  have hc : (BitVec.ofNat 8 coils.length).toNat=coils.length := by
    rw [BitVec.toNat_ofNat]
    omega
  have hcount : coilsLayout.count (writeBody u q coils)=coils.length := hc
  have hfilled : Filled coilsLayout (writeBody u q coils) := by
    rw [Filled,hcount]
    exact writeBody_length u q coils
  have hcovered : (writeBody u q coils).take (7+coils.length)=writeBody u q coils :=
    List.take_of_length_le (writeBody_length u q coils).le
  have hl : requestLayout 15#8=some coilsLayout := rfl
  refine ⟨(receive_sealed hl hfilled rest).mpr ?_,span_sealed hl hfilled rest,rfl,?_,?_,?_,?_⟩
  · rw [hcount]
    exact ⟨if_pos (by omega),congrArg crcBytes hcovered⟩
  · change (wordOf 0#8 0#8).toNat=0
    rfl
  · rw [writeFrame_quantity hf]
    exact hlow
  · rw [writeFrame_quantity hf]
    exact hhigh
  · rw [writeFrame_quantity hf]
    exact hc.trans hbytes

/-- Five bytes and what follows them. -/
theorem five_bytes {as : List Byte} (h : 5≤as.length) :
    ∃ a1 a0 q1 q0 c ws,as=a1::a0::q1::q0::c::ws := by
  match as,h with
  | a1::a0::q1::q0::c::ws,_ => exact ⟨a1,a0,q1,q0,c,ws,rfl⟩

/-- Bytes with the fields of a write and its checksum are a write frame. -/
theorem writeFrame_of_fields {u a1 a0 q1 q0 c : Byte} {coils : List Byte}
    (hu : u=0#8 ∨ u=1#8) (ha : (wordOf a1 a0).toNat=0) (hlow : 3≤(wordOf q1 q0).toNat)
    (hhigh : (wordOf q1 q0).toNat≤1968) (hc : c.toNat=((wordOf q1 q0).toNat+7)/8)
    (hcoils : coils.length=c.toNat) :
    WriteFields u (wordOf q1 q0).toNat coils ∧
      writeBody u (wordOf q1 q0).toNat coils=[u,15#8,a1,a0,q1,q0,c]++coils := by
  have h1 := a1.isLt
  have h0 := a0.isLt
  have hq1 := q1.isLt
  have hq0 := q0.isLt
  rw [wordOf_toNat] at ha
  have ha1 : a1=0#8 := BitVec.eq_of_toNat_eq (by rw [BitVec.toNat_zero]; omega)
  have ha0 : a0=0#8 := BitVec.eq_of_toNat_eq (by rw [BitVec.toNat_zero]; omega)
  have hhighByte : BitVec.ofNat 8 ((wordOf q1 q0).toNat/256)=q1 := by
    apply BitVec.eq_of_toNat_eq
    rw [BitVec.toNat_ofNat,wordOf_toNat]
    omega
  have hlowByte : BitVec.ofNat 8 (wordOf q1 q0).toNat=q0 := by
    apply BitVec.eq_of_toNat_eq
    rw [BitVec.toNat_ofNat,wordOf_toNat]
    omega
  have hcount : BitVec.ofNat 8 coils.length=c := by
    rw [hcoils,BitVec.ofNat_toNat,BitVec.setWidth_eq]
  refine ⟨⟨hu,hlow,hhigh,hcoils.trans hc⟩,?_⟩
  rw [writeBody,hhighByte,hlowByte,hcount,ha1,ha0]

/-- A write that was received is a write frame. -/
theorem writeFrame_of_received {u fc : Byte} {as : List Byte} (hu : ¬Foreign u)
    (hr : coilsLayout.receive (u::fc::as)=.frame)
    (hw : IsWrite fc ((u::fc::as).take (coilsLayout.span (u::fc::as)))) :
    ∃ q coils,WriteFields u q coils ∧
      (u::fc::as).take (coilsLayout.span (u::fc::as))=writeFrame u q coils := by
  obtain ⟨hhead,hover,hspan,hchecked⟩ := (coilsLayout.receive_frame_iff _).mp hr
  have hfive : 5≤as.length := by
    change 7≤as.length+1+1 at hhead
    omega
  obtain ⟨a1,a0,q1,q0,c,ws,rfl⟩ := five_bytes hfive
  have hcount : coilsLayout.count (u::fc::a1::a0::q1::q0::c::ws)=c.toNat := rfl
  have hspan' : coilsLayout.span (u::fc::a1::a0::q1::q0::c::ws)=7+c.toNat+2 := rfl
  have hcome : c.toNat+2≤ws.length := by
    rw [hspan'] at hspan
    simp only [List.length_cons] at hspan
    omega
  have htake : ∀ n,(u::fc::a1::a0::q1::q0::c::ws).take (7+n)=
      [u,fc,a1,a0,q1,q0,c]++ws.take n := by
    intro n
    rw [Nat.add_comm]
    rfl
  have hdrop : (u::fc::a1::a0::q1::q0::c::ws).drop (7+c.toNat)=ws.drop c.toNat := by
    rw [Nat.add_comm]
    rfl
  have hcrc : (ws.drop c.toNat).take 2=crcBytes ([u,fc,a1,a0,q1,q0,c]++ws.take c.toNat) := by
    rw [←htake,←hdrop]
    exact hchecked
  rw [hspan',Nat.add_assoc,htake,List.take_add] at hw ⊢
  obtain ⟨hfc,haddress,hlow,hhigh,hbytes⟩ := hw
  have hfc' : fc=15#8 := BitVec.eq_of_toNat_eq hfc
  have hunit : u=0#8 ∨ u=1#8 := by
    rw [Foreign,not_and_or,not_not,not_not] at hu
    exact hu
  have hcoils : (ws.take c.toNat).length=c.toNat := by
    rw [List.length_take]
    omega
  obtain ⟨hfields,hbody⟩ : WriteFields u (wordOf q1 q0).toNat (ws.take c.toNat) ∧
      writeBody u (wordOf q1 q0).toNat (ws.take c.toNat)=
        [u,15#8,a1,a0,q1,q0,c]++ws.take c.toNat :=
    writeFrame_of_fields hunit haddress hlow hhigh hbytes hcoils
  refine ⟨_,_,hfields,?_⟩
  rw [writeFrame,sealed,hbody,hcrc,hfc',List.append_assoc]

/-- The coils that the server takes from a write frame. -/
theorem coilsOf_writeFrame {u : Byte} {q : ℕ} {coils : List Byte} (hf : WriteFields u q coils)
    (i : ℕ) : bitAt (coilsOf (writeFrame u q coils)) i=coilAt coils i := by
  have hhigh := hf.high
  have hbytes := hf.bytes
  have hcount : (byteAt (writeFrame u q coils) 6).toNat=coils.length := by
    change (BitVec.ofNat 8 coils.length).toNat=coils.length
    rw [BitVec.toNat_ofNat]
    omega
  have hcoils : coilsOf (writeFrame u q coils)=placed (Vector.replicate 250 0#8) 0 coils := by
    have hdrop : (writeFrame u q coils).drop 7=coils++crcBytes (writeBody u q coils) := rfl
    rw [coilsOf,hcount,hdrop,List.take_left]
  have hbyte : byteAt coils (i/8)=(coils[i/8]?).getD 0#8 := List.getD_eq_getElem?_getD
  rw [hcoils,coilAt,hbyte]
  by_cases hi : i/8<250
  · rw [bitAt_of_lt hi,placed,Vector.getElem_ofFn,if_pos (Nat.zero_le _),Nat.sub_zero]
    simp only [Fin.getElem_fin,Vector.getElem_replicate]
  · rw [bitAt_of_le (not_lt.mp hi),List.getElem?_eq_none (by omega),Option.getD_none,
      BitVec.getLsbD_zero]

/-! ### Calls -/

/-- A poll over a line that begins with a write frame makes one call, with the
type and the value of its coils. -/
theorem poll_write {s : Machine (App τ)} {u : Byte} {q : ℕ} {coils : List Byte}
    (hf : WriteFields u q coils) {rest : List Byte}
    (h : arrivals s.line.rx=writeFrame u q coils++rest)
    {r : Outcome NmbsError Fault Unit×Machine (App τ)} (he : Exit overshift ps s r) :
    ∃ code,r.2.app.calls=s.app.calls++[⟨writtenType (writeFrame u q coils),
      writtenValue overshift (writeFrame u q coils),code⟩] := by
  obtain ⟨hr,hspan,hw⟩ := writeFrame_received hf rest
  have ho : Opens s u 15#8 coilsLayout := ⟨⟨_,h⟩,rfl⟩
  have hu : ¬Foreign u := by
    rintro ⟨h0,h1⟩
    exact hf.unit.elim h0 h1
  have hframe : frameOf s coilsLayout=writeFrame u q coils := by
    rw [frameOf,h,hspan,List.take_left]
  have ha := exit_answered overshift ps (exit_opens overshift ps he ho) hu (by rw [h]; exact hr)
  rw [hframe] at ha
  cases ha with
  | left x t hfc hleave hk => cases hfc
  | refused e t hread hwrite hleave hexc hsent => exact absurd hw hwrite
  | read t hread happ hline => cases hread.1
  | declined t hwrite hcode happ hline =>
    exact ⟨_,congrArg App.calls happ⟩
  | written t hwrite hcode happ hline =>
    exact ⟨_,congrArg App.calls happ⟩

/-- A poll makes no call, or it has taken a write frame from the line. -/
theorem exit_calls {s : Machine (App τ)} {r : Outcome NmbsError Fault Unit×Machine (App τ)}
    (he : Exit overshift ps s r) :
    r.2.app.calls=s.app.calls ∨ ∃ u q coils,WriteFields u q coils ∧
      s.line.rx=(writeFrame u q coils).map some++r.2.line.rx := by
  rcases exit_cases overshift ps he with ⟨u,fc,lay,ho,hu,hr,ha⟩ | hk
  · have hwrite : IsWrite fc (frameOf s lay) → ∃ u q coils,WriteFields u q coils ∧
        s.line.rx=(writeFrame u q coils).map some++(gotten s u fc lay).line.rx := by
      intro hw
      obtain ⟨⟨as,has⟩,hl⟩ := ho
      have hfc : fc=15#8 := BitVec.eq_of_toNat_eq hw.1
      obtain rfl : coilsLayout=lay := by
        rw [hfc] at hl
        exact Option.some.inj hl
      have hlen := ((coilsLayout.receive_frame_iff _).mp hr).2.2.1
      rw [has] at hr
      rw [frameOf,has] at hw
      obtain ⟨q,coils,hf,hframe⟩ := writeFrame_of_received hu hr hw
      refine ⟨u,q,coils,hf,?_⟩
      rw [←hframe,←has]
      exact arrivals_split s.line.rx hlen
    cases ha with
    | left x t hfc hleave hk => exact .inl (congrArg App.calls hk.1)
    | refused e t hread hw hleave hexc hsent => exact .inl (congrArg App.calls hsent.1)
    | read t hread happ hline => exact .inl ((congrArg App.calls happ).trans rfl)
    | declined t hw hcode happ hline =>
      obtain ⟨u',q,coils,hf,hrx⟩ := hwrite hw
      exact .inr ⟨u',q,coils,hf,hrx.trans (by rw [hline]; rfl)⟩
    | written t hw hcode happ hline =>
      obtain ⟨u',q,coils,hf,hrx⟩ := hwrite hw
      have hsame : t.line.rx=(gotten s u fc lay).line.rx := by
        rw [hline]
        split <;> rfl
      exact .inr ⟨u',q,coils,hf,hrx.trans (congrArg _ hsame.symm)⟩
  · exact .inl (congrArg App.calls hk.1)

/-- The supply is commanded exactly by write frames: one round calls
`setStatus` once when the bytes it takes from the line are a write frame, and
otherwise not at all; up to eighteen coils the call has the type and the
value that the coils spell. -/
theorem commanded_by_write_frames (m : Machine (App τ)) :
    ∃ calls,(waitAndHandleRequest overshift ps ⟨m,none⟩).machine.app.calls=m.app.calls++calls ∧
      calls.length≤1 ∧
      (calls≠[] ↔ ∃ u q coils,WriteFields u q coils ∧ m.line.rx=
        (writeFrame u q coils).map some++
          (waitAndHandleRequest overshift ps ⟨m,none⟩).machine.line.rx) ∧
      ∀ u q coils,WriteFields u q coils → m.line.rx=(writeFrame u q coils).map some++
          (waitAndHandleRequest overshift ps ⟨m,none⟩).machine.line.rx → q≤18 →
        ∃ call,calls=[call] ∧
          call.dataType.toNat=(coilAt coils 0).toNat+2*(coilAt coils 1).toNat ∧
          call.value.toNat=payload (coilAt coils) q := by
  obtain ⟨hcalls,hline⟩ := wait_of_poll overshift ps m
  have hexit := poll_exit overshift ps m
  rw [hcalls,hline]
  generalize nmbsServerPoll (nmbsServer overshift ps) m=r at hexit ⊢
  have hcall : ∀ u q coils,WriteFields u q coils →
      m.line.rx=(writeFrame u q coils).map some++r.2.line.rx →
      ∃ code,r.2.app.calls=m.app.calls++[⟨writtenType (writeFrame u q coils),
        writtenValue overshift (writeFrame u q coils),code⟩] := by
    intro u q coils hf hrx
    have harr := congrArg arrivals hrx
    rw [arrivals_append] at harr
    exact poll_write overshift ps hf harr hexit
  rcases exit_calls overshift ps hexit with hnone | ⟨u,q,coils,hf,hrx⟩
  · have hno : ∀ u q coils,WriteFields u q coils →
        m.line.rx≠(writeFrame u q coils).map some++r.2.line.rx := by
      intro u q coils hf hrx
      obtain ⟨code,hcode⟩ := hcall u q coils hf hrx
      have hlen := congrArg List.length (hnone.symm.trans hcode)
      rw [List.length_append,List.length_singleton] at hlen
      omega
    refine ⟨[],by rw [List.append_nil,hnone],Nat.zero_le 1,?_,?_⟩
    · refine iff_of_false (fun h => h rfl) ?_
      rintro ⟨u,q,coils,hf,hrx⟩
      exact hno u q coils hf hrx
    · exact fun u q coils hf hrx => absurd hrx (hno u q coils hf)
  · obtain ⟨code,hcode⟩ := hcall u q coils hf hrx
    refine ⟨_,hcode,le_rfl,iff_of_true (List.cons_ne_nil _ _) ⟨u,q,coils,hf,hrx⟩,?_⟩
    intro u' q' coils' hf' hrx' h18
    obtain ⟨code',hcode'⟩ := hcall u' q' coils' hf' hrx'
    refine ⟨_,List.append_cancel_left (hcode.symm.trans hcode'),?_,?_⟩
    · rw [writtenType,dataTypeOf_toNat,coilsOf_writeFrame hf',coilsOf_writeFrame hf']
    · have hq : (wordAt (writeFrame u' q' coils') 4).toNat=q' := writeFrame_quantity hf'
      have hlow := hf'.low
      rw [writtenValue,hq,valueOf_small overshift _ (by omega) h18]
      exact digitsValue_congr (coilsOf_writeFrame hf') 2 (q'-2)

end CyclotronPico.WriteFrames
