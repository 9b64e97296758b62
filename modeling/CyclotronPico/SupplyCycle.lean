import CyclotronPico.Supply200A

/-!
# A communication cycle of the 200 A supply

What one exchange and one whole cycle do to the state of the driver, in
terms of the bits of the frame to be sent: the two confirmation bits, the
set point with its bytes reversed, and the answers of the supply in the
order in which they come.
-/

namespace CyclotronPico.SupplyCycle

open BitBuffer BitFields FloatRounding SupplyInterface Supply200A

/-! ### The frame to be sent -/

/-- A frame with both confirmation bits written. -/
def confirm (st : Bool) (out : Vector Byte 4) : Vector Byte 4 :=
  setBit (setBit out psOUTConfirmCurrentWrite1Pos st) psOUTConfirmCurrentWrite2Pos st

/-- The bytes of a frame as they are clocked out: the first one three times. -/
def wire (out : Vector Byte 4) : List Byte := [out[0],out[0],out[0],out[1],out[2],out[3]]

/-- The bits of a byte in reverse order. -/
def rev8 (b : Byte) : Byte := b.reverse

/-- A sixteen-bit set point from its two bytes as they are sent, low byte first. -/
def setPointOf (b0 b1 : Byte) : Word := BitVec.ofNat 16 ((rev8 b0).toNat+256*(rev8 b1).toNat)

/-- The set point a frame holds. -/
def setPoint (out : Vector Byte 4) : Word := setPointOf out[0] out[1]

/-- Writing the confirmation bits changes no other bit. -/
theorem confirm_bit (st : Bool) (out : Vector Byte 4) (q : ℕ) :
    bitAt (confirm st out) q=if q=21 ∨ q=23 then st else bitAt out q := by
  rw [confirm,psOUTConfirmCurrentWrite1Pos,psOUTConfirmCurrentWrite2Pos,bitAt_setBit (by omega),
    bitAt_setBit (by omega)]
  by_cases h23 : q=23
  · rw [h23,Function.update_self,if_pos (Or.inr rfl)]
  · rw [Function.update_of_ne (by omega)]
    by_cases h21 : q=21
    · rw [h21,Function.update_self,if_pos (Or.inl rfl)]
    · rw [Function.update_of_ne (by omega),if_neg (not_or.mpr ⟨h21,h23⟩)]

/-- The last confirmation wins. -/
theorem confirm_confirm (st st' : Bool) (out : Vector Byte 4) :
    confirm st (confirm st' out)=confirm st out := by
  apply ext_bitAt
  intro q _
  rw [confirm_bit,confirm_bit,confirm_bit]
  split <;> rfl

/-- The bits of a set point: each byte from its top bit down. -/
theorem setPoint_bit (out : Vector Byte 4) {i : ℕ} (hi : i<16) :
    (setPoint out).getLsbD i=bitAt out (if i<8 then 7-i else 23-i) := by
  have hrev : ∀ (b : Byte) {j : ℕ},j<8 → (rev8 b).toNat.testBit j=b.getLsbD (7-j) := by
    intro b j hj
    have hbit : (rev8 b).getLsbD j=b.getMsbD j := BitVec.getLsbD_reverse
    rw [BitVec.getMsbD_eq_getLsbD,decide_eq_true hj,Bool.true_and] at hbit
    exact hbit
  have hsum := Nat.testBit_two_pow_mul_add (rev8 out[1]).toNat (rev8 out[0]).isLt i
  have hlt : (rev8 out[0]).toNat+256*(rev8 out[1]).toNat<2^16 := by
    have h0 := (rev8 out[0]).isLt
    have h1 := (rev8 out[1]).isLt
    omega
  rw [Nat.add_comm (2^8*(rev8 out[1]).toNat)] at hsum
  rw [setPoint,setPointOf,BitVec.getLsbD,BitVec.toNat_ofNat,Nat.mod_eq_of_lt hlt]
  refine hsum.trans ?_
  by_cases h8 : i<8
  · rw [if_pos h8,if_pos h8,hrev _ h8]
    have hb : bitAt out (8*0+(7-i))=out[0].getLsbD (7-i) := bitAt_byte (by omega) (by omega)
    rw [←hb,Nat.mul_zero,Nat.zero_add]
  · rw [if_neg h8,if_neg h8,hrev _ (by omega)]
    have hb : bitAt out (8*1+(7-(i-8)))=out[1].getLsbD (7-(i-8)) :=
      bitAt_byte (by omega) (by omega)
    have hq : 8*1+(7-(i-8))=23-i := by omega
    rw [←hb,hq]

/-- Frames that agree on the bits of the set point hold the same set point. -/
theorem setPoint_congr {a b : Vector Byte 4} (h : ∀ q,q<16 → bitAt a q=bitAt b q) :
    setPoint a=setPoint b := by
  apply BitVec.eq_of_getLsbD_eq
  intro i hi
  rw [setPoint_bit a hi,setPoint_bit b hi]
  split
  · exact h _ (by omega)
  · exact h _ (by omega)

/-- Writing the confirmation bits keeps the set point. -/
theorem setPoint_confirm (st : Bool) (out : Vector Byte 4) :
    setPoint (confirm st out)=setPoint out := by
  apply setPoint_congr
  intro q hq
  rw [confirm_bit,if_neg (by omega)]

/-- A frame into which a set point is written holds it. -/
theorem setPoint_setUint (out : Vector Byte 4) (val : Word) :
    setPoint (setUint out val psOUTCurrentPos psOUTCurrentLen true)=val := by
  apply BitVec.eq_of_getLsbD_eq
  intro i hi
  rw [psOUTCurrentPos,psOUTCurrentLen,setPoint_bit _ hi,setUint_revarse_bit val (by omega)]
  by_cases h8 : i<8
  · have hlow : 0≤7-i ∧ 7-i<0+8 := by omega
    rw [if_pos h8,if_pos hlow]
    congr 1
    omega
  · have hlow : ¬(0≤23-i ∧ 23-i<0+8) := by omega
    have hhigh : 0+8≤23-i ∧ 23-i<0+16 := by omega
    rw [if_neg h8,if_neg hlow,if_pos hhigh]
    congr 1
    omega

/-- Writing a set point changes none of the other bits. -/
theorem setUint_other (out : Vector Byte 4) (val : Word) {q : ℕ} (hq : 16≤q) :
    bitAt (setUint out val psOUTCurrentPos psOUTCurrentLen true) q=bitAt out q := by
  rw [psOUTCurrentPos,psOUTCurrentLen,setUint_revarse_bit val (by omega),if_neg (by omega),
    if_neg (by omega)]

/-! ### One exchange -/

/-- The two confirmation bits are the only thing `setCurrentWrite` writes. -/
theorem setCurrentWrite_eq (p : PowerSupply200A) (st : Bool) :
    setCurrentWrite p st={p with psBufOut := confirm st p.psBufOut} := rfl

/-- The words of an exchange: the answer comes in whole, and the frame goes out. -/
theorem exchange_words (out : Vector Byte 4) (answer old : Vector Byte 6) :
    (List.range (max bufLenOut bufLenIn)).foldl (exchangeWord out answer) (old,[])=
      (answer,wire out) := by
  have hwords : List.range (max bufLenOut bufLenIn)=[0,1,2,3,4,5] := rfl
  rw [hwords]
  simp only [List.foldl_cons,List.foldl_nil,exchangeWord]
  refine Prod.ext ?_ rfl
  apply Vector.ext
  intro i hi
  simp only [Vector.getElem_setIfInBounds]
  interval_cases i <;> rfl

/-- One exchange: the frame goes out, the answer comes in, the frame is disarmed. -/
theorem comunicateWithPS_eq (p : PowerSupply200A) :
    comunicateWithPS p={p with
      psBufOut := confirm false p.psBufOut
      psBufIn := p.psSpi.reply p.psSpi.sent.length
      psSpi := ⟨p.psSpi.reply,p.psSpi.sent++[wire p.psBufOut]⟩} := by
  rw [comunicateWithPS]
  dsimp only
  rw [exchange_words,setCurrentWrite_eq]

/-! ### Five samples -/

variable (fp : FloatUnit)

/-- The largest value of a field is a float without rounding error. -/
theorem maxPossibleValue_eq {len : ℕ} (h : len≤24) :
    maxPossibleValue fp len=(2^len-1 : ℕ) := by
  have hpos : 1≤2^len := Nat.one_le_two_pow
  have hle : 2^len≤2^24 := Nat.pow_le_pow_right (by omega) h
  have hcast : (((1<<<len : ℕ) : ℤ)-1 : ℤ)=((2^len-1 : ℕ) : ℤ) := by
    rw [Nat.one_shiftLeft,Nat.cast_sub hpos,Nat.cast_one]
  rw [maxPossibleValue,hcast,Int.cast_natCast]
  exact fp.float.round_natCast (by omega)

/-- The current in an answer, as `freadCurrent` computes it. -/
def measured (answer : Vector Byte 6) : ℚ :=
  freadCurrent fp ⟨Vector.replicate 4 0#8,answer,⟨fun _ => answer,[]⟩,0,0#16⟩

/-- The running sum of the samples of a cycle that starts with answer `n`. -/
def summed (reply : ℕ → Vector Byte 6) (n : ℕ) : ℕ → ℚ
  | 0 => 0
  | k+1 => fp.float.round (summed reply n k+measured fp (reply (n+k)))

/-- The average of the samples of a cycle. -/
def averaged (reply : ℕ → Vector Byte 6) (n : ℕ) : ℚ :=
  fp.float.round (summed fp reply n 5/(5 : ℕ))

/-- The driver after `k+1` exchanges of a cycle. -/
def sampled (p : PowerSupply200A) (k : ℕ) : PowerSupply200A where
  psBufOut := confirm false p.psBufOut
  psBufIn := p.psSpi.reply (p.psSpi.sent.length+k)
  psSpi := ⟨p.psSpi.reply,p.psSpi.sent++wire p.psBufOut::
    List.replicate k (wire (confirm false p.psBufOut))⟩
  avrgCurrent := summed fp p.psSpi.reply p.psSpi.sent.length (k+1)
  currentSet := p.currentSet

/-- The sample of an exchange is read from its answer alone. -/
theorem freadCurrent_eq (p : PowerSupply200A) : freadCurrent fp p=measured fp p.psBufIn := rfl

/-- The first exchange of a cycle sends the frame as it stands. -/
theorem sampled_first (p : PowerSupply200A) :
    comunicateAndSample fp {p with avrgCurrent := 0}=sampled fp p 0 := by
  unfold comunicateAndSample
  dsimp only
  rw [freadCurrent_eq,comunicateWithPS_eq]
  rfl

/-- Each further exchange sends the disarmed frame. -/
theorem sampled_next (p : PowerSupply200A) (k : ℕ) :
    comunicateAndSample fp (sampled fp p k)=sampled fp p (k+1) := by
  have hlen : (p.psSpi.sent++wire p.psBufOut::
      List.replicate k (wire (confirm false p.psBufOut))).length=p.psSpi.sent.length+(k+1) := by
    rw [List.length_append,List.length_cons,List.length_replicate]
  have hsent : p.psSpi.sent++wire p.psBufOut::List.replicate k (wire (confirm false p.psBufOut))++
      [wire (confirm false p.psBufOut)]=p.psSpi.sent++wire p.psBufOut::
        List.replicate (k+1) (wire (confirm false p.psBufOut)) := by
    rw [List.append_assoc,List.cons_append,List.replicate_succ']
  unfold comunicateAndSample
  dsimp only
  rw [freadCurrent_eq,comunicateWithPS_eq,sampled]
  dsimp only
  rw [hlen,hsent,confirm_confirm]
  rfl

/-! ### The whole cycle -/

/-- The driver after the five exchanges of a cycle, with its average. -/
def averagedState (p : PowerSupply200A) : PowerSupply200A :=
  {sampled fp p 4 with avrgCurrent := averaged fp p.psSpi.reply p.psSpi.sent.length}

/-- The fifth answer of a cycle reports remote control. -/
def remoteFifth (p : PowerSupply200A) : Bool :=
  bitAt (p.psSpi.reply (p.psSpi.sent.length+4)) psStatusRemoteControlPos

/-- The set point that a cycle under local control copies from the supply:
the averaged current in the unit of the set point. -/
def copied (p : PowerSupply200A) : Word :=
  toUint16 (avrgCurrentScaled fp (averagedState fp p) psOUTCurrentLen)

/-- The frame that a cycle under local control sends last. -/
def mirrored (p : PowerSupply200A) : Vector Byte 4 :=
  setUint (confirm true (setBit (confirm true (confirm false p.psBufOut)) psOUTPowerCircuitPos
    (bitAt (p.psSpi.reply (p.psSpi.sent.length+4)) psStatusPowerCircuitPos)))
    (copied fp p) psOUTCurrentPos psOUTCurrentLen true

/-- The driver after a cycle under local control. -/
def mirroredState (p : PowerSupply200A) : PowerSupply200A where
  psBufOut := confirm false (mirrored fp p)
  psBufIn := p.psSpi.reply (p.psSpi.sent.length+5)
  psSpi := ⟨p.psSpi.reply,p.psSpi.sent++wire p.psBufOut::
    List.replicate 4 (wire (confirm false p.psBufOut))++[wire (mirrored fp p)]⟩
  avrgCurrent := averaged fp p.psSpi.reply p.psSpi.sent.length
  currentSet := p.currentSet

/-- A cycle is five exchanges, and a sixth under local control. -/
theorem safeCommunicationWithPS_eq (p : PowerSupply200A) :
    safeCommunicationWithPS fp p=
      if remoteFifth p=true then averagedState fp p else mirroredState fp p := by
  have hloop : (List.range' 2 (avrgComponentCount-2)).foldl
      (fun p _ => comunicateAndSample fp p) (sampled fp p 1)=sampled fp p 4 := by
    have hrange : List.range' 2 (avrgComponentCount-2)=[2,3,4] := rfl
    rw [hrange,List.foldl_cons,List.foldl_cons,List.foldl_cons,List.foldl_nil,sampled_next,
      sampled_next,sampled_next]
  have hremote : isRemote (averagedState fp p)=remoteFifth p := getBit_eq _ _
  have hon : isPowerCircuitOn (averagedState fp p)=
      bitAt (p.psSpi.reply (p.psSpi.sent.length+4)) psStatusPowerCircuitPos := getBit_eq _ _
  rw [safeCommunicationWithPS]
  dsimp only
  rw [sampled_first,sampled_next,hloop]
  change (if isRemote (averagedState fp p)=true then averagedState fp p else
    comunicateWithPS (setCurrent
      (setPowerCircuit (averagedState fp p) (isPowerCircuitOn (averagedState fp p)))
      (getLastSetCurrent fp
        (setPowerCircuit (averagedState fp p) (isPowerCircuitOn (averagedState fp p))))))=_
  rw [hremote]
  split
  · rfl
  · rename_i hlocal
    have hset : getLastSetCurrent fp (setPowerCircuit (averagedState fp p)
        (isPowerCircuitOn (averagedState fp p)))=copied fp p :=
      if_neg (by rw [←hremote] at hlocal; exact hlocal)
    have hout : (setCurrent (setPowerCircuit (averagedState fp p)
        (isPowerCircuitOn (averagedState fp p))) (copied fp p)).psBufOut=mirrored fp p := by
      rw [hon]
      rfl
    have hlen : (averagedState fp p).psSpi.sent.length=p.psSpi.sent.length+5 := by
      rw [averagedState,sampled,List.length_append,List.length_cons,List.length_replicate]
    rw [hset,comunicateWithPS_eq,hout,mirroredState]
    have hin : (averagedState fp p).psSpi.reply (averagedState fp p).psSpi.sent.length=
        p.psSpi.reply (p.psSpi.sent.length+5) := by
      rw [hlen]
      rfl
    rw [←hin]
    rfl

/-- After a cycle under local control the frame holds the copied set point. -/
theorem mirroredState_setPoint (p : PowerSupply200A) :
    setPoint (mirroredState fp p).psBufOut=copied fp p :=
  (setPoint_confirm false _).trans (setPoint_setUint _ _)

/-- After a cycle under local control the next cycle starts with the seventh answer. -/
theorem mirroredState_remoteFifth (p : PowerSupply200A) :
    remoteFifth (mirroredState fp p)=
      bitAt (p.psSpi.reply (p.psSpi.sent.length+10)) psStatusRemoteControlPos := by
  have hlen : (mirroredState fp p).psSpi.sent.length=p.psSpi.sent.length+6 := by
    rw [mirroredState,List.length_append,List.length_append,List.length_cons,List.length_replicate,
      List.length_singleton]
  rw [remoteFifth,hlen]
  rfl

end CyclotronPico.SupplyCycle
