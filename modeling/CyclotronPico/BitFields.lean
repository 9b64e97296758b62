import CyclotronPico.BitBuffer
import Mathlib.Data.List.Range
import Mathlib.Data.Nat.Bitwise

/-!
# Bit fields of the supply's frames

The helpers with which the 200A supply reads and writes its two frames:
single bits at a running position, fields that may straddle bytes, and the
in-place reversal of a field. Each helper is the source's loop; its theorem
says what the loop does to the map of bits.
-/

namespace CyclotronPico.BitFields

open BitBuffer

variable {n : ℕ}

/-- The loop `while (pos > 7)` that turns a bit position into a byte index
and a position inside the byte. -/
def bytePos (i : ℕ) : ℕ → ℕ×ℕ
  | pos+8 => bytePos (i+1) pos
  | pos => (i,pos)

/-- The loop ends at the quotient and the remainder by eight. -/
theorem bytePos_eq (i pos : ℕ) : bytePos i pos=(i+pos/8,pos%8) := by
  induction pos using Nat.strong_induction_on generalizing i with
  | _ pos ih =>
    by_cases h : 8≤pos
    · obtain ⟨rest,rfl⟩ := Nat.exists_eq_add_of_le h
      rw [Nat.add_comm 8 rest,bytePos,ih rest (by omega)]
      exact Prod.ext (by dsimp only; omega) (by dsimp only; omega)
    · have hb : bytePos i pos=(i,pos) := by
        unfold bytePos
        split
        · omega
        · rfl
      rw [hb]
      exact Prod.ext (by dsimp only; omega) (by dsimp only; omega)

/-- Read one bit. -/
def getBit (buf : Vector Byte n) (pos : ℕ) : Bool :=
  let place := bytePos 0 pos
  decide ((buf[place.1]?).getD 0#8&&&(1#8)<<<place.2≠0#8)

/-- Write one bit, toggling it only when it differs. -/
def setBit (buf : Vector Byte n) (pos : ℕ) (value : Bool) : Vector Byte n :=
  let place := bytePos 0 pos
  let byte := (buf[place.1]?).getD 0#8
  let crrVal := decide (byte&&&(1#8)<<<place.2≠0#8)
  if crrVal≠value then buf.setIfInBounds place.1 (byte^^^(1#8)<<<place.2) else buf

/-- An index inside the buffer is written as it stands. -/
theorem setIfInBounds_of_lt {buf : Vector Byte n} {i : ℕ} (hi : i<n) (b : Byte) :
    buf.setIfInBounds i b=buf.set i b := by
  apply Vector.ext
  intro j hj
  rw [Vector.getElem_setIfInBounds,Vector.getElem_set]

/-- Reading a bit is reading the map of bits. -/
theorem getBit_eq (buf : Vector Byte n) (pos : ℕ) : getBit buf pos=bitAt buf pos := by
  rw [getBit,bytePos_eq]
  dsimp only
  rw [Nat.zero_add,and_mask]
  rfl

/-- Writing a bit of the buffer updates the map of bits there and nowhere else. -/
theorem bitAt_setBit {buf : Vector Byte n} {pos : ℕ} (h : pos<8*n) (value : Bool) :
    bitAt (setBit buf pos value)=Function.update (bitAt buf) pos value := by
  have hi : pos/8<n := by omega
  have hm : pos%8<8 := Nat.mod_lt _ (by omega)
  have hp : 8*(pos/8)+pos%8=pos := Nat.div_add_mod pos 8
  funext q
  rw [setBit,bytePos_eq]
  dsimp only
  rw [Nat.zero_add,and_mask,Vector.getElem?_eq_getElem hi,Option.getD_some,←bitAt_of_lt hi]
  split
  · rename_i hne
    rw [setIfInBounds_of_lt hi,bitAt_toggle hi hm,hp]
    by_cases hq : q=pos
    · subst hq
      rw [Function.update_self,decide_eq_true rfl,Bool.xor_true]
      exact (Bool.eq_not_of_ne (Ne.symm hne)).symm
    · rw [Function.update_of_ne hq,decide_eq_false hq,Bool.xor_false]
  · rename_i he
    by_cases hq : q=pos
    · subst hq
      rw [Function.update_self]
      exact not_not.mp he
    · rw [Function.update_of_ne hq]

/-- One exchange of the reversal loop. -/
def revarseStep (pos len : ℕ) (buf : Vector Byte n) (i : ℕ) : Vector Byte n :=
  let swp := getBit buf (pos+i)
  let buf := setBit buf (pos+i) (getBit buf (pos+len-1-i))
  setBit buf (pos+len-1-i) swp

/-- Reverse the bits of a field in place. -/
def revarseBits (buf : Vector Byte n) (pos len : ℕ) : Vector Byte n :=
  (List.range (len/2)).foldl (revarseStep pos len) buf

/-- After `k` exchanges the outer `k` bits on each side are mirrored. -/
theorem bitAt_revarse_outer {buf : Vector Byte n} {pos len : ℕ} (h : pos+len≤8*n)
    {k : ℕ} (hk : k≤len/2) (q : ℕ) :
    bitAt ((List.range k).foldl (revarseStep pos len) buf) q=
      if (pos≤q ∧ q<pos+k) ∨ (pos+len-k≤q ∧ q<pos+len)
        then bitAt buf (pos+(len-1-(q-pos))) else bitAt buf q := by
  induction k generalizing q with
  | zero =>
    rw [if_neg (by omega)]
    rfl
  | succ k ih =>
    rw [List.range_succ,List.foldl_append,List.foldl_cons,List.foldl_nil]
    unfold revarseStep
    dsimp only
    rw [bitAt_setBit (by omega),bitAt_setBit (by omega),getBit_eq,getBit_eq]
    exact swap_reverse (bitAt buf) (by omega) q _ (ih (by omega))

/-- Reversing a field sends each bit to its mirror position and changes
nothing outside the field. -/
theorem bitAt_revarseBits {buf : Vector Byte n} {pos len : ℕ} (h : pos+len≤8*n) :
    bitAt (revarseBits buf pos len)=reverseRange (bitAt buf) pos len := by
  funext q
  rw [revarseBits,reverseRange,bitAt_revarse_outer h le_rfl]
  by_cases hq : pos≤q ∧ q<pos+len
  · rw [if_pos hq]
    split
    · rfl
    · congr 1
      omega
  · rw [if_neg hq,if_neg (by omega)]

/-- One round of the reading loop: shift the value and add the next bit. -/
def readStep (buf : Vector Byte n) (pos len : ℕ) (val : Word) (i : ℕ) : Word :=
  (val<<<1)+BitVec.ofNat 16 (getBit buf (pos+len-1-i)).toNat

/-- Read a field, most significant bit first. -/
def readUint (buf : Vector Byte n) (pos len : ℕ) : Word :=
  (List.range len).foldl (readStep buf pos len) 0#16

/-- A round doubles the value and adds the bit while there is room for it. -/
theorem readStep_toNat (buf : Vector Byte n) (pos len : ℕ) {val : Word} {k : ℕ}
    (hk : k<16) (hv : val.toNat<2^k) :
    (readStep buf pos len val k).toNat=2*val.toNat+(bitAt buf (pos+len-1-k)).toNat := by
  have hp : 2^k≤2^15 := Nat.pow_le_pow_right (by omega) (by omega)
  have hb := Bool.toNat_le (bitAt buf (pos+len-1-k))
  rw [readStep,getBit_eq,BitVec.toNat_add,BitVec.toNat_shiftLeft,BitVec.toNat_ofNat,
    Nat.shiftLeft_eq]
  omega

/-- After `k` rounds the value has `k` digits: the top `k` bits of the field. -/
theorem readUint_rounds (buf : Vector Byte n) (pos : ℕ) {len k : ℕ} (hk : k≤16) (hl : k≤len) :
    ((List.range k).foldl (readStep buf pos len) 0#16).toNat<2^k ∧
      ∀ i,i<k → ((List.range k).foldl (readStep buf pos len) 0#16).toNat.testBit i=
        bitAt buf (pos+len-k+i) := by
  induction k with
  | zero => exact ⟨Nat.one_pos,fun i hi => absurd hi (Nat.not_lt_zero i)⟩
  | succ k ih =>
    obtain ⟨hlt,hbits⟩ := ih (by omega) (by omega)
    have hstep := readStep_toNat buf pos len (by omega : k<16) hlt
    have hb := Bool.toNat_le (bitAt buf (pos+len-1-k))
    rw [List.range_succ,List.foldl_append,List.foldl_cons,List.foldl_nil,hstep]
    refine ⟨by rw [Nat.pow_succ]; omega,?_⟩
    intro i hi
    cases i with
    | zero =>
      have hpos : pos+len-(k+1)+0=pos+len-1-k := by omega
      rw [hpos,Nat.testBit_zero]
      cases bitAt buf (pos+len-1-k) <;> simp
    | succ i =>
      have hpos : pos+len-(k+1)+(i+1)=pos+len-k+i := by omega
      rw [hpos,←hbits i (by omega),Nat.testBit_succ]
      congr 1
      omega

/-- A field of at most sixteen bits is read below `2^len`. -/
theorem readUint_lt (buf : Vector Byte n) (pos : ℕ) {len : ℕ} (h : len≤16) :
    (readUint buf pos len).toNat<2^len :=
  (readUint_rounds buf pos h le_rfl).1

/-- The bits read are the bits of the field. -/
theorem readUint_bit (buf : Vector Byte n) (pos : ℕ) {len : ℕ} (h : len≤16) {i : ℕ}
    (hi : i<len) : (readUint buf pos len).getLsbD i=bitAt buf (pos+i) := by
  have hb := (readUint_rounds buf pos h le_rfl).2 i hi
  rw [Nat.add_sub_cancel] at hb
  exact hb

/-- One round of the writing loop: write the bit under the mask, move the mask up. -/
def writeStep (val : Word) (pos : ℕ) (state : Vector Byte n×BitVec 32) (i : ℕ) :
    Vector Byte n×BitVec 32 :=
  if val.setWidth 32&&&state.2≠0#32 then (setBit state.1 (pos+i) true,state.2<<<1)
  else (setBit state.1 (pos+i) false,state.2<<<1)

/-- Write a field, least significant bit first; a sixteen-bit field may
then have the bits of each of its bytes reversed. -/
def setUint (buf : Vector Byte n) (val : Word) (pos len : ℕ) (revarse : Bool) : Vector Byte n :=
  let buf := ((List.range len).foldl (writeStep val pos) (buf,1#32)).1
  if revarse=true then revarseBits (revarseBits buf pos 8) (pos+8) 8 else buf

/-- A round writes one bit of the value. -/
theorem writeStep_eq (val : Word) (pos : ℕ) (buf : Vector Byte n) (k : ℕ) :
    writeStep val pos (buf,(1#32)<<<k) k=(setBit buf (pos+k) (val.getLsbD k),(1#32)<<<(k+1)) := by
  have hm := and_mask (val.setWidth 32) k
  have hb : (val.setWidth 32).getLsbD k=val.getLsbD k := by
    rw [BitVec.getLsbD_setWidth]
    by_cases hk : k<32
    · rw [decide_eq_true hk,Bool.true_and]
    · rw [decide_eq_false hk,Bool.false_and,BitVec.getLsbD_of_ge val k (by omega)]
  have hs : (1#32)<<<k<<<1=(1#32)<<<(k+1) := (BitVec.shiftLeft_add _ _ _).symm
  rw [hb] at hm
  rw [writeStep]
  dsimp only
  rw [hs]
  cases hv : val.getLsbD k with
  | true => rw [if_pos (of_decide_eq_true (hm.trans hv))]
  | false => rw [if_neg (of_decide_eq_false (hm.trans hv))]

/-- After `k` rounds the first `k` positions hold the low `k` bits of the value. -/
theorem setUint_rounds {buf : Vector Byte n} (val : Word) {pos k : ℕ} (h : pos+k≤8*n) :
    ((List.range k).foldl (writeStep val pos) (buf,1#32)).2=(1#32)<<<k ∧
      bitAt ((List.range k).foldl (writeStep val pos) (buf,1#32)).1=
        writeRange (bitAt buf) pos k val.getLsbD := by
  induction k with
  | zero =>
    refine ⟨rfl,?_⟩
    funext q
    rw [writeRange,if_neg (by omega)]
    rfl
  | succ k ih =>
    obtain ⟨hmask,hbits⟩ := ih (by omega)
    rw [List.range_succ,List.foldl_append,List.foldl_cons,List.foldl_nil,
      show (List.range k).foldl (writeStep val pos) (buf,1#32)=
      (((List.range k).foldl (writeStep val pos) (buf,1#32)).1,(1#32)<<<k) from
        Prod.ext rfl hmask,writeStep_eq]
    refine ⟨rfl,?_⟩
    dsimp only
    rw [bitAt_setBit (by omega),hbits]
    funext q
    by_cases hq : q=pos+k
    · subst hq
      rw [Function.update_self,writeRange,if_pos (by omega),Nat.add_sub_cancel_left]
    · rw [Function.update_of_ne hq,writeRange,writeRange]
      by_cases hr : pos≤q ∧ q<pos+k
      · rw [if_pos hr,if_pos (by omega)]
      · rw [if_neg hr,if_neg (by omega)]

/-- Writing a field without reversal writes the bits of the value and
changes nothing outside the field. -/
theorem bitAt_setUint {buf : Vector Byte n} (val : Word) {pos len : ℕ} (h : pos+len≤8*n) :
    bitAt (setUint buf val pos len false)=writeRange (bitAt buf) pos len val.getLsbD := by
  unfold setUint
  dsimp only
  rw [if_neg Bool.false_ne_true]
  exact (setUint_rounds val h).2

/-- A sixteen-bit field written with reversal holds the bits of the low byte
from the top of its first byte down, then the bits of the high byte. -/
theorem bitAt_setUint_revarse {buf : Vector Byte n} (val : Word) {pos : ℕ} (h : pos+16≤8*n) :
    bitAt (setUint buf val pos 16 true)=
      reverseRange (reverseRange (writeRange (bitAt buf) pos 16 val.getLsbD) pos 8) (pos+8) 8 := by
  unfold setUint
  dsimp only
  rw [if_pos rfl,bitAt_revarseBits (by omega),bitAt_revarseBits (by omega),
    (setUint_rounds val h).2]

/-- Bit by bit: position `pos+7-i` takes bit `i` and position `pos+15-i`
takes bit `8+i` of the value; nothing else changes. -/
theorem setUint_revarse_bit {buf : Vector Byte n} (val : Word) {pos : ℕ} (h : pos+16≤8*n)
    (q : ℕ) :
    bitAt (setUint buf val pos 16 true) q=
      if pos≤q ∧ q<pos+8 then val.getLsbD (7-(q-pos))
      else if pos+8≤q ∧ q<pos+16 then val.getLsbD (15-(q-(pos+8)))
      else bitAt buf q := by
  rw [bitAt_setUint_revarse val h]
  unfold reverseRange writeRange
  by_cases hlow : pos≤q ∧ q<pos+8
  · have hout : ¬(pos+8≤q ∧ q<pos+8+8) := by omega
    have hin : pos≤pos+(8-1-(q-pos)) ∧ pos+(8-1-(q-pos))<pos+16 := by omega
    rw [if_neg hout,if_pos hlow,if_pos hin,if_pos hlow]
    congr 1
    omega
  · by_cases hhigh : pos+8≤q ∧ q<pos+16
    · have hout : pos+8≤q ∧ q<pos+8+8 := by omega
      have hmid : ¬(pos≤pos+8+(8-1-(q-(pos+8))) ∧ pos+8+(8-1-(q-(pos+8)))<pos+8) := by omega
      have hin : pos≤pos+8+(8-1-(q-(pos+8))) ∧ pos+8+(8-1-(q-(pos+8)))<pos+16 := by omega
      rw [if_pos hout,if_neg hmid,if_pos hin,if_neg hlow,if_pos hhigh]
      congr 1
      omega
    · have hout : ¬(pos+8≤q ∧ q<pos+8+8) := by omega
      have hin : ¬(pos≤q ∧ q<pos+16) := by omega
      rw [if_neg hout,if_neg hlow,if_neg hin,if_neg hlow,if_neg hhigh]

/-! ### Writing and reading back -/

/-- A field that is written is read back, as far as it fits. -/
theorem readUint_setUint {buf : Vector Byte n} (val : Word) {pos len : ℕ} (hlen : len≤16)
    (h : pos+len≤8*n) : (readUint (setUint buf val pos len false) pos len).toNat=val.toNat%2^len := by
  apply Nat.eq_of_testBit_eq
  intro i
  rw [Nat.testBit_mod_two_pow]
  by_cases hi : i<len
  · have hbit := readUint_bit (setUint buf val pos len false) pos hlen hi
    rw [bitAt_setUint val h,writeRange,if_pos (by omega),Nat.add_sub_cancel_left] at hbit
    rw [decide_eq_true hi,Bool.true_and]
    exact hbit
  · have hlt := readUint_lt (setUint buf val pos len false) pos hlen
    have hpow : 2^len≤2^i := Nat.pow_le_pow_right (by omega) (by omega)
    rw [decide_eq_false hi,Bool.false_and]
    exact Nat.testBit_lt_two_pow (by omega)

/-- Reversing a field twice restores the buffer. -/
theorem revarseBits_revarseBits {buf : Vector Byte n} {pos len : ℕ} (h : pos+len≤8*n) :
    revarseBits (revarseBits buf pos len) pos len=buf := by
  apply ext_bitAt
  intro q _
  rw [bitAt_revarseBits h,bitAt_revarseBits h,reverseRange_reverseRange]

/-- A field that is written with its bytes reversed is read back once they are
reversed again. -/
theorem readUint_setUint_revarse {buf : Vector Byte n} (val : Word) {pos : ℕ} (h : pos+16≤8*n) :
    readUint (revarseBits (revarseBits (setUint buf val pos 16 true) pos 8) (pos+8) 8) pos 16=
      val := by
  apply BitVec.eq_of_getLsbD_eq
  intro i hi
  rw [readUint_bit _ pos le_rfl hi,bitAt_revarseBits (by omega),bitAt_revarseBits (by omega),
    reverseRange]
  by_cases h8 : i<8
  · have hout : ¬(pos+8≤pos+i ∧ pos+i<pos+8+8) := by omega
    have hin : pos≤pos+i ∧ pos+i<pos+8 := by omega
    have hmirror : pos+(8-1-(pos+i-pos))=pos+(7-i) := by omega
    have hplace : pos≤pos+(7-i) ∧ pos+(7-i)<pos+8 := by omega
    have hback : 7-(pos+(7-i)-pos)=i := by omega
    rw [if_neg hout,reverseRange,if_pos hin,hmirror,setUint_revarse_bit val h,if_pos hplace,hback]
  · have hin : pos+8≤pos+i ∧ pos+i<pos+8+8 := by omega
    have hmirror : pos+8+(8-1-(pos+i-(pos+8)))=pos+8+(15-i) := by omega
    have hmid : ¬(pos≤pos+8+(15-i) ∧ pos+8+(15-i)<pos+8) := by omega
    have hplace : pos+8≤pos+8+(15-i) ∧ pos+8+(15-i)<pos+16 := by omega
    have hback : 15-(pos+8+(15-i)-(pos+8))=i := by omega
    rw [if_pos hin,hmirror,reverseRange,if_neg hmid,setUint_revarse_bit val h,if_neg hmid,
      if_pos hplace,hback]

/-- Writing and reading a field are inverse and local, and so is reversing
one, at every position of every buffer. -/
theorem fields_inverse_and_local (buf : Vector Byte n) (pos : ℕ) :
    (∀ (val : Word) (len : ℕ),len≤16 → pos+len≤8*n →
      (readUint (setUint buf val pos len false) pos len).toNat=val.toNat%2^len ∧
      ∀ q,q<pos ∨ pos+len≤q → bitAt (setUint buf val pos len false) q=bitAt buf q) ∧
    (∀ len : ℕ,pos+len≤8*n →
      (∀ i,i<len → bitAt (revarseBits buf pos len) (pos+len-1-i)=bitAt buf (pos+i)) ∧
      (∀ q,q<pos ∨ pos+len≤q → bitAt (revarseBits buf pos len) q=bitAt buf q) ∧
      revarseBits (revarseBits buf pos len) pos len=buf) ∧
    (∀ val : Word,pos+16≤8*n →
      (∀ i,i<8 → bitAt (setUint buf val pos 16 true) (pos+7-i)=val.getLsbD i ∧
        bitAt (setUint buf val pos 16 true) (pos+15-i)=val.getLsbD (8+i)) ∧
      (∀ q,q<pos ∨ pos+16≤q → bitAt (setUint buf val pos 16 true) q=bitAt buf q) ∧
      readUint (revarseBits (revarseBits (setUint buf val pos 16 true) pos 8) (pos+8) 8) pos 16=
        val) := by
  refine ⟨?_,?_,?_⟩
  · intro val len hlen h
    refine ⟨readUint_setUint val hlen h,fun q hq => ?_⟩
    rw [bitAt_setUint val h,writeRange,if_neg (by omega)]
  · intro len h
    refine ⟨fun i hi => ?_,fun q hq => ?_,revarseBits_revarseBits h⟩
    · have hback : pos+(len-1-(pos+len-1-i-pos))=pos+i := by omega
      rw [bitAt_revarseBits h,reverseRange,if_pos (by omega),hback]
    · rw [bitAt_revarseBits h,reverseRange,if_neg (by omega)]
  · intro val h
    refine ⟨fun i hi => ⟨?_,?_⟩,fun q hq => ?_,readUint_setUint_revarse val h⟩
    · have hback : 7-(pos+7-i-pos)=i := by omega
      rw [setUint_revarse_bit val h,if_pos (by omega),hback]
    · have hback : 15-(pos+15-i-(pos+8))=8+i := by omega
      rw [setUint_revarse_bit val h,if_neg (by omega),if_pos (by omega),hback]
    · rw [setUint_revarse_bit val h,if_neg (by omega),if_neg (by omega)]

end CyclotronPico.BitFields
