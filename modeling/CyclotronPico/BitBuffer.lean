import Mathlib.Data.Nat.Basic
import Mathlib.Logic.Function.Basic
import Mathlib.Order.Basic

/-!
# Bits of a byte buffer

A buffer of bytes is read as a map from bit positions to bits: position `p`
is bit `p%8` of byte `p/8`, least significant bit first. Two buffers with
the same bits are equal, and writing and reversing a range of positions are
operations on the maps.
-/

namespace CyclotronPico.BitBuffer

/-- An eight-bit byte. -/
abbrev Byte := BitVec 8

/-- A sixteen-bit word. -/
abbrev Word := BitVec 16

variable {n : ℕ}

/-- The bit at a position; positions past the buffer read as zero. -/
def bitAt (buf : Vector Byte n) (p : ℕ) : Bool := ((buf[p/8]?).getD 0).getLsbD (p%8)

/-- Inside the buffer the bit is one of an actual byte. -/
theorem bitAt_of_lt {buf : Vector Byte n} {p : ℕ} (h : p/8<n) :
    bitAt buf p=buf[p/8].getLsbD (p%8) := by
  rw [bitAt,Vector.getElem?_eq_getElem h,Option.getD_some]

/-- Past the buffer every bit reads as zero. -/
theorem bitAt_of_le {buf : Vector Byte n} {p : ℕ} (h : n≤p/8) : bitAt buf p=false := by
  rw [bitAt,Vector.getElem?_eq_none h,Option.getD_none]
  exact BitVec.getLsbD_zero

/-- A bit of a byte of the buffer is the bit at its position. -/
theorem bitAt_byte {buf : Vector Byte n} {i j : ℕ} (hi : i<n) (hj : j<8) :
    bitAt buf (8*i+j)=buf[i].getLsbD j := by
  have hd : (8*i+j)/8=i := by omega
  have hm : (8*i+j)%8=j := by omega
  rw [bitAt,hd,hm,Vector.getElem?_eq_getElem hi,Option.getD_some]

/-- A buffer is determined by its bits. -/
theorem ext_bitAt {a b : Vector Byte n} (h : ∀ p,p<8*n → bitAt a p=bitAt b p) : a=b := by
  apply Vector.ext
  intro i hi
  apply BitVec.eq_of_getLsbD_eq
  intro j hj
  rw [←bitAt_byte hi hj,←bitAt_byte hi hj]
  exact h _ (by omega)

/-- The mask `1<<k` has one bit, and none once it is shifted out. -/
theorem mask_bit (w k j : ℕ) : ((1#w)<<<k).getLsbD j=decide (j=k ∧ k<w) := by
  rw [BitVec.getLsbD_shiftLeft,BitVec.getLsbD_one]
  by_cases hj : j=k
  · subst hj
    by_cases hw : j<w <;> simp [hw]
    omega
  · simp [hj]
    omega

/-- Adding a single-bit mask toggles exactly that bit. -/
theorem xor_mask (b : Byte) {k : ℕ} (hk : k<8) (j : ℕ) :
    (b^^^(1#8)<<<k).getLsbD j=Bool.xor (b.getLsbD j) (decide (j=k)) := by
  rw [BitVec.getLsbD_xor,mask_bit,decide_eq_decide.mpr (and_iff_left hk)]

/-- Masking a single bit leaves zero exactly when the bit is clear. -/
theorem and_mask {w : ℕ} (b : BitVec w) (k : ℕ) :
    decide (b&&&(1#w)<<<k≠0#w)=b.getLsbD k := by
  have hbit : ∀ j,(b&&&(1#w)<<<k).getLsbD j=(b.getLsbD j && decide (j=k ∧ k<w)) := by
    intro j
    rw [BitVec.getLsbD_and,mask_bit]
  cases hb : b.getLsbD k with
  | true =>
    have hw : k<w := BitVec.lt_of_getLsbD hb
    have hne : b&&&(1#w)<<<k≠0#w := by
      intro hz
      have hk := hbit k
      rw [hz,hb] at hk
      simp [hw] at hk
    exact decide_eq_true hne
  | false =>
    have hz : b&&&(1#w)<<<k=0#w := by
      apply BitVec.eq_of_getLsbD_eq
      intro j _
      rw [hbit j,BitVec.getLsbD_zero]
      by_cases hj : j=k
      · rw [hj,hb,Bool.false_and]
      · rw [decide_eq_false (fun h => hj h.1),Bool.and_false]
    exact decide_eq_false (not_not.mpr hz)

/-- Toggling one bit of one byte toggles one bit of the buffer. -/
theorem bitAt_toggle {buf : Vector Byte n} {i k : ℕ} (hi : i<n) (hk : k<8) (q : ℕ) :
    bitAt (buf.set i (buf[i] ^^^ (1#8)<<<k)) q=
      Bool.xor (bitAt buf q) (decide (q=8*i+k)) := by
  by_cases hq : q/8<n
  · rw [bitAt_of_lt hq,bitAt_of_lt hq,Vector.getElem_set]
    split
    · rename_i he
      subst he
      rw [xor_mask _ hk]
      congr 1
      exact decide_eq_decide.mpr (by omega)
    · rename_i he
      rw [decide_eq_false (by omega),Bool.xor_false]
  · rw [bitAt_of_le (not_lt.mp hq),bitAt_of_le (not_lt.mp hq),decide_eq_false (by omega)]
    rfl

/-! ### Operations on bit maps -/

/-- Write a range of positions from another map, read from zero. -/
def writeRange (f : ℕ → Bool) (pos len : ℕ) (g : ℕ → Bool) : ℕ → Bool := fun q =>
  if pos≤q ∧ q<pos+len then g (q-pos) else f q

/-- Reverse the order of the bits of a range of positions. -/
def reverseRange (f : ℕ → Bool) (pos len : ℕ) : ℕ → Bool := fun q =>
  if pos≤q ∧ q<pos+len then f (pos+(len-1-(q-pos))) else f q

/-- Reversing a range twice restores the map. -/
theorem reverseRange_reverseRange (f : ℕ → Bool) (pos len : ℕ) :
    reverseRange (reverseRange f pos len) pos len=f := by
  funext q
  unfold reverseRange
  by_cases hq : pos≤q ∧ q<pos+len
  · rw [if_pos hq,if_pos (by omega)]
    congr 1
    omega
  · rw [if_neg hq,if_neg hq]

/-- Exchanging the outermost pair of a range that is reversed between `i`
and its mirror image extends the reversed part by one pair. -/
theorem swap_reverse (f : ℕ → Bool) {pos len i : ℕ} (hi : i<len/2) (q : ℕ)
    (g : ℕ → Bool)
    (hg : ∀ q,g q=if (pos≤q ∧ q<pos+i) ∨ (pos+len-i≤q ∧ q<pos+len)
      then f (pos+(len-1-(q-pos))) else f q) :
    Function.update (Function.update g (pos+i) (g (pos+len-1-i))) (pos+len-1-i) (g (pos+i)) q=
      if (pos≤q ∧ q<pos+(i+1)) ∨ (pos+len-(i+1)≤q ∧ q<pos+len)
        then f (pos+(len-1-(q-pos))) else f q := by
  by_cases hright : q=pos+len-1-i
  · subst hright
    rw [Function.update_self,hg,if_neg (by omega),if_pos (by omega)]
    congr 1
    omega
  · rw [Function.update_of_ne hright]
    by_cases hleft : q=pos+i
    · subst hleft
      rw [Function.update_self,hg,if_neg (by omega),if_pos (by omega)]
      congr 1
      omega
    · rw [Function.update_of_ne hleft,hg]
      by_cases hold : (pos≤q ∧ q<pos+i) ∨ (pos+len-i≤q ∧ q<pos+len)
      · rw [if_pos hold,if_pos (by omega)]
      · rw [if_neg hold,if_neg (by omega)]

end CyclotronPico.BitBuffer
