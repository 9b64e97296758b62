import Mathlib.Data.List.GetD
import Mathlib.Logic.Function.Iterate
import Mathlib.Order.Basic

/-!
# Reflected cyclic redundancy checks

A register is divided by a polynomial bit by bit, least significant bit
first. Taking in a bit is linear over exclusive or, and with the top bit of
the polynomial set a shift loses nothing. A register therefore takes in as
many bits as it is wide without loss, which is why a burst of errors no longer
than the register always shows.
-/

namespace CyclotronPico.Crc

variable {w : ℕ} (poly : BitVec w)

/-- One step of the division. -/
def shift (crc : BitVec w) : BitVec w :=
  if crc.getLsbD 0=true then (crc>>>1)^^^poly else crc>>>1

/-- A register that holds one bit. -/
def unit (w : ℕ) (b : Bool) : BitVec w := if b=true then 1#w else 0#w

/-- Take in a bit. -/
def step (crc : BitVec w) (b : Bool) : BitVec w := shift poly (crc^^^unit w b)

/-- Take in bits, one after the other. -/
def run (crc : BitVec w) (bits : List Bool) : BitVec w := bits.foldl (step poly) crc

/-! ### Linearity -/

/-- Exchanging the middle of four terms. -/
theorem xor_xor_comm (a b c d : BitVec w) : (a^^^b)^^^(c^^^d)=(a^^^c)^^^(b^^^d) := by
  rw [BitVec.xor_assoc,BitVec.xor_assoc,←BitVec.xor_assoc b,←BitVec.xor_assoc c,BitVec.xor_comm b]

/-- A shift is linear. -/
theorem shift_xor (a b : BitVec w) : shift poly (a^^^b)=shift poly a^^^shift poly b := by
  rw [shift,shift,shift,BitVec.getLsbD_xor,BitVec.ushiftRight_xor_distrib]
  cases a.getLsbD 0 <;> cases b.getLsbD 0
  · rfl
  · exact BitVec.xor_assoc _ _ _
  · change a>>>1^^^b>>>1^^^poly=a>>>1^^^poly^^^b>>>1
    rw [BitVec.xor_assoc,BitVec.xor_assoc,BitVec.xor_comm poly]
  · change a>>>1^^^b>>>1=(a>>>1^^^poly)^^^(b>>>1^^^poly)
    rw [xor_xor_comm,BitVec.xor_self,BitVec.xor_zero]

/-- Nothing shifts to nothing. -/
theorem shift_zero : shift poly 0#w=0#w := by
  rw [shift,BitVec.getLsbD_zero,if_neg Bool.false_ne_true,BitVec.zero_ushiftRight]

/-- A sum of bits is a sum of registers. -/
theorem unit_xor (x y : Bool) : unit w (Bool.xor x y)=unit w x^^^unit w y := by
  cases x <;> cases y
  · exact (BitVec.xor_self (x:=0#w)).symm
  · exact (BitVec.zero_xor (x:=1#w)).symm
  · exact (BitVec.xor_zero (x:=1#w)).symm
  · exact (BitVec.xor_self (x:=1#w)).symm

/-- Taking in a bit is linear. -/
theorem step_xor (a b : BitVec w) (x y : Bool) :
    step poly (a^^^b) (Bool.xor x y)=step poly a x^^^step poly b y := by
  rw [step,step,step,unit_xor,xor_xor_comm,shift_xor]

/-- Taking in bits is linear. -/
theorem run_xor (a b : BitVec w) {xs ys : List Bool} (h : xs.length=ys.length) :
    run poly (a^^^b) (List.zipWith Bool.xor xs ys)=run poly a xs^^^run poly b ys := by
  induction xs generalizing ys a b with
  | nil =>
    obtain rfl := List.eq_nil_of_length_eq_zero h.symm
    rfl
  | cons x xs ih =>
    match ys,h with
    | y::ys,h =>
      rw [List.zipWith_cons_cons,run,List.foldl_cons,step_xor]
      exact ih _ _ (Nat.succ.inj h)

/-- Bits that come later are taken in later. -/
theorem run_append (crc : BitVec w) (xs ys : List Bool) :
    run poly crc (xs++ys)=run poly (run poly crc xs) ys := List.foldl_append

/-! ### Registers of bits -/

/-- A register from its bits, the first one least significant. -/
def pack (w : ℕ) (bits : List Bool) : BitVec w := bits.foldr (fun b crc => unit w b^^^crc<<<1) 0#w

/-- The only bit of a register that holds one. -/
theorem unit_getLsbD (b : Bool) {i : ℕ} (hi : i < w) : (unit w b).getLsbD i=(b && decide (i=0)) := by
  rw [unit]
  cases b with
  | false => exact BitVec.getLsbD_zero
  | true =>
    have hw : 0 < w := by omega
    rw [if_pos rfl,BitVec.getLsbD_one,decide_eq_true hw,Bool.true_and]

/-- A register holds the bits it is packed from. -/
theorem pack_getLsbD (bits : List Bool) {i : ℕ} (hi : i < w) :
    (pack w bits).getLsbD i=bits.getD i false := by
  induction bits generalizing i with
  | nil => exact BitVec.getLsbD_zero
  | cons b bits ih =>
    have hcons : pack w (b::bits)=unit w b^^^pack w bits<<<1 := rfl
    rw [hcons,BitVec.getLsbD_xor,unit_getLsbD b hi,BitVec.getLsbD_shiftLeft]
    cases i with
    | zero => simp
    | succ i =>
      rw [Nat.add_sub_cancel,ih (by omega),decide_eq_true hi]
      simp

/-- Bits that fit a register with room to spare survive a shift. -/
theorem shift_pack {bits : List Bool} (h : bits.length < w) :
    shift poly (pack w bits<<<1)=pack w bits := by
  have hlow : (pack w bits<<<1).getLsbD 0=false := by
    rw [BitVec.getLsbD_shiftLeft]
    simp
  rw [shift,hlow,if_neg Bool.false_ne_true]
  apply BitVec.eq_of_getLsbD_eq
  intro i hi
  rw [BitVec.getLsbD_ushiftRight,BitVec.getLsbD_shiftLeft,Nat.add_sub_cancel_left]
  by_cases hlast : 1+i < w
  · simp [hlast]
  · rw [decide_eq_false hlast,Bool.false_and,Bool.false_and,pack_getLsbD bits hi,
      List.getD_eq_default _ _ (by omega)]

/-- Bits that fit a register are added to it before it is shifted. -/
theorem run_eq_shift (crc : BitVec w) {bits : List Bool} (h : bits.length≤w) :
    run poly crc bits=(shift poly)^[bits.length] (crc^^^pack w bits) := by
  induction bits generalizing crc with
  | nil => exact (BitVec.xor_zero (x:=crc)).symm
  | cons b bits ih =>
    have hlt : bits.length < w := h
    have hcons : pack w (b::bits)=unit w b^^^pack w bits<<<1 := rfl
    have hrun : run poly crc (b::bits)=run poly (step poly crc b) bits := rfl
    rw [hrun,ih _ (Nat.le_of_lt hlt),List.length_cons,Function.iterate_succ_apply,hcons,
      ←BitVec.xor_assoc,
      shift_xor,shift_pack poly hlt]
    rfl

/-! ### Detection -/

variable {poly}

/-- With the top bit of the polynomial set a shift loses nothing. -/
theorem shift_eq_zero (hp : poly.msb=true) {crc : BitVec w} (h : shift poly crc=0#w) :
    crc=0#w := by
  rw [shift] at h
  cases hlow : crc.getLsbD 0 with
  | true =>
    rw [hlow,if_pos rfl] at h
    have htop := congrArg BitVec.msb h
    rw [BitVec.msb_xor,hp,BitVec.msb_ushiftRight,decide_eq_true Nat.one_pos,BitVec.msb_zero]
      at htop
    cases htop
  | false =>
    rw [hlow,if_neg Bool.false_ne_true] at h
    apply BitVec.eq_of_getLsbD_eq
    intro i _
    rw [BitVec.getLsbD_zero]
    cases i with
    | zero => exact hlow
    | succ i =>
      have hbit : (crc>>>1).getLsbD i=false := by rw [h,BitVec.getLsbD_zero]
      rw [BitVec.getLsbD_ushiftRight,Nat.add_comm] at hbit
      exact hbit

/-- Nor do several shifts. -/
theorem shifts_eq_zero (hp : poly.msb=true) {crc : BitVec w} {n : ℕ}
    (h : (shift poly)^[n] crc=0#w) : crc=0#w := by
  induction n generalizing crc with
  | zero => exact h
  | succ n ih => exact shift_eq_zero hp (ih h)

/-- Nothing stays nothing. -/
theorem shifts_zero (poly : BitVec w) (n : ℕ) : (shift poly)^[n] 0#w=0#w :=
  Function.iterate_fixed (shift_zero poly) n

/-- A register and as many bits as it is wide leave nothing exactly when they agree. -/
theorem run_eq_zero (hp : poly.msb=true) (crc : BitVec w) {bits : List Bool}
    (h : bits.length≤w) : run poly crc bits=0#w ↔ crc=pack w bits := by
  rw [run_eq_shift poly crc h]
  constructor
  · intro hzero
    exact BitVec.xor_eq_zero_iff.mp (shifts_eq_zero hp hzero)
  · rintro rfl
    rw [BitVec.xor_self,shifts_zero]

/-- Clear bits are shifts. -/
theorem run_false (poly crc : BitVec w) {bits : List Bool} (h : ∀ b∈bits,b=false) :
    run poly crc bits=(shift poly)^[bits.length] crc := by
  induction bits generalizing crc with
  | nil => rfl
  | cons b bits ih =>
    obtain rfl := h b List.mem_cons_self
    have hstep : step poly crc false=shift poly crc := congrArg (shift poly) BitVec.xor_zero
    have hrun : run poly crc (false::bits)=run poly (step poly crc false) bits := rfl
    rw [hrun,hstep,ih _ fun b hb => h b (List.mem_cons_of_mem _ hb)]
    rfl

/-- The set bits lie within as many places as the register is wide. -/
def Burst (w : ℕ) (bits : List Bool) : Prop :=
  ∃ start,∀ i,i < bits.length → bits.getD i false=true → start ≤ i ∧ i < start+w

/-- A bit of a burst lies in its window. -/
theorem mem_window {bits : List Bool} {start i : ℕ}
    (h : ∀ i,i < bits.length → bits.getD i false=true → start ≤ i ∧ i < start+w)
    (hi : i < bits.length) (hout : i < start ∨ start+w ≤ i) : bits[i]=false := by
  by_contra hset
  have hbit := h i hi (by rw [List.getD_eq_getElem _ _ hi]; exact (Bool.not_eq_false _).mp hset)
  omega

/-- A burst that leaves nothing has no bit set. -/
theorem burst_eq_zero (hp : poly.msb=true) {bits : List Bool} (hb : Burst w bits)
    (h : run poly 0#w bits=0#w) : ∀ b∈bits,b=false := by
  obtain ⟨start,hwindow⟩ := hb
  have hbefore : ∀ b∈bits.take start,b=false := by
    intro b hmem
    obtain ⟨i,hi,rfl⟩ := List.mem_iff_getElem.mp hmem
    rw [List.length_take] at hi
    rw [List.getElem_take]
    exact mem_window hwindow (by omega) (.inl (by omega))
  have hafter : ∀ b∈(bits.drop start).drop w,b=false := by
    intro b hmem
    obtain ⟨i,hi,rfl⟩ := List.mem_iff_getElem.mp hmem
    rw [List.length_drop,List.length_drop] at hi
    rw [List.getElem_drop,List.getElem_drop]
    exact mem_window hwindow (by omega) (.inr (by omega))
  have hsplit : bits=bits.take start++((bits.drop start).take w++(bits.drop start).drop w) := by
    rw [List.take_append_drop,List.take_append_drop]
  have hlen : ((bits.drop start).take w).length≤w := List.length_take_le _ _
  rw [hsplit,run_append,run_append,run_false poly _ hbefore,shifts_zero,
    run_false poly _ hafter] at h
  -- only the window is left, and it fits the register
  have hpack := (run_eq_zero hp 0#w hlen).mp (shifts_eq_zero hp h)
  have hinside : ∀ b∈(bits.drop start).take w,b=false := by
    intro b hmem
    obtain ⟨i,hi,rfl⟩ := List.mem_iff_getElem.mp hmem
    rw [←List.getD_eq_getElem _ false hi,←pack_getLsbD _ (by omega : i < w),←hpack]
    exact BitVec.getLsbD_zero
  intro b hmem
  rw [hsplit,List.mem_append,List.mem_append] at hmem
  rcases hmem with hm | hm | hm
  · exact hbefore b hm
  · exact hinside b hm
  · exact hafter b hm

/-- A burst of errors changes what is left of the bits. -/
theorem burst_detected (hp : poly.msb=true) (crc : BitVec w) {bits errors : List Bool}
    (hlen : bits.length=errors.length) (hb : Burst w errors) (he : true∈errors) :
    run poly crc (List.zipWith Bool.xor bits errors)≠run poly crc bits := by
  intro h
  have hlinear := run_xor poly crc 0#w hlen
  rw [BitVec.xor_zero,h] at hlinear
  have hzero : run poly 0#w errors=0#w := by
    have hcancel := congrArg (fun c => run poly crc bits^^^c) hlinear
    rw [BitVec.xor_self,←BitVec.xor_assoc,BitVec.xor_self,BitVec.zero_xor] at hcancel
    exact hcancel.symm
  cases burst_eq_zero hp hb hzero true he

end CyclotronPico.Crc
