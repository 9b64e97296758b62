import CyclotronPico.Crc

/-!
# Scattered errors under a cyclic redundancy check

Besides bursts, a redundancy check notices errors by their number. When the
polynomial has an odd number of low bits set, a shift keeps the parity of the
register, so an odd number of wrong bits always leaves something. Two wrong
bits leave nothing only when the register that holds one bit comes back
within as many shifts as lie between them.
-/

namespace CyclotronPico.Crc

variable {w : ℕ}

/-! ### Odd numbers of errors -/

/-- An odd number of bits is set. -/
def odd (bits : List Bool) : Bool := bits.foldr Bool.xor false

/-- The parity of a register. -/
def parity (crc : BitVec w) : Bool := odd ((List.range w).map crc.getLsbD)

/-- The parity of bits in sequence. -/
theorem odd_append (xs ys : List Bool) : odd (xs++ys)=Bool.xor (odd xs) (odd ys) := by
  induction xs with
  | nil => exact (Bool.false_xor _).symm
  | cons x xs ih =>
    have hcons : odd (x::xs++ys)=Bool.xor x (odd (xs++ys)) := rfl
    rw [hcons,ih,←Bool.xor_assoc]
    rfl

/-- The parity of clear bits. -/
theorem odd_clear {bits : List Bool} (h : ∀ b∈bits,b=false) : odd bits=false := by
  induction bits with
  | nil => rfl
  | cons b bits ih =>
    obtain rfl := h b List.mem_cons_self
    have hcons : odd (false::bits)=Bool.xor false (odd bits) := rfl
    rw [hcons,ih fun c hc => h c (List.mem_cons_of_mem _ hc)]
    rfl

/-- The parity is that of the number of set bits. -/
theorem odd_eq_count (bits : List Bool) : odd bits=decide (bits.count true%2=1) := by
  induction bits with
  | nil => rfl
  | cons b bits ih =>
    have hcons : odd (b::bits)=Bool.xor b (odd bits) := rfl
    rw [hcons,ih]
    cases b with
    | false => rw [Bool.false_xor,List.count_cons_of_ne Bool.false_ne_true]
    | true =>
      rw [List.count_cons_self,Bool.true_xor,←decide_not,decide_eq_decide]
      omega

/-- The parity of a sum of registers. -/
theorem parity_xor (a b : BitVec w) : parity (a^^^b)=Bool.xor (parity a) (parity b) := by
  rw [parity,parity,parity]
  induction List.range w with
  | nil => rfl
  | cons i is ih =>
    have hcons : ∀ c : BitVec w,odd ((i::is).map c.getLsbD)=
        Bool.xor (c.getLsbD i) (odd (is.map c.getLsbD)) := fun _ => rfl
    rw [hcons,hcons,hcons,ih,BitVec.getLsbD_xor,Bool.xor_assoc,Bool.xor_assoc,
      Bool.xor_left_comm (b.getLsbD i)]

/-- A register shifted to the right loses its lowest bit. -/
theorem parity_ushiftRight (crc : BitVec w) :
    parity (crc>>>1)=Bool.xor (crc.getLsbD 0) (parity crc) := by
  rw [parity,parity]
  cases w with
  | zero => rw [BitVec.of_length_zero (x:=crc)]; rfl
  | succ n =>
    have hlast : (crc>>>1).getLsbD n=false := by
      rw [BitVec.getLsbD_ushiftRight,BitVec.getLsbD_of_ge _ _ (by omega)]
    have hbits : (List.range n).map (crc>>>1).getLsbD=
        (List.range n).map (crc.getLsbD∘Nat.succ) :=
      List.map_congr_left fun i _ => by
        rw [BitVec.getLsbD_ushiftRight]
        exact congrArg crc.getLsbD (Nat.add_comm 1 i)
    have hfirst : odd ((List.range (n+1)).map crc.getLsbD)=
        Bool.xor (crc.getLsbD 0) (odd ((List.range n).map (crc.getLsbD∘Nat.succ))) := by
      rw [List.range_succ_eq_map,List.map_cons,List.map_map]
      rfl
    rw [hfirst,←Bool.xor_assoc,Bool.xor_self,Bool.false_xor,List.range_succ,List.map_append,
      odd_append,hbits,List.map_singleton,hlast]
    exact Bool.xor_false _

/-- The parity of a register that holds one bit. -/
theorem parity_unit (hw : 0 < w) (b : Bool) : parity (unit w b)=b := by
  have hone : parity (unit w b)=Bool.xor b (parity (unit w b>>>1)) := by
    rw [parity_ushiftRight,unit_getLsbD b hw,decide_eq_true rfl,Bool.and_true,←Bool.xor_assoc,
      Bool.xor_self,Bool.false_xor]
  have hrest : parity (unit w b>>>1)=false := by
    refine odd_clear fun c hc => ?_
    obtain ⟨i,hi,rfl⟩ := List.mem_map.mp hc
    rw [BitVec.getLsbD_ushiftRight]
    by_cases hlt : 1+i < w
    · rw [unit_getLsbD b hlt,decide_eq_false (by omega),Bool.and_false]
    · exact BitVec.getLsbD_of_ge _ _ (by omega)
  rw [hone,hrest,Bool.xor_false]

section Odd

variable {poly : BitVec w} (hw : 0 < w) (hodd : parity poly=true)

include hodd in
/-- A shift by a polynomial with an odd number of low bits keeps the parity. -/
theorem parity_shift (crc : BitVec w) : parity (shift poly crc)=parity crc := by
  rw [shift]
  cases hlow : crc.getLsbD 0 with
  | true => rw [if_pos rfl,parity_xor,parity_ushiftRight,hlow,hodd,Bool.xor_true,Bool.true_xor,
      Bool.not_not]
  | false => rw [if_neg Bool.false_ne_true,parity_ushiftRight,hlow,Bool.false_xor]

include hw hodd in
/-- The register keeps the parity of the bits it takes in. -/
theorem parity_run (crc : BitVec w) (bits : List Bool) :
    parity (run poly crc bits)=Bool.xor (parity crc) (odd bits) := by
  induction bits generalizing crc with
  | nil => exact (Bool.xor_false _).symm
  | cons b bits ih =>
    have hrun : run poly crc (b::bits)=run poly (step poly crc b) bits := rfl
    have hcons : odd (b::bits)=Bool.xor b (odd bits) := rfl
    rw [hrun,ih,hcons,step,parity_shift hodd,parity_xor,parity_unit hw,Bool.xor_assoc]

include hw hodd in
/-- An odd number of wrong bits leaves something. -/
theorem odd_ne_zero {errors : List Bool} (he : errors.count true%2=1) :
    run poly 0#w errors≠0#w := by
  intro h
  have hzero : parity 0#w=false := odd_clear fun c hc => by
    obtain ⟨i,_,rfl⟩ := List.mem_map.mp hc
    exact BitVec.getLsbD_zero
  have hparity := parity_run hw hodd 0#w errors
  rw [h,hzero,odd_eq_count,decide_eq_true he] at hparity
  cases hparity

end Odd

/-! ### Pairs of errors -/

/-- The register that holds one bit stays away from that for some shifts. -/
def staysAway (poly : BitVec w) : ℕ → BitVec w → Bool
  | 0,_ => true
  | n+1,crc => crc != 1#w && staysAway poly n (shift poly crc)

/-- What the search says. -/
theorem staysAway_spec {poly : BitVec w} {n : ℕ} {crc : BitVec w}
    (h : staysAway poly n crc=true) {k : ℕ} (hk : k < n) : (shift poly)^[k] crc≠1#w := by
  induction n generalizing crc k with
  | zero => cases hk
  | succ n ih =>
    rw [staysAway,Bool.and_eq_true] at h
    cases k with
    | zero => exact bne_iff_ne.mp h.1
    | succ k => exact ih h.2 (Nat.lt_of_succ_lt_succ hk)

/-- The first set bit. -/
theorem first_set {bits : List Bool} {n : ℕ} (h : bits.count true=n+1) :
    ∃ before after,bits=before++true::after ∧ (∀ b∈before,b=false) ∧ after.count true=n := by
  induction bits with
  | nil => cases h
  | cons b bits ih =>
    cases b with
    | true =>
      rw [List.count_cons_self] at h
      exact ⟨[],bits,rfl,fun _ hb => (List.not_mem_nil hb).elim,Nat.succ.inj h⟩
    | false =>
      rw [List.count_cons_of_ne Bool.false_ne_true] at h
      obtain ⟨before,after,rfl,hclear,hafter⟩ := ih h
      exact ⟨false::before,after,rfl,List.forall_mem_cons.mpr ⟨rfl,hclear⟩,hafter⟩

/-- Clear bits leave a clear register clear. -/
theorem run_clear (poly : BitVec w) {bits : List Bool} (h : ∀ b∈bits,b=false) :
    run poly 0#w bits=0#w := by
  rw [run_false poly 0#w h,shifts_zero]

/-- Two wrong bits leave something unless the register comes back from one to
the other. -/
theorem pair_ne_zero {poly : BitVec w} (hp : poly.msb=true) {errors : List Bool} {n : ℕ}
    (hn : errors.length≤n+1) (hreturn : staysAway poly n (shift poly 1#w)=true)
    (he : errors.count true=2) : run poly 0#w errors≠0#w := by
  intro h
  obtain ⟨before,rest,rfl,hbefore,hrest⟩ := first_set he
  obtain ⟨between,after,rfl,hbetween,hafter⟩ := first_set hrest
  have hclear : ∀ b∈after,b=false := fun b hb => by
    cases b with
    | false => rfl
    | true => exact absurd hb (List.count_eq_zero.mp hafter)
  have hone : step poly 0#w true=shift poly 1#w := congrArg (shift poly) BitVec.zero_xor
  have hcons : ∀ crc bits,run poly crc (true::bits)=run poly (step poly crc true) bits :=
    fun _ _ => rfl
  rw [run_append,run_clear poly hbefore,hcons,hone,run_append,run_false poly _ hbetween,hcons,
    run_false poly _ hclear] at h
  -- the second wrong bit cancels what the first one has become
  have hmeet := shift_eq_zero hp (shifts_eq_zero hp h)
  have hback : (shift poly)^[between.length] (shift poly 1#w)=1#w := BitVec.xor_eq_zero_iff.mp hmeet
  refine staysAway_spec hreturn ?_ hback
  rw [List.length_append,List.length_cons,List.length_append,List.length_cons] at hn
  omega

/-! ### Detection -/

/-- Errors that leave something change what is left of the bits. -/
theorem detected {poly : BitVec w} (crc : BitVec w) {bits errors : List Bool}
    (hlen : bits.length=errors.length) (he : run poly 0#w errors≠0#w) :
    run poly crc (List.zipWith Bool.xor bits errors)≠run poly crc bits := by
  intro h
  have hlinear := run_xor poly crc 0#w hlen
  rw [BitVec.xor_zero,h] at hlinear
  have hcancel := congrArg (fun c => run poly crc bits^^^c) hlinear
  rw [BitVec.xor_self,←BitVec.xor_assoc,BitVec.xor_self,BitVec.zero_xor] at hcancel
  exact he hcancel.symm

/-- A burst leaves something. -/
theorem burst_ne_zero {poly : BitVec w} (hp : poly.msb=true) {errors : List Bool}
    (hb : Burst w errors) (he : true∈errors) : run poly 0#w errors≠0#w :=
  fun h => Bool.noConfusion (burst_eq_zero hp hb h true he)

end CyclotronPico.Crc
