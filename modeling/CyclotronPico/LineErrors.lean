import CyclotronPico.CrcErrors
import CyclotronPico.Corruption
import CyclotronPico.Sessions

/-!
# Sessions on a noisy line

Every request, whatever its function code, is judged by the checksum over all
its bits. An odd number of wrong bits, two wrong bits anywhere or a burst of
at most sixteen never passes, so a node that is not told of the requests that
were hit sees the same session: the server executes and answers the others
and only talks to the supply for those.
-/

namespace CyclotronPico.LineErrors

open BitBuffer Effects PicoController Nanomodbus NanomodbusServer Frames Requests Answers Polls
  SupplyInterface ModbusServer Handling Corruption Exchanges Service Sessions

/-! ### Errors that are noticed -/

/-- An odd number of wrong bits, two wrong bits, or a burst. -/
def Noticed (bits : List Bool) : Prop :=
  bits.count true%2=1 ∨ bits.count true=2 ∨ Crc.Burst 16 bits ∧ true∈bits

/-- A register that holds one bit stays away from that longer than the longest
message. -/
theorem polynomial_stays_away :
    Crc.staysAway crcPolynomial 2080 (Crc.shift crcPolynomial 1#16)=true := by
  decide +kernel

/-- Errors that are noticed leave something. -/
theorem noticed_ne_zero {errors : List Byte} (hlen : errors.length≤260)
    (hn : Noticed (messageBits errors)) :
    Crc.run crcPolynomial 0#16 (messageBits errors)≠0#16 := by
  have htop : crcPolynomial.msb=true := by decide
  have hodd : Crc.parity crcPolynomial=true := by decide
  rcases hn with hn | hn | ⟨hburst,herr⟩
  · exact Crc.odd_ne_zero (by decide) hodd hn
  · refine Crc.pair_ne_zero htop ?_ polynomial_stays_away hn
    rw [messageBits_length]
    omega
  · exact Crc.burst_ne_zero htop hburst herr

/-- A message with errors that are noticed does not pass the check. -/
theorem noticed_unchecked {data errors bs : List Byte} {low high : Byte}
    (hlen : (sealed data).length=errors.length) (hmax : errors.length≤260)
    (hn : Noticed (messageBits errors)) (hbs : bs++[low,high]=corrupted (sealed data) errors) :
    [low,high]≠crcBytes bs := by
  have hbits : (messageBits (sealed data)).length=(messageBits errors).length := by
    rw [messageBits_length,messageBits_length,hlen]
  have hsealed : Crc.run crcPolynomial 0xFFFF#16 (messageBits (sealed data))=0#16 :=
    (residue data _ _).mpr rfl
  have hdetected := Crc.detected 0xFFFF#16 hbits (noticed_ne_zero hmax hn)
  rw [←messageBits_corrupted hlen,←hbs,hsealed] at hdetected
  exact fun h => hdetected ((residue bs low high).mpr h)

/-! ### The distance of messages -/

/-- Where two messages differ. -/
def difference (xs ys : List Byte) : List Byte := List.zipWith (fun x y => x^^^y) xs ys

/-- The difference of two messages leads from the one to the other. -/
theorem corrupted_difference {xs ys : List Byte} (h : xs.length=ys.length) :
    corrupted xs (difference xs ys)=ys := by
  induction xs generalizing ys with
  | nil => exact (List.eq_nil_of_length_eq_zero h.symm).symm
  | cons x xs ih =>
    cases ys with
    | nil => cases h
    | cons y ys =>
      have hfirst : x^^^(x^^^y)=y := by
        rw [←BitVec.xor_assoc,BitVec.xor_self,BitVec.zero_xor]
      exact congrArg₂ List.cons hfirst (ih (Nat.succ.inj h))

/-- Errors that are all zero leave a message alone. -/
theorem corrupted_zero {xs errors : List Byte} (h : xs.length=errors.length)
    (hzero : ∀ e∈errors,e=0#8) : corrupted xs errors=xs := by
  induction xs generalizing errors with
  | nil => rfl
  | cons x xs ih =>
    cases errors with
    | nil => cases h
    | cons e errors =>
      have hfirst : x^^^e=x := by
        rw [hzero e List.mem_cons_self,BitVec.xor_zero]
      exact congrArg₂ List.cons hfirst
        (ih (Nat.succ.inj h) fun d hd => hzero d (List.mem_cons_of_mem e hd))

/-- Two different messages of equal length that both pass the check differ in
at least four bits, up to the longest message. -/
theorem sealed_distance {data other : List Byte} (hlen : data.length=other.length)
    (hmax : (sealed data).length≤260) (hne : sealed data≠sealed other) :
    4≤(messageBits (difference (sealed data) (sealed other))).count true := by
  have hsealed : (sealed data).length=(sealed other).length := by
    rw [sealed_length,sealed_length,hlen]
  have herrors : (difference (sealed data) (sealed other)).length=(sealed data).length := by
    rw [difference,List.length_zipWith,hsealed,Nat.min_self]
  have hpass := corrupted_difference hsealed
  have hsome : true∈messageBits (difference (sealed data) (sealed other)) := by
    by_contra hnone
    have hzero : ∀ e∈difference (sealed data) (sealed other),e=0#8 := by
      intro e he
      by_contra hbit
      exact hnone (mem_messageBits he hbit)
    exact hne ((corrupted_zero herrors.symm hzero).symm.trans hpass)
  have hpositive := List.count_pos_iff.mpr hsome
  by_contra hfew
  have hnoticed : Noticed (messageBits (difference (sealed data) (sealed other))) := by
    rw [Noticed]
    omega
  exact noticed_unchecked herrors.symm (herrors.trans_le hmax) hnoticed hpass.symm rfl

/-- The commands to switch on and to switch off. -/
theorem sealed_distance_switch :
    4≤(messageBits (difference (sealed [1#8,15#8,0#8,0#8,0#8,3#8,1#8,4#8])
      (sealed [1#8,15#8,0#8,0#8,0#8,3#8,1#8,0#8]))).count true :=
  sealed_distance rfl (by decide) (by decide)

/-! ### Requests that are hit -/

/-- Errors in a request that leave its length alone. -/
structure Hit (r : Request) where
  /-- The wrong bits of each byte. -/
  errors : List Byte
  /-- The errors lie in the request. -/
  within : errors.length=r.frame.length
  /-- The errors are few or close together. -/
  noticed : Noticed (messageBits errors)
  /-- The function code arrives. -/
  fc : byteAt errors 1=0#8
  /-- The byte count arrives, if there is one. -/
  count : ∀ i,r.lay.countAt=some i → byteAt errors i=0#8
  /-- The checksum covers the request. -/
  covered : r.lay.covered (r.lay.count r.data)=r.data.length

variable {r : Request}

/-- The bytes that arrive. -/
def Hit.bytes (h : Hit r) : List Byte := corrupted r.frame h.errors

/-- The unit that arrives. -/
def Hit.unit (h : Hit r) : Byte := r.unit^^^byteAt h.errors 0

/-- A message of a request that does not overrun fits the message buffer. -/
theorem layout_length {fc : Byte} {lay : Layout} (hl : requestLayout fc=some lay) (bs : List Byte)
    (h : lay.overrunAt (lay.count bs)=none) : lay.head+lay.count bs≤258 := by
  have hcoils : ∀ c,coilsLayout.overrunAt c=none → c≤250 := fun c hc => by
    by_contra hgt
    cases (if_neg hgt).symm.trans hc
  have hregisters : ∀ c,registersLayout.overrunAt c=none → c≤247 := fun c hc => by
    by_contra hgt
    cases (if_neg hgt).symm.trans hc
  have hreadWrite : ∀ c,readWriteLayout.overrunAt c=none → c≤247 := fun c hc => by
    by_contra hgt
    have hsome := (if_neg hgt).symm.trans hc
    split at hsome <;> cases hsome
  have hrecords : recordsLayout.count bs<256 := (byteAt bs 2).isLt
  rw [requestLayout] at hl
  split at hl <;> cases hl
  · exact Nat.le_of_ble_eq_true rfl
  · exact Nat.le_of_ble_eq_true rfl
  · exact Nat.le_of_ble_eq_true rfl
  · exact Nat.le_of_ble_eq_true rfl
  · exact Nat.le_of_ble_eq_true rfl
  · have hhead : coilsLayout.head=7 := rfl
    have hle := hcoils _ h
    omega
  · have hhead : registersLayout.head=7 := rfl
    have hle := hregisters _ h
    omega
  · have hhead : recordsLayout.head=3 := rfl
    omega
  · have hhead : recordsLayout.head=3 := rfl
    omega
  · have hhead : readWriteLayout.head=11 := rfl
    have hle := hreadWrite _ h
    omega

/-- A request fits the message buffer. -/
theorem frame_length_le (r : Request) : r.frame.length≤260 := by
  have hfilled : r.data.length=r.lay.head+r.lay.count r.data := r.filled
  have hle := layout_length r.known r.data r.fits
  rw [Request.frame,sealed_length]
  omega

/-- As many bytes arrive as were sent. -/
theorem Hit.length (h : Hit r) : h.bytes.length=r.frame.length := by
  rw [Hit.bytes,corrupted,List.length_zipWith,h.within,Nat.min_self]

/-- The header that arrives. -/
theorem Hit.opens (h : Hit r) : h.unit::r.fc::h.bytes.drop 2=h.bytes := by
  have hfc := h.fc
  have hlen := h.within
  rw [Hit.bytes,Hit.unit]
  match h.errors,hfc,hlen with
  | e0::e1::errors,hfc,_ =>
    obtain rfl : e1=0#8 := hfc
    exact congrArg (fun b => (r.unit^^^e0)::b::_) BitVec.xor_zero.symm

/-- The byte count that arrives. -/
theorem Hit.count_eq (h : Hit r) : r.lay.count h.bytes=r.lay.count r.data := by
  have hfilled : r.data.length=r.lay.head+r.lay.count r.data := r.filled
  have hlen := sealed_length r.data
  unfold Layout.count
  cases hc : r.lay.countAt with
  | none => rfl
  | some i =>
    have hi := (sound_request r.known).1 i hc
    dsimp only
    rw [Hit.bytes,byteAt_corrupted h.within.symm (by rw [Request.frame]; omega),h.count i hc,
      BitVec.xor_zero,Request.frame,sealed,byteAt_append _ (by omega)]

/-- A request that is hit takes its own bytes. -/
theorem Hit.span (h : Hit r) : r.lay.span h.bytes=h.bytes.length := by
  have hfilled : r.data.length=r.lay.head+r.lay.count r.data := r.filled
  rw [Layout.span,h.count_eq,h.length,Request.frame,sealed_length,hfilled]

/-- A request that is hit does not pass the check. -/
theorem Hit.receive (h : Hit r) : r.lay.receive h.bytes=.badCrc := by
  have hfilled : r.data.length=r.lay.head+r.lay.count r.data := r.filled
  have hfits : r.lay.overrunAt (r.lay.count r.data)=none := r.fits
  have hsize : h.bytes.length=r.data.length+2 := by
    rw [h.length,Request.frame,sealed_length]
  have hunchecked : ¬r.lay.Checked h.bytes := by
    rw [Layout.Checked,h.count_eq,h.covered,←hfilled]
    have hend : (h.bytes.drop r.data.length).length=2 := by
      rw [List.length_drop,hsize,Nat.add_sub_cancel_left]
    obtain ⟨low,high,hlast⟩ := List.length_eq_two.mp hend
    have hwhole : h.bytes.take r.data.length++[low,high]=h.bytes := by
      rw [←hlast,List.take_append_drop]
    rw [hlast]
    have hmax : h.errors.length≤260 := by
      rw [h.within]
      exact frame_length_le r
    exact noticed_unchecked h.within.symm hmax h.noticed hwhole
  have htaken : r.lay.taken h.bytes=some h.bytes.length := by
    rw [Layout.taken,h.span,if_neg (by omega)]
  rw [r.lay.receive_of_fits (by rw [h.count_eq]; exact hfits),htaken]
  exact if_neg hunchecked

/-! ### Noisy sessions -/

/-- What becomes of what is sent. -/
inductive Passage where
  /-- It arrives. -/
  | clear (item : Item)
  /-- A request is hit, and what arrives is for this server or for every unit. -/
  | hit (r : Request) (h : Hit r) (hu : ¬Foreign h.unit)
  /-- A request is hit, and what arrives is for another unit; a silence follows. -/
  | astray (r : Request) (h : Hit r) (hu : Foreign h.unit)

/-- What arrives, as an item of a session. -/
def Passage.item : Passage → Item
  | clear item => item
  | hit r h hu => .garbled h.unit r.fc (h.bytes.drop 2) r.lay r.known hu
      (by rw [h.opens]; exact h.receive) (by rw [h.opens]; exact h.span)
  | astray r h hu => .lost h.bytes
      (.flushed h.unit r.fc (h.bytes.drop 2) r.lay h.opens.symm r.known hu h.receive
        (by rw [h.span,List.drop_length]; exact Nat.succ_pos 259))

/-- What a passage is on the line. -/
def Passage.line : Passage → List (Option Byte)
  | clear item => item.line
  | hit _ h _ => h.bytes.map some
  | astray _ h _ => h.bytes.map some++[none]

variable {τ : Type} (overshift : Overshift) (ps : PowerSupplyInterface τ)

/-- What a node does that is not told of the requests that were hit: it only
talks to the supply. -/
def Passage.handle (state : App τ×List (List Byte)) : Passage → App τ×List (List Byte)
  | clear item => item.handle overshift ps state
  | hit _ _ _ | astray _ _ _ => (state.1.communicate ps,state.2)

/-- A passage is on the line as its item is. -/
theorem Passage.line_item (p : Passage) : p.item.line=p.line := by
  cases p with
  | clear item => rfl
  | hit r h hu => exact congrArg (List.map some) h.opens
  | astray r h hu => rfl

/-- A passage is handled as its item is. -/
theorem Passage.handle_item (p : Passage) (state : App τ×List (List Byte)) :
    p.item.handle overshift ps state=p.handle overshift ps state := by
  cases p <;> rfl

/-- Two wrong bits of a read, far from each other. -/
def hitRead : Hit readThree where
  errors := [0#8,0#8,1#8,0#8,0#8,0#8,0#8,128#8]
  within := by
    rw [Request.frame,sealed_length]
    rfl
  noticed := .inr (.inl (by decide))
  fc := rfl
  count := fun i hi => by cases hi
  covered := rfl

/-- The read is for this server. -/
theorem hitRead_home : ¬Foreign hitRead.unit := by decide

/-- The read is for unit 1. -/
theorem readThree_own : readThree.unit=0#8 ∨ readThree.unit=1#8 := .inr rfl

/-- The read has no records. -/
theorem readThree_records (h : readThree.fc.toNat=21) : readThree.walk≠.leaves := by cases h

/-- A read that is hit and one that is not. -/
def shortPassages : List Passage :=
  [.hit readThree hitRead hitRead_home,.clear (.request readThree readThree_own readThree_records)]

end CyclotronPico.LineErrors
