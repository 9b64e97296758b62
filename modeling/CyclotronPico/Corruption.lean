import CyclotronPico.Crc
import CyclotronPico.Handling

/-!
# Corrupted frames

The checksum of the library is a reflected redundancy check of sixteen bits
over the bytes in the order of transmission. A message passes it when nothing
is left of its bits, the two checksum bytes included, so a burst of at most
sixteen wrong bits is always noticed, wherever it falls.
-/

namespace CyclotronPico.Corruption

open BitBuffer Effects PicoController Nanomodbus NanomodbusServer Frames Answers Polls
  SupplyInterface ModbusServer Handling

/-! ### The checksum bit by bit -/

/-- The reflected polynomial of the checksum. -/
def crcPolynomial : Word := 0xA001#16

/-- The bits of a byte, the least significant one first. -/
def byteBits (b : Byte) : List Bool := (List.range 8).map b.getLsbD

/-- The bits of a message in the order of transmission. -/
def messageBits (bs : List Byte) : List Bool := bs.flatMap byteBits

/-- A byte has eight bits. -/
theorem byteBits_length (b : Byte) : (byteBits b).length=8 := rfl

/-- The bits of a byte by their places. -/
theorem byteBits_getD (b : Byte) {i : ℕ} (hi : i<8) : (byteBits b).getD i false=b.getLsbD i := by
  have hlen : i < (byteBits b).length := hi
  rw [List.getD_eq_getElem _ _ hlen]
  simp only [byteBits,List.getElem_map,List.getElem_range]

/-- The bits of a byte fill the low half of a register. -/
theorem pack_byteBits (b : Byte) : Crc.pack 16 (byteBits b)=b.setWidth 16 := by
  apply BitVec.eq_of_getLsbD_eq
  intro i hi
  rw [Crc.pack_getLsbD _ hi,BitVec.getLsbD_setWidth,decide_eq_true hi,Bool.true_and]
  by_cases h8 : i<8
  · exact byteBits_getD b h8
  · rw [List.getD_eq_default _ _ (Nat.not_lt.mp h8),BitVec.getLsbD_of_ge b i (Nat.not_lt.mp h8)]

/-- One bit of the checksum is one step of the division. -/
theorem crcShift_eq (crc : Word) : crcShift crc=Crc.shift crcPolynomial crc := by
  have hlow : decide (crc&&&0x0001#16≠0#16)=crc.getLsbD 0 := and_mask crc 0
  rw [crcShift,Crc.shift,←hlow]
  by_cases h : crc&&&0x0001#16≠0#16
  · rw [if_pos h,if_pos (decide_eq_true h)]
    rfl
  · rw [if_neg h,if_neg (fun hd => h (of_decide_eq_true hd))]

/-- One byte of the checksum takes in its eight bits. -/
theorem crcByte_eq (crc : Word) (b : Byte) :
    crcByte crc b=Crc.run crcPolynomial crc (byteBits b) := by
  have hshift : crcShift=Crc.shift crcPolynomial := funext crcShift_eq
  rw [crcByte,hshift,Crc.run_eq_shift _ crc (by rw [byteBits_length]; decide),pack_byteBits,
    byteBits_length]

/-- The checksum register takes in the bits of the message. -/
theorem crcRegister_eq (data : List Byte) :
    crcRegister data=Crc.run crcPolynomial 0xFFFF#16 (messageBits data) := by
  rw [crcRegister]
  generalize 0xFFFF#16=crc
  induction data generalizing crc with
  | nil => rfl
  | cons b data ih =>
    rw [List.foldl_cons,ih,crcByte_eq,messageBits,messageBits,List.flatMap_cons,Crc.run_append]

/-- A register agrees with the two bytes in which it travels. -/
theorem pack_crcBytes (low high : Byte) (data : List Byte) :
    crcRegister data=Crc.pack 16 (messageBits [low,high]) ↔ [low,high]=crcBytes data := by
  have hbits : messageBits [low,high]=byteBits low++byteBits high := rfl
  have hpack : ∀ i,i<16 → (Crc.pack 16 (messageBits [low,high])).getLsbD i=
      if i<8 then low.getLsbD i else high.getLsbD (i-8) := by
    intro i hi
    rw [Crc.pack_getLsbD _ hi,hbits]
    by_cases h8 : i<8
    · rw [if_pos h8,List.getD_append _ _ _ _ h8,byteBits_getD low h8]
    · rw [if_neg h8,List.getD_append_right _ _ _ _ (Nat.not_lt.mp h8),byteBits_length,
        byteBits_getD high (by omega)]
  have hlow : ∀ i,i<8 → ((crcRegister data).setWidth 8).getLsbD i=(crcRegister data).getLsbD i := by
    intro i hi
    rw [BitVec.getLsbD_setWidth,decide_eq_true hi,Bool.true_and]
  have hhigh : ∀ i,i<8 → ((crcRegister data>>>8).setWidth 8).getLsbD i=
      (crcRegister data).getLsbD (8+i) := by
    intro i hi
    rw [BitVec.getLsbD_setWidth,decide_eq_true hi,Bool.true_and,BitVec.getLsbD_ushiftRight]
  rw [crcBytes,List.cons.injEq,List.cons.injEq]
  constructor
  · intro h
    refine ⟨BitVec.eq_of_getLsbD_eq fun i hi => ?_,BitVec.eq_of_getLsbD_eq fun i hi => ?_,rfl⟩
    · rw [hlow i hi,h,hpack i (by omega),if_pos hi]
    · rw [hhigh i hi,h,hpack (8+i) (by omega),if_neg (by omega),Nat.add_sub_cancel_left]
  · rintro ⟨rfl,rfl,_⟩
    refine BitVec.eq_of_getLsbD_eq fun i hi => ?_
    rw [hpack i hi]
    by_cases h8 : i<8
    · rw [if_pos h8,hlow i h8]
    · rw [if_neg h8,hhigh (i-8) (by omega),Nat.add_sub_cancel' (Nat.not_lt.mp h8)]

/-- A message passes the check when nothing is left of its bits. -/
theorem residue (data : List Byte) (low high : Byte) :
    Crc.run crcPolynomial 0xFFFF#16 (messageBits (data++[low,high]))=0#16 ↔
      [low,high]=crcBytes data := by
  have hlen : (messageBits [low,high]).length=16 := rfl
  rw [←pack_crcBytes,messageBits,List.flatMap_append,Crc.run_append,←messageBits,←crcRegister_eq]
  exact Crc.run_eq_zero (by decide) _ hlen.le

/-! ### Errors on the line -/

/-- A message with the bits in error toggled. -/
def corrupted (bs errors : List Byte) : List Byte := List.zipWith (fun b e => b^^^e) bs errors

/-- Toggling the bits of a byte. -/
theorem byteBits_xor (b e : Byte) :
    byteBits (b^^^e)=List.zipWith Bool.xor (byteBits b) (byteBits e) := by
  rw [byteBits,byteBits,byteBits,List.zipWith_map,List.zipWith_self]
  exact List.map_congr_left fun i _ => BitVec.getLsbD_xor

/-- Toggling the bits of a message. -/
theorem messageBits_corrupted {bs errors : List Byte} (h : bs.length=errors.length) :
    messageBits (corrupted bs errors)=
      List.zipWith Bool.xor (messageBits bs) (messageBits errors) := by
  induction bs generalizing errors with
  | nil => rfl
  | cons b bs ih =>
    match errors,h with
    | e::errors,h =>
      rw [corrupted,List.zipWith_cons_cons,←corrupted]
      simp only [messageBits,List.flatMap_cons] at ih ⊢
      rw [ih (Nat.succ.inj h),byteBits_xor]
      exact (List.zipWith_append (byteBits_length b)).symm

/-- A message has eight bits for each byte. -/
theorem messageBits_length (bs : List Byte) : (messageBits bs).length=8*bs.length := by
  induction bs with
  | nil => rfl
  | cons b bs ih =>
    rw [messageBits,List.flatMap_cons,←messageBits,List.length_append,ih,byteBits_length,
      List.length_cons]
    omega

/-- A byte in error has a bit in error. -/
theorem mem_messageBits {errors : List Byte} {e : Byte} (hmem : e∈errors) (he : e≠0#8) :
    true∈messageBits errors := by
  have hbit : true∈byteBits e := by
    by_contra hnone
    refine he (BitVec.eq_of_getLsbD_eq fun i hi => ?_)
    rw [BitVec.getLsbD_zero]
    by_contra hset
    exact hnone (List.mem_map.mpr ⟨i,List.mem_range.mpr hi,(Bool.not_eq_false _).mp hset⟩)
  exact List.mem_flatMap.mpr ⟨e,hmem,hbit⟩

/-- A byte of a corrupted message. -/
theorem byteAt_corrupted {bs errors : List Byte} (h : bs.length=errors.length) {i : ℕ}
    (hi : i < bs.length) : byteAt (corrupted bs errors) i=byteAt bs i^^^byteAt errors i := by
  have hlen : i < (corrupted bs errors).length := by
    rw [corrupted,List.length_zipWith,←h,Nat.min_self]
    exact hi
  rw [byteAt,byteAt,byteAt,List.getD_eq_getElem _ _ hlen,List.getD_eq_getElem _ _ hi,
    List.getD_eq_getElem _ _ (h▸hi)]
  exact List.getElem_zipWith

/-- A message with a burst of errors does not pass the check. -/
theorem burst_unchecked {data errors bs : List Byte} {low high : Byte}
    (hlen : (sealed data).length=errors.length) (hburst : Crc.Burst 16 (messageBits errors))
    (herr : ∃ e∈errors,e≠0#8) (hbs : bs++[low,high]=corrupted (sealed data) errors) :
    [low,high]≠crcBytes bs := by
  obtain ⟨e,hmem,he⟩ := herr
  have hbits : (messageBits (sealed data)).length=(messageBits errors).length := by
    rw [messageBits_length,messageBits_length,hlen]
  have hsealed : Crc.run crcPolynomial 0xFFFF#16 (messageBits (sealed data))=0#16 :=
    (residue data _ _).mpr rfl
  have htop : crcPolynomial.msb=true := by decide
  have hdetected := Crc.burst_detected htop 0xFFFF#16 hbits hburst
    (mem_messageBits hmem he)
  rw [←messageBits_corrupted hlen,←hbs,hsealed] at hdetected
  exact fun h => hdetected ((residue bs low high).mpr h)

/-! ### Corrupted writes -/

/-- A write of coils for this server, with as many coil bytes as it says. -/
def coilsWrite (address quantity : Word) (coils : List Byte) : List Byte :=
  [1#8,15#8]++wordBytes address++wordBytes quantity++[BitVec.ofNat 8 coils.length]++coils

/-- The length of a write. -/
theorem coilsWrite_length (address quantity : Word) (coils : List Byte) :
    (coilsWrite address quantity coils).length=7+coils.length := by
  rw [coilsWrite,List.length_append]
  rfl

/-- A corrupted write, its function code and byte count intact, is received
whole and does not pass the check. -/
theorem receive_corrupted {address quantity : Word} {coils errors : List Byte}
    (hmax : coils.length≤246)
    (hlen : errors.length=(sealed (coilsWrite address quantity coils)).length)
    (hburst : Crc.Burst 16 (messageBits errors)) (herr : ∃ e∈errors,e≠0#8)
    (hcount : byteAt errors 6=0#8) :
    coilsLayout.receive (corrupted (sealed (coilsWrite address quantity coils)) errors)=.badCrc := by
  have hsealed := sealed_length (coilsWrite address quantity coils)
  have hdata := coilsWrite_length address quantity coils
  generalize hbs : corrupted (sealed (coilsWrite address quantity coils)) errors=bs
  have hsize : bs.length=7+coils.length+2 := by
    rw [←hbs,corrupted,List.length_zipWith,hlen,Nat.min_self,hsealed,hdata]
  have hbytes : coilsLayout.count bs=coils.length := by
    have hsix : byteAt bs 6=BitVec.ofNat 8 coils.length := by
      rw [←hbs,byteAt_corrupted hlen.symm (by omega),hcount,BitVec.xor_zero]
      exact byteAt_append _ (by omega)
    change (byteAt bs 6).toNat=coils.length
    rw [hsix,BitVec.toNat_ofNat]
    omega
  have hspan : coilsLayout.span bs=bs.length := by
    rw [Layout.span,hbytes,hsize]
    rfl
  have hover : coilsLayout.overrunAt (coilsLayout.count bs)=none := by
    rw [hbytes]
    exact if_pos (by omega)
  have hunchecked : ¬coilsLayout.Checked bs := by
    rw [Layout.Checked,hbytes]
    change ¬(bs.drop (7+coils.length)).take 2=crcBytes (bs.take (7+coils.length))
    have hend : (bs.drop (7+coils.length)).length=2 := by
      rw [List.length_drop,hsize,Nat.add_sub_cancel_left]
    obtain ⟨low,high,hlast⟩ := List.length_eq_two.mp hend
    have hwhole : bs.take (7+coils.length)++[low,high]=bs := by
      rw [←hlast,List.take_append_drop]
    rw [hlast]
    exact burst_unchecked hlen.symm hburst herr (hwhole.trans hbs.symm)
  have hhead : ¬bs.length<coilsLayout.head := by
    change ¬bs.length<7
    omega
  rw [coilsLayout.receive_of_fits hover,Layout.taken,if_neg (not_or.mpr ⟨hhead,hspan.not_gt⟩)]
  exact if_neg hunchecked

variable {τ : Type} (overshift : Overshift) (ps : PowerSupplyInterface τ)

/-- A write in which at most sixteen consecutive bits are wrong, none of them
in its function code or its byte count, commands nothing and is not answered. -/
theorem corrupted_write_dropped (m : Machine (App τ)) {address quantity : Word}
    {coils errors : List Byte} (hmax : coils.length≤246)
    (hlen : errors.length=(sealed (coilsWrite address quantity coils)).length)
    (hburst : Crc.Burst 16 (messageBits errors)) (herr : ∃ e∈errors,e≠0#8)
    (hfc : byteAt errors 1=0#8) (hcount : byteAt errors 6=0#8)
    (hrx : arrivals m.line.rx=corrupted (sealed (coilsWrite address quantity coils)) errors) :
    (waitAndHandleRequest overshift ps ⟨m,none⟩).machine.app.calls=m.app.calls ∧
    (waitAndHandleRequest overshift ps ⟨m,none⟩).machine.line.tx=m.line.tx := by
  have hr := receive_corrupted hmax hlen hburst herr hcount
  rw [←hrx] at hr
  have hopens : ∃ u,Opens m u 15#8 coilsLayout := by
    match errors,hlen,hfc with
    | e0::e1::errors,_,hfc =>
      obtain rfl : e1=0#8 := hfc
      exact ⟨1#8^^^e0,⟨_,hrx⟩,rfl⟩
  obtain ⟨u,ho⟩ := hopens
  rw [(wait_of_poll overshift ps m).1,(wait_of_poll overshift ps m).2]
  rcases exit_cases overshift ps (poll_exit overshift ps m) with ⟨u',fc,lay,ho',_,hr',_⟩ | hk
  · obtain ⟨_,_,rfl⟩ := opens_unique ho ho'
    cases hr.symm.trans hr'
  · exact ⟨congrArg App.calls hk.1,hk.2⟩

/-- One wrong bit in the quantity of a write. -/
def quantityError : List Byte := [0#8,0#8,0#8,0#8,0#8,1#8,0#8,0#8,0#8,0#8,0#8]

/-- A write of nine coils that arrives as one of eight. -/
theorem corrupted_write_dropped_nine :
    let m := fresh ((corrupted (sealed (coilsWrite 0#16 9#16 [15#8,1#8])) quantityError).map some)
    (waitAndHandleRequest (fun _ _ => 0#32) SubstituteSupply.powerSupply
      ⟨m,none⟩).machine.app.calls=m.app.calls ∧
    (waitAndHandleRequest (fun _ _ => 0#32) SubstituteSupply.powerSupply
      ⟨m,none⟩).machine.line.tx=m.line.tx := by
  intro m
  have hmax : [15#8,1#8].length≤246 := by decide
  have hlen : quantityError.length=(sealed (coilsWrite 0#16 9#16 [15#8,1#8])).length := by
    rw [sealed_length,coilsWrite_length]
    rfl
  have hburst : Crc.Burst 16 (messageBits quantityError) := ⟨40,by decide⟩
  have herr : ∃ e∈quantityError,e≠0#8 := ⟨1#8,by decide,by decide⟩
  have hrx : arrivals m.line.rx=
      corrupted (sealed (coilsWrite 0#16 9#16 [15#8,1#8])) quantityError := arrivals_bytes _
  exact corrupted_write_dropped (fun _ _ => 0#32) SubstituteSupply.powerSupply m hmax hlen hburst
    herr rfl rfl hrx

end CyclotronPico.Corruption
