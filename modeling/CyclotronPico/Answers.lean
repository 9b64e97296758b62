import CyclotronPico.Requests

/-!
# Sending an answer

A message is built byte by byte at the start of the buffer and transmitted
with its checksum. Every answer of the library ends in one such message, in
none when the request goes to every unit, or in an exception response; the
checks of a write of file records may leave the buffer instead.
-/

namespace CyclotronPico.Answers

open BitBuffer Effects PicoController Nanomodbus NanomodbusServer Frames Reception Requests

variable {σ : Type}

/-- One message was transmitted, and nothing else happened. -/
def Sent (s : Machine σ) (message : List Byte) (t : Machine σ) : Prop :=
  t.app=s.app ∧ t.line=⟨s.line.rx,s.line.tx++[message],false⟩

/-- The exception response to a request. -/
def exceptionMessage (u fc : Byte) (e : NmbsError) : List Byte :=
  sealed [u,fc+0x80#8,BitVec.ofInt 8 e.code]

/-- The request was answered with an exception response. -/
def Refused (p : Nmbs σ Unit) (s : Machine σ) : Prop :=
  ∃ e t,nmbsErrorIsException e=true ∧ p s=(.ok (),t) ∧
    Sent s (exceptionMessage s.msg.unitId s.msg.fc e) t

/-! ### Building a message -/

/-- Nothing replaced is nothing changed. -/
theorem overlay_nil (buf : Vector Byte 260) : overlay buf []=buf := by
  apply Vector.ext
  intro i hi
  rw [overlay_get _ _ hi,List.getElem?_nil,Option.getD_none]

/-- A state whose cursor is at the start is about to build a message. -/
theorem reading_start (s : Machine σ) :
    {s with msg.bufIdx := 0}=reading s [] [] s.line.rx s.line.led := by
  rw [reading,List.append_nil,overlay_nil]
  rfl

/-- The bytes of a word, high byte first. -/
def wordBytes (w : Word) : List Byte := [((w>>>8)&&&0xFF#16).setWidth 8,w.setWidth 8]

/-- Bytes are put by storing them under the cursor and moving it. -/
theorem put_reading (base : Machine σ) (xs bs : List Byte) (rx : List (Option Byte))
    (led : Bool) (h : xs.length+bs.length≤260) :
    (bufIdx>>=fun i => storeBytes i bs>>=fun _ => discardN bs.length)
      (reading base xs [] rx led)=(.ok (),reading base (xs++bs) [] rx led) := by
  have hs := storeBytes_fit base xs [] rx led [] bs (by rw [List.length_nil]; omega)
  have hd := discardN_reading base xs bs [] rx led rfl (by omega)
  rw [List.length_nil,Nat.add_zero,List.nil_append,List.nil_append,List.drop_nil,
    List.append_nil] at hs
  rw [List.append_nil] at hd
  rw [bind_ok (bufIdx_reading ..),bind_ok hs,hd]

/-- Putting a byte. -/
theorem put1_reading (base : Machine σ) (xs : List Byte) (rx : List (Option Byte))
    (led : Bool) (b : Byte) (h : xs.length<260) :
    put1 b (reading base xs [] rx led)=(.ok (),reading base (xs++[b]) [] rx led) := by
  have hp := put_reading base xs [b] rx led h
  simp only [storeBytes,bind_assoc,pure_bind] at hp
  exact hp

/-- Putting a word. -/
theorem put2_reading (base : Machine σ) (xs : List Byte) (rx : List (Option Byte)) (led : Bool)
    (w : Word) (h : xs.length+2≤260) :
    put2 w (reading base xs [] rx led)=(.ok (),reading base (xs++wordBytes w) [] rx led) := by
  have hp := put_reading base xs (wordBytes w) rx led h
  simp only [wordBytes,storeBytes,bind_assoc,pure_bind] at hp
  exact hp

/-- Starting a message. -/
theorem putMsgHeader_run (s : Machine σ) :
    putMsgHeader s=(.ok (),reading s [s.msg.unitId,s.msg.fc] [] s.line.rx s.line.led) := by
  have hu : (reading s [] [] s.line.rx s.line.led).msg.unitId=s.msg.unitId := rfl
  have hf : (reading s [s.msg.unitId] [] s.line.rx s.line.led).msg.fc=s.msg.fc := rfl
  have h1 := put1_reading s [] s.line.rx s.line.led s.msg.unitId (by simp)
  have h2 := put1_reading s [s.msg.unitId] s.line.rx s.line.led s.msg.fc (by simp)
  rw [putMsgHeader,msgBufReset,setBufIdx,modify_bind,reading_start,gets_bind,hu,bind_ok h1]
  exact h2

/-- Sending the bytes before the cursor with their checksum. -/
theorem sendMsg_reading (base : Machine σ) (xs : List Byte) (rx : List (Option Byte))
    (led : Bool) (h : xs.length+2≤260) :
    ∃ t,sendMsg (reading base xs [] rx led)=(.ok (),t) ∧ t.app=base.app ∧
      t.line=⟨rx,base.line.tx++[sealed xs],false⟩ := by
  have hcrc : xs++wordBytes (nmbsCrcCalc xs)=sealed xs := by
    rw [sealed,wordBytes,put_crc]
  have hput := put2_reading base xs rx led (nmbsCrcCalc xs) h
  rw [hcrc] at hput
  have hlen : (sealed xs).length=xs.length+2 := by
    rw [sealed,crcBytes]
    simp only [List.length_append,List.length_cons,List.length_nil]
  have hdata := readBufUpTo_reading base (sealed xs) [] rx led (by omega)
  unfold sendMsg send
  rw [bind_ok (bufIdx_reading ..),bind_ok (readBufUpTo_reading base xs [] rx led (by omega)),
    bind_ok hput,bind_ok (bufIdx_reading ..),bind_ok hdata,gets_bind,modify_bind,writeUart_eq,
    if_pos rfl,pure_run]
  exact ⟨_,rfl,rfl,rfl⟩

/-- An exception response is always sent. -/
theorem sendExceptionMsg_run (e : NmbsError) (s : Machine σ) :
    ∃ t,sendExceptionMsg e s=(.ok (),t) ∧
      Sent s (exceptionMessage s.msg.unitId s.msg.fc e) t := by
  rw [sendExceptionMsg,modify_bind,bind_ok (putMsgHeader_run _),
    bind_ok (put1_reading _ _ _ _ _ (by simp))]
  obtain ⟨t,ht,happ,hline⟩ := sendMsg_reading {s with msg.fc := s.msg.fc+0x80#8}
    [s.msg.unitId,s.msg.fc+0x80#8,BitVec.ofInt 8 e.code] s.line.rx s.line.led (by simp)
  exact ⟨t,ht,happ,hline⟩

/-- Sending an exception response is refusing the request. -/
theorem refused_send {e : NmbsError} (he : nmbsErrorIsException e=true) (s : Machine σ) :
    Refused (sendExceptionMsg e) s := by
  obtain ⟨t,ht,hs⟩ := sendExceptionMsg_run e s
  exact ⟨e,t,he,ht,hs⟩

/-- A choice between two refusals is a refusal. -/
theorem refused_ite {c : Prop} [Decidable c] {p q : Nmbs σ Unit} {s : Machine σ}
    (hp : Refused p s) (hq : Refused q s) : Refused (if c then p else q) s := by
  split
  · exact hp
  · exact hq

/-! ### Walking over written records -/

/-- The library with its cursor moved. -/
def atIdx (s : Machine σ) (i : ℕ) : Machine σ := {s with msg.bufIdx := i}

/-- Taking a byte under a cursor inside the buffer. -/
theorem get1_atIdx (s : Machine σ) {i : ℕ} (h : i<260) :
    get1 (atIdx s i)=(.ok s.msg.buf[i],atIdx s (i+1)) := by
  have hr : readBuf i (atIdx s i)=(.ok s.msg.buf[i],atIdx s i) := dif_pos h
  have hb : bufIdx (atIdx s i)=(.ok i,atIdx s i) := rfl
  have hm : (i+1)%65536=i+1 := by omega
  unfold get1 discardN
  rw [bind_ok hb,bind_ok hr,modify_bind,pure_run]
  unfold atIdx
  dsimp only
  rw [hm]

/-- Taking a word under a cursor inside the buffer. -/
theorem get2_atIdx (s : Machine σ) {i : ℕ} (h : i+1<260) :
    get2 (atIdx s i)=(.ok (wordOf s.msg.buf[i] s.msg.buf[i+1]),atIdx s (i+2)) := by
  have hh : readBuf i (atIdx s i)=(.ok s.msg.buf[i],atIdx s i) := dif_pos (by omega)
  have hl : readBuf (i+1) (atIdx s i)=(.ok s.msg.buf[i+1],atIdx s i) := dif_pos h
  have hb : bufIdx (atIdx s i)=(.ok i,atIdx s i) := rfl
  have hm : (i+2)%65536=i+2 := by omega
  unfold get2 discardN
  rw [bind_ok hb,bind_ok hh,bind_ok hl,modify_bind,pure_run]
  unfold atIdx wordOf
  dsimp only
  rw [hm]

/-- Taking a byte past the buffer. -/
theorem get1_past (s : Machine σ) {i : ℕ} (h : 260 ≤ i) :
    get1 (atIdx s i)=(.fault (.msgBuf i),atIdx s i) := by
  have hr : readBuf i (atIdx s i)=(.fault (.msgBuf i),atIdx s i) := dif_neg (Nat.not_lt.mpr h)
  have hb : bufIdx (atIdx s i)=(.ok i,atIdx s i) := rfl
  rw [get1,bind_ok hb,bind_fault hr]

/-- Taking a word that ends past the buffer. -/
theorem get2_past (s : Machine σ) {i : ℕ} (h : 260 ≤ i+1) :
    ∃ x,get2 (atIdx s i)=(.fault x,atIdx s i) := by
  have hb : bufIdx (atIdx s i)=(.ok i,atIdx s i) := rfl
  have hl : readBuf (i+1) (atIdx s i)=(.fault (.msgBuf (i+1)),atIdx s i) :=
    dif_neg (Nat.not_lt.mpr h)
  rw [get2,bind_ok hb]
  by_cases hi : i<260
  · have hh : readBuf i (atIdx s i)=(.ok s.msg.buf[i],atIdx s i) := dif_pos hi
    exact ⟨_,by rw [bind_ok hh,bind_fault hl]⟩
  · have hh : readBuf i (atIdx s i)=(.fault (.msgBuf i),atIdx s i) := dif_neg hi
    exact ⟨_,bind_fault hh⟩

/-- The header of a written record. -/
def recordAt (buf : Vector Byte 260) (i : ℕ) (h : i+7≤260) : Subreq :=
  ⟨buf[i],wordOf buf[i+1] buf[i+2],wordOf buf[i+3] buf[i+4],wordOf buf[i+5] buf[i+6]⟩

/-- Take the header of a record. -/
def takeRecord : Nmbs σ Subreq := do
  let referenceType ← get1
  let fileNumber ← get2
  let recordNumber ← get2
  let recordLength ← get2
  pure ⟨referenceType,fileNumber,recordNumber,recordLength⟩

/-- Taking a header inside the buffer. -/
theorem takeRecord_atIdx (s : Machine σ) {i : ℕ} (h : i+7≤260) :
    takeRecord (atIdx s i)=(.ok (recordAt s.msg.buf i h),atIdx s (i+7)) := by
  rw [takeRecord,bind_ok (get1_atIdx s (by omega)),bind_ok (get2_atIdx s (by omega)),
    bind_ok (get2_atIdx s (by omega)),bind_ok (get2_atIdx s (by omega)),pure_run]
  rfl

/-- Taking a header that ends past the buffer. -/
theorem takeRecord_past (s : Machine σ) {i : ℕ} (h : 260 < i+7) :
    ∃ x j,takeRecord (atIdx s i)=(.fault x,atIdx s j) := by
  rw [takeRecord]
  by_cases h1 : i<260
  · rw [bind_ok (get1_atIdx s h1)]
    by_cases h2 : i+2<260
    · rw [bind_ok (get2_atIdx s h2)]
      by_cases h3 : i+4<260
      · rw [bind_ok (get2_atIdx s h3)]
        obtain ⟨x,hx⟩ := get2_past s (by omega : 260 ≤ i+1+2+2+1)
        exact ⟨x,_,bind_fault hx⟩
      · obtain ⟨x,hx⟩ := get2_past s (by omega : 260 ≤ i+1+2+1)
        exact ⟨x,_,bind_fault hx⟩
    · obtain ⟨x,hx⟩ := get2_past s (by omega : 260 ≤ i+1+1)
      exact ⟨x,_,bind_fault hx⟩
  · exact ⟨_,i,bind_fault (get1_past s (by omega))⟩

/-- How the checks of a write of file records end. -/
inductive Walk where
  /-- A header lies past the end of the buffer. -/
  | leaves
  /-- A check fails. -/
  | refused (e : NmbsError)
  /-- All records are accepted. -/
  | accepted
  deriving DecidableEq

/-- The walk over the headers of written records, from a place on, with a
size still to be walked over. -/
def recordsWalk (buf : Vector Byte 260) (i size : ℕ) : Walk :=
  if h : i+7≤260 then
    let r := recordAt buf i h
    if r.accepted 122=false then .refused .exceptionIllegalDataAddress
    else
      let size := (size+65536-(7+r.recordLength.toNat*2))%65536
      if 7 ≤ size then recordsWalk buf (i+7+r.recordLength.toNat*2) size
      else if size≠0 then .refused .exceptionIllegalDataValue else .accepted
  else .leaves
termination_by 260-i

/-- One round of the first pass: take a header, skip its data, check it. -/
theorem checkRecords_step (fuel size : ℕ) :
    checkRecords (σ:=σ) (fuel+1) size=takeRecord>>=fun r =>
      discardN (r.recordLength.toNat*2)>>=fun _ =>
        if r.accepted 122=false then pure (some .exceptionIllegalDataAddress)
        else
          let size := (size+65536-(7+r.recordLength.toNat*2))%65536
          if 7 ≤ size then checkRecords fuel size
          else if size≠0 then pure (some .exceptionIllegalDataValue) else pure none := by
  rw [takeRecord]
  simp only [bind_assoc,pure_bind]
  rfl

/-- An accepted record is short. -/
theorem accepted_length {r : Subreq} {n : ℕ} (h : r.accepted n=true) : r.recordLength.toNat≤n :=
  (of_decide_eq_true h).2.2.2

/-- The first pass of a write of file records is the walk over its headers:
the fuel is never used up before the buffer is. -/
theorem checkRecords_walk (s : Machine σ) {fuel i : ℕ} (size : ℕ) (hfuel : 260<fuel+i)
    (hi : i≤600) :
    match recordsWalk s.msg.buf i size with
    | .leaves => ∃ x j,checkRecords fuel size (atIdx s i)=(.fault x,atIdx s j)
    | .refused e => ∃ j,checkRecords fuel size (atIdx s i)=(.ok (some e),atIdx s j)
    | .accepted => ∃ j,checkRecords fuel size (atIdx s i)=(.ok none,atIdx s j) := by
  induction fuel generalizing i size with
  | zero =>
    rw [recordsWalk,dif_neg (by omega)]
    exact ⟨_,i,rfl⟩
  | succ fuel ih =>
    rw [recordsWalk,checkRecords_step]
    by_cases h : i+7≤260
    · rw [dif_pos h]
      dsimp only
      have hd : discardN ((recordAt s.msg.buf i h).recordLength.toNat*2) (atIdx s (i+7))=
          (.ok (),atIdx s ((i+7+(recordAt s.msg.buf i h).recordLength.toNat*2)%65536)) := rfl
      rw [bind_ok (takeRecord_atIdx s h),bind_ok hd]
      cases ha : (recordAt s.msg.buf i h).accepted 122 with
      | false =>
        rw [if_pos rfl,if_pos rfl]
        exact ⟨_,rfl⟩
      | true =>
        have hlen := accepted_length ha
        have hwrap : (i+7+(recordAt s.msg.buf i h).recordLength.toNat*2)%65536=
            i+7+(recordAt s.msg.buf i h).recordLength.toNat*2 := by omega
        rw [if_neg Bool.false_ne_true.symm,if_neg Bool.false_ne_true.symm,hwrap]
        generalize (size+65536-(7+(recordAt s.msg.buf i h).recordLength.toNat*2))%65536=rest
        by_cases hmore : 7 ≤ rest
        · rw [if_pos hmore,if_pos hmore]
          exact ih rest (by omega) (by omega)
        · rw [if_neg hmore,if_neg hmore]
          by_cases hleft : rest≠0
          · rw [if_pos hleft,if_pos hleft]
            exact ⟨_,rfl⟩
          · rw [if_neg hleft,if_neg hleft]
            exact ⟨_,rfl⟩
    · rw [dif_neg h]
      obtain ⟨x,j,hx⟩ := takeRecord_past s (by omega : 260 < i+7)
      exact ⟨x,j,bind_fault hx⟩

/-- An accepted walk has accepted its first record. -/
theorem recordsWalk_first {buf : Vector Byte 260} {size : ℕ}
    (h : recordsWalk buf 3 size=.accepted) : (recordAt buf 3 (by omega)).accepted 122=true := by
  rw [recordsWalk] at h
  rw [dif_pos (by omega)] at h
  by_contra hna
  rw [Bool.not_eq_true] at hna
  simp only [hna,if_true,reduceCtorEq] at h

/-- A refused walk is refused with an exception. -/
theorem recordsWalk_refused {buf : Vector Byte 260} {i size : ℕ} {e : NmbsError}
    (h : recordsWalk buf i size=.refused e) : nmbsErrorIsException e=true := by
  fun_induction recordsWalk buf i size with
  | case1 => cases h; rfl
  | case2 _ _ _ _ _ _ _ ih => exact ih h
  | case3 => cases h; rfl
  | case4 => cases h
  | case5 => cases h

/-- Writing inside the buffer changes the buffer only. -/
theorem writeBuf_run (s : Machine σ) {i : ℕ} (h : i<260) (b : Byte) :
    ∃ buf,writeBuf i b s=(.ok (),{s with msg.buf := buf}) := ⟨_,dif_pos h⟩

/-- Exchanging the bytes of registers inside the buffer. -/
theorem swapRegsFrom_run (s : Machine σ) {i n : ℕ} (h : i+2*n≤260) :
    ∃ regs buf,swapRegsFrom i n s=(.ok regs,{s with msg.buf := buf}) := by
  induction n generalizing s with
  | zero => exact ⟨[],s.msg.buf,rfl⟩
  | succ n ih =>
    have hh : readBuf (i+2*n) s=(.ok s.msg.buf[i+2*n],s) := dif_pos (by omega)
    have hl : readBuf (i+2*n+1) s=(.ok s.msg.buf[i+2*n+1],s) := dif_pos (by omega)
    obtain ⟨buf1,hw1⟩ := writeBuf_run s (by omega : i+2*n<260) s.msg.buf[i+2*n+1]
    obtain ⟨buf2,hw2⟩ := writeBuf_run {s with msg.buf := buf1} (by omega : i+2*n+1<260)
      s.msg.buf[i+2*n]
    obtain ⟨regs,buf,hrest⟩ := ih {s with msg.buf := buf2} (by omega)
    rw [swapRegsFrom,bind_ok hh,bind_ok hl,bind_ok hw1,bind_ok hw2,bind_ok hrest]
    exact ⟨_,buf,rfl⟩

/-- Exchanging the bytes of registers at an even place. -/
theorem swapRegs_run (unaligned : Bool) (s : Machine σ) {i n : ℕ} (heven : i%2=0)
    (h : i+2*n≤260) : ∃ regs buf,swapRegs unaligned i n s=(.ok regs,{s with msg.buf := buf}) := by
  rw [swapRegs,if_pos (.inr (.inr heven))]
  exact swapRegsFrom_run s h

/-- The headers of a write of file records lead out of the buffer. -/
def RecordsLeave (buf : Vector Byte 260) (size : Byte) : Prop :=
  7 ≤ size.toNat ∧ size.toNat≤0xFB ∧ recordsWalk buf 3 size.toNat=.leaves

/-- Without a callback, a write of file records is refused after its data
has been walked over. -/
theorem answerWriteFileRecord_run (nmbs : NmbsServer σ)
    (hn : nmbs.callbacks.writeFileRecord=none) (size : Byte) (s : Machine σ) :
    (RecordsLeave s.msg.buf size → ∃ x t,answerWriteFileRecord nmbs size 3 s=(.fault x,t) ∧
      Kept s t) ∧
    (¬RecordsLeave s.msg.buf size → Refused (answerWriteFileRecord nmbs size 3) s) := by
  have hstart : setBufIdx 3 s=(.ok (),atIdx s 3) := rfl
  have hwalk := checkRecords_walk s size.toNat (by omega : 260<261+3) (by omega : 3≤600)
  rw [answerWriteFileRecord]
  by_cases hsize : size.toNat<0x07 ∨ size.toNat>0xFB
  · constructor
    · rintro ⟨hlo,hhi,_⟩
      omega
    · intro _
      obtain ⟨e,t,he,ht,hs⟩ := refused_send (e:=.exceptionIllegalDataValue) rfl (atIdx s 3)
      exact ⟨e,t,he,by rw [bind_ok hstart,if_pos hsize,ht],hs⟩
  · have hleave : RecordsLeave s.msg.buf size ↔ recordsWalk s.msg.buf 3 size.toNat=.leaves := by
      rw [RecordsLeave]
      constructor
      · intro h
        exact h.2.2
      · intro h
        exact ⟨by omega,by omega,h⟩
    rw [hleave,bind_ok hstart,if_neg hsize]
    cases hw : recordsWalk s.msg.buf 3 size.toNat with
    | leaves =>
      rw [hw] at hwalk
      obtain ⟨x,j,hx⟩ := hwalk
      exact ⟨fun _ => ⟨x,_,bind_fault hx,rfl,rfl⟩,fun h => absurd rfl h⟩
    | refused e =>
      rw [hw] at hwalk
      obtain ⟨j,hj⟩ := hwalk
      obtain ⟨e',t,he,ht,hs⟩ := refused_send (recordsWalk_refused hw) (atIdx s j)
      refine ⟨fun h => by simp only [reduceCtorEq] at h,fun _ => ⟨e',t,he,?_,hs⟩⟩
      rw [bind_ok hstart,bind_ok hj]
      exact ht
    | accepted =>
      rw [hw] at hwalk
      obtain ⟨j,hj⟩ := hwalk
      have hlen := accepted_length (recordsWalk_first hw)
      have hback : setBufIdx 3 (atIdx s j)=(.ok (),atIdx s 3) := rfl
      have hskip : discard1 (atIdx s 3)=(.ok (),atIdx s 4) := rfl
      have hget : ∀ n,getRegs nmbs.unaligned n (atIdx s 10)=
          swapRegs nmbs.unaligned 10 n (atIdx s ((10+n*2)%65536)) := fun _ => rfl
      obtain ⟨regs,buf,hswap⟩ := swapRegs_run nmbs.unaligned
        (atIdx s ((10+(recordAt s.msg.buf 3 (by omega)).recordLength.toNat*2)%65536)) rfl
        (by omega : 10+2*(recordAt s.msg.buf 3 _).recordLength.toNat≤260)
      obtain ⟨e',t,he,ht,hs⟩ := refused_send (e:=.exceptionIllegalFunction) rfl
        {atIdx s ((10+(recordAt s.msg.buf 3 (by omega)).recordLength.toNat*2)%65536) with
          msg.buf := buf}
      refine ⟨fun h => by simp only [reduceCtorEq] at h,fun _ => ⟨e',t,he,?_,hs⟩⟩
      rw [bind_ok hstart,bind_ok hj,hn]
      dsimp only
      rw [bind_ok hback,bind_ok hskip,bind_ok (get2_atIdx s (by omega)),
        bind_ok (get2_atIdx s (by omega)),bind_ok (get2_atIdx s (by omega))]
      exact (bind_ok ((hget _).trans hswap)).trans ht

/-! ### Requests without a callback -/

/-- A request for coils or discrete inputs is refused. -/
theorem refused_readDiscrete (address quantity : Word) (s : Machine σ) :
    Refused (answerReadDiscrete none address quantity) s :=
  refused_ite (refused_send rfl s) (refused_ite (refused_send rfl s) (refused_send rfl s))

/-- A request for holding registers is refused. -/
theorem refused_readRegisters (address quantity : Word) (s : Machine σ) :
    Refused (answerReadRegisters none address quantity) s :=
  refused_ite (refused_send rfl s) (refused_ite (refused_send rfl s) (refused_send rfl s))

/-- A write of one coil is refused. -/
theorem refused_writeSingleCoil {nmbs : NmbsServer σ} (hn : nmbs.callbacks.writeSingleCoil=none)
    (address value : Word) (s : Machine σ) : Refused (answerWriteSingleCoil nmbs address value) s := by
  rw [answerWriteSingleCoil,hn]
  exact refused_send rfl s

/-- A write of registers is refused. -/
theorem refused_writeRegisters {nmbs : NmbsServer σ}
    (hn : nmbs.callbacks.writeMultipleRegisters=none) (address quantity : Word) (bytes : Byte)
    (regs : List Word) (s : Machine σ) :
    Refused (answerWriteMultipleRegisters nmbs address quantity bytes regs) s := by
  rw [answerWriteMultipleRegisters,hn]
  exact refused_ite (refused_send rfl s) (refused_ite (refused_send rfl s)
    (refused_ite (refused_send rfl s) (refused_ite (refused_send rfl s) (refused_send rfl s))))

/-- A write and read of registers is refused. -/
theorem refused_readWrite {nmbs : NmbsServer σ}
    (hn : nmbs.callbacks.writeMultipleRegisters=none) (readAddress readQuantity writeAddress
      writeQuantity : Word) (bytes : Byte) (regs : List Word) (s : Machine σ) :
    Refused (answerReadWriteRegisters nmbs readAddress readQuantity writeAddress writeQuantity
      bytes regs) s := by
  rw [answerReadWriteRegisters,hn]
  exact refused_ite (refused_send rfl s) (refused_ite (refused_send rfl s)
    (refused_ite (refused_send rfl s) (refused_ite (refused_send rfl s)
      (refused_ite (refused_send rfl s) (refused_send rfl s)))))

/-- A request for file records is refused, also after its response has been
started. -/
theorem refused_readFileRecord {nmbs : NmbsServer σ} (hn : nmbs.callbacks.readFileRecord=none)
    (size : Byte) (subreqs : List Subreq) (s : Machine σ) :
    Refused (answerReadFileRecord nmbs size subreqs) s := by
  rw [answerReadFileRecord,hn]
  refine refused_ite (refused_send rfl s) (refused_ite (refused_send rfl s)
    (refused_ite (refused_send rfl s) ?_))
  obtain ⟨e,t,he,ht,hs⟩ := refused_send (e:=.exceptionIllegalFunction) rfl
    (reading s ([s.msg.unitId,s.msg.fc]++[responseDataSize subreqs]) [] s.line.rx s.line.led)
  refine ⟨e,t,he,?_,hs⟩
  rw [putResHeader,bind_ok (putMsgHeader_run s),bind_ok (put1_reading _ _ _ _ _ (by simp))]
  exact ht

end CyclotronPico.Answers
