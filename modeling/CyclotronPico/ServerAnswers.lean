import CyclotronPico.Answers
import CyclotronPico.ModbusServer

/-!
# The answers of the server of a supply

Two requests reach the supply: a read of the three input registers, and a
write of at least three coils. Every other request is refused without the
supply being asked.
-/

namespace CyclotronPico.ServerAnswers

open BitBuffer Effects PicoController Nanomodbus NanomodbusServer Frames Reception Requests
  Answers SupplyInterface ModbusServer

variable {τ : Type} (overshift : Overshift) (ps : PowerSupplyInterface τ)

/-! ### The callbacks -/

/-- The type of the parameter in the first two coils. -/
def dataTypeOf (coils : Vector Byte 250) : Byte :=
  BitVec.ofNat 8 (((bitAt coils 1).toNat<<<1)+(bitAt coils 0).toNat)

/-- The value the decoding loop computes from coil `i` on. -/
def decodedFrom (coils : Vector Byte 250) (quantity : ℕ) (value : Word) (i : ℕ) : ℕ → Word
  | 0 => value
  | n+1 => decodedFrom coils quantity
      ((value.setWidth 32+shiftLeft overshift (bitAt coils i) (shiftAmount quantity i)).setWidth 16)
      (i+1) n

/-- The value of the parameter in the coils after the first two. -/
def valueOf (coils : Vector Byte 250) (quantity : ℕ) : Word :=
  decodedFrom overshift coils quantity 0#16 writtenDataTypeCoils (quantity-writtenDataTypeCoils)

/-- The application after a call of `setStatus`. -/
def App.setStatus (dataType : Byte) (value : Word) (app : App τ) : App τ :=
  ⟨(ps.setStatus dataType value app.powerSupply).2,
    app.calls++[⟨dataType,value,(ps.setStatus dataType value app.powerSupply).1⟩]⟩

/-- A coil inside the bitfield. -/
theorem nmbsBitfieldRead_run (coils : Vector Byte 250) {b : ℕ} (h : b<2000) (app : App τ) :
    nmbsBitfieldRead coils b app=(.ok (bitAt coils b),app) := by
  have hb : b/8<250 := by omega
  rw [nmbsBitfieldRead,dif_pos hb,and_mask,bitAt_of_lt hb,pure_run]

/-- The decoding loop stays inside the bitfield. -/
theorem decodeValue_run (coils : Vector Byte 250) (quantity : ℕ) (value : Word) {i n : ℕ}
    (h : i+n≤2000) (app : App τ) :
    decodeValue overshift coils quantity value i n app=
      (.ok (decodedFrom overshift coils quantity value i n),app) := by
  induction n generalizing value i with
  | zero => rfl
  | succ n ih =>
    rw [decodeValue,bind_ok (nmbsBitfieldRead_run coils (by omega) app)]
    exact ih _ (by omega)

/-- The callback for input registers: it refuses or talks to the supply. -/
theorem handleReadData_run (address quantity : Word) (unit : Byte) (app : App τ) :
    handleReadData ps address quantity unit app=
      if address.toNat≠0 ∨ quantity.toNat≠registersReadSize then
        (.ok (.exceptionIllegalDataAddress,Vector.replicate 125 0#16),app)
      else (.ok (.errorNone,readRegisters ps (app.communicate ps).powerSupply),
        app.communicate ps) := by
  rw [handleReadData]
  dsimp only
  split
  · rfl
  · rfl

/-- The callback for coils: it refuses, or sets a parameter and then talks to
the supply unless the parameter is declined. -/
theorem handleWriteData_run (address quantity : Word) (coils : Vector Byte 250) (unit : Byte)
    (app : App τ) (hq : quantity.toNat≤2000) :
    handleWriteData overshift ps address quantity coils unit app=
      if address.toNat≠0 ∨ quantity.toNat<coilsWriteMinCount then
        (.ok .exceptionIllegalDataAddress,app)
      else if (ps.setStatus (dataTypeOf coils) (valueOf overshift coils quantity.toNat)
          app.powerSupply).1<0 then
        (.ok .exceptionIllegalDataValue,
          App.setStatus ps (dataTypeOf coils) (valueOf overshift coils quantity.toNat) app)
      else (.ok .errorNone,(App.setStatus ps (dataTypeOf coils)
        (valueOf overshift coils quantity.toNat) app).communicate ps) := by
  rw [handleWriteData]
  by_cases hc : address.toNat≠0 ∨ quantity.toNat<coilsWriteMinCount
  · rw [if_pos hc,if_pos hc]
    rfl
  · have hd := decodeValue_run overshift coils quantity.toNat 0#16
      (by unfold writtenDataTypeCoils; omega :
        writtenDataTypeCoils+(quantity.toNat-writtenDataTypeCoils)≤2000) app
    rw [if_neg hc,if_neg hc,bind_ok (nmbsBitfieldRead_run coils (by omega) app),
      bind_ok (nmbsBitfieldRead_run coils (by omega) app)]
    have hs : setStatus ps (dataTypeOf coils) (valueOf overshift coils quantity.toNat) app=
        (.ok (ps.setStatus (dataTypeOf coils) (valueOf overshift coils quantity.toNat)
          app.powerSupply).1,
          App.setStatus ps (dataTypeOf coils) (valueOf overshift coils quantity.toNat) app) := rfl
    refine (bind_ok hd).trans ((bind_ok hs).trans ?_)
    split
    · rfl
    · rfl

/-! ### The answers -/

/-- A request that reads the supply. -/
def IsRead (fc : Byte) (frame : List Byte) : Prop :=
  fc.toNat=4 ∧ (wordAt frame 2).toNat=0 ∧ (wordAt frame 4).toNat=3

/-- A request that sets a parameter of the supply. -/
def IsWrite (fc : Byte) (frame : List Byte) : Prop :=
  fc.toNat=15 ∧ (wordAt frame 2).toNat=0 ∧ 3≤(wordAt frame 4).toNat ∧
    (wordAt frame 4).toNat≤0x07B0 ∧ (byteAt frame 6).toNat=((wordAt frame 4).toNat+7)/8

/-- The parameter a write sets: its type. -/
def writtenType (frame : List Byte) : Byte := dataTypeOf (coilsOf frame)

/-- The parameter a write sets: its value. -/
def writtenValue (frame : List Byte) : Word :=
  valueOf overshift (coilsOf frame) (wordAt frame 4).toNat

/-- The code with which the supply answers a write. -/
def writtenCode (frame : List Byte) (app : App τ) : ℤ :=
  (ps.setStatus (writtenType frame) (writtenValue overshift frame) app.powerSupply).1

/-- The application after the call that a write makes. -/
def afterWrite (frame : List Byte) (app : App τ) : App τ :=
  App.setStatus ps (writtenType frame) (writtenValue overshift frame) app

/-- The response to a read: three registers. -/
def readMessage (u fc : Byte) (p : τ) : List Byte :=
  sealed ([u,fc,6#8]++wordBytes (currentRegister ps p)++wordBytes (voltageRegister ps p)++
    wordBytes (ps.getLastSetCurrent p))

/-- The response to a write: its address and quantity. -/
def echoMessage (u fc : Byte) (frame : List Byte) : List Byte :=
  sealed ([u,fc]++wordBytes (wordAt frame 2)++wordBytes (wordAt frame 4))

/-- A response is transmitted unless the request went to every unit. -/
def Answered (s : Machine (App τ)) (message : List Byte) (t : Machine (App τ)) : Prop :=
  t.line=if s.msg.broadcast=true then s.line
    else ⟨s.line.rx,s.line.tx++[message],false⟩

/-- How the server ends with a request that it received. -/
inductive Answer (fc : Byte) (frame : List Byte) (s : Machine (App τ)) :
    Outcome NmbsError Fault Unit×Machine (App τ) → Prop where
  /-- The checks of a write of file records leave the buffer. -/
  | left (x : Fault) (t : Machine (App τ)) (hfc : fc.toNat=21)
      (hleave : RecordsLeave s.msg.buf (byteAt frame 2)) (hkept : Kept s t) :
      Answer fc frame s (.fault x,t)
  /-- The request is refused. -/
  | refused (e : NmbsError) (t : Machine (App τ)) (hr : ¬IsRead fc frame)
      (hw : ¬IsWrite fc frame)
      (hleave : fc.toNat=21 → ¬RecordsLeave s.msg.buf (byteAt frame 2))
      (he : nmbsErrorIsException e=true)
      (hsent : Sent s (exceptionMessage s.msg.unitId s.msg.fc e) t) :
      Answer fc frame s (.ok (),t)
  /-- The supply is read. -/
  | read (t : Machine (App τ)) (hr : IsRead fc frame) (happ : t.app=s.app.communicate ps)
      (hline : Answered s (readMessage ps s.msg.unitId s.msg.fc
        (s.app.communicate ps).powerSupply) t) :
      Answer fc frame s (.ok (),t)
  /-- The supply declines a parameter. -/
  | declined (t : Machine (App τ)) (hw : IsWrite fc frame)
      (hcode : writtenCode overshift ps frame s.app<0)
      (happ : t.app=afterWrite overshift ps frame s.app)
      (hline : t.line=⟨s.line.rx,s.line.tx++
        [exceptionMessage s.msg.unitId s.msg.fc .exceptionIllegalDataValue],false⟩) :
      Answer fc frame s (.ok (),t)
  /-- The supply accepts a parameter. -/
  | written (t : Machine (App τ)) (hw : IsWrite fc frame)
      (hcode : ¬writtenCode overshift ps frame s.app<0)
      (happ : t.app=(afterWrite overshift ps frame s.app).communicate ps)
      (hline : Answered s (echoMessage s.msg.unitId s.msg.fc frame) t) :
      Answer fc frame s (.ok (),t)

/-- A request that neither reads nor sets is refused. -/
theorem answer_refused {fc : Byte} {frame : List Byte} {s : Machine (App τ)}
    {p : Nmbs (App τ) Unit} (hp : Refused p s) (hr : ¬IsRead fc frame) (hw : ¬IsWrite fc frame)
    (hleave : fc.toNat=21 → ¬RecordsLeave s.msg.buf (byteAt frame 2)) :
    Answer overshift ps fc frame s (p s) := by
  obtain ⟨e,t,he,ht,hs⟩ := hp
  rw [ht]
  exact .refused e t hr hw hleave he hs

/-- A callback acts on the application only. -/
theorem call_run {α : Type} {callback : Callback (App τ) α} {s : Machine (App τ)}
    {o : Outcome NmbsError Fault α} {app : App τ} (h : callback s.app=(o,app)) :
    call callback s=(o,{s with app := app}) := by
  rw [call,zoom,h]

/-- The bytes of a word are two. -/
theorem wordBytes_length (w : Word) : (wordBytes w).length=2 := rfl

/-- Three registers are put into the response. -/
theorem putWords_run (base : Machine (App τ)) (xs : List Byte) (rx : List (Option Byte))
    (led : Bool) (regs : Vector Word 125) (h : xs.length≤200) :
    putWords regs 0 3 (reading base xs [] rx led)=
      (.ok (),reading base (xs++wordBytes regs[0]++wordBytes regs[1]++wordBytes regs[2]) [] rx
        led) := by
  have h0 := put2_reading base xs rx led regs[0] (by omega)
  have h1 := put2_reading base (xs++wordBytes regs[0]) rx led regs[1]
    (by rw [List.length_append,wordBytes_length]; omega)
  have h2 := put2_reading base (xs++wordBytes regs[0]++wordBytes regs[1]) rx led regs[2]
    (by rw [List.length_append,List.length_append,wordBytes_length,wordBytes_length]; omega)
  exact (bind_ok h0).trans ((bind_ok h1).trans (bind_ok h2))

/-- A read of the three registers is answered with them. -/
theorem answerReadRegisters_read (address quantity : Word) (s : Machine (App τ))
    (ha : address.toNat=0) (hq : quantity.toNat=3) :
    ∃ t,answerReadRegisters (some (handleReadData ps)) address quantity s=(.ok (),t) ∧
      t.app=s.app.communicate ps ∧
      Answered s (readMessage ps s.msg.unitId s.msg.fc (s.app.communicate ps).powerSupply) t := by
  have hcall := call_run (s:=s) ((handleReadData_run ps address quantity s.msg.unitId s.app).trans
    (if_neg (by unfold registersReadSize; omega)))
  have hunit : unitId s=(.ok s.msg.unitId,s) := rfl
  rw [answerReadRegisters,if_neg (by omega),if_neg (by omega)]
  dsimp only
  rw [bind_ok hunit,bind_ok hcall,if_neg (not_not.mpr rfl)]
  have hall : broadcast {s with app := s.app.communicate ps}=
      (.ok s.msg.broadcast,{s with app := s.app.communicate ps}) := rfl
  rw [bind_ok hall]
  unfold Answered
  by_cases hb : s.msg.broadcast=true
  · rw [if_pos hb,if_pos hb]
    exact ⟨_,rfl,rfl,rfl⟩
  · rw [if_neg hb,if_neg hb]
    have hsize : BitVec.ofNat 8 (quantity.toNat*2)=6#8 := by rw [hq]
    have hwords := putWords_run {s with app := s.app.communicate ps}
      ([s.msg.unitId,s.msg.fc]++[6#8]) s.line.rx s.line.led
      (readRegisters ps (s.app.communicate ps).powerSupply) (by simp)
    obtain ⟨t,ht,happ,hline⟩ := sendMsg_reading {s with app := s.app.communicate ps}
      ([s.msg.unitId,s.msg.fc,6#8]++wordBytes (currentRegister ps (s.app.communicate ps).powerSupply)
        ++wordBytes (voltageRegister ps (s.app.communicate ps).powerSupply)++
        wordBytes (ps.getLastSetCurrent (s.app.communicate ps).powerSupply)) s.line.rx s.line.led
      (by simp only [List.length_append,wordBytes_length]; simp)
    refine ⟨t,?_,happ,hline⟩
    rw [putResHeader,bind_ok (putMsgHeader_run _),hsize,hq,
      bind_ok (put1_reading _ _ _ _ _ (by simp)),
      bind_ok hwords]
    exact ht

/-- Any other read is refused. -/
theorem answerReadRegisters_other (address quantity : Word) (s : Machine (App τ))
    (h : ¬(address.toNat=0 ∧ quantity.toNat=3)) :
    Refused (answerReadRegisters (some (handleReadData ps)) address quantity) s := by
  have hcall := call_run (s:=s) ((handleReadData_run ps address quantity s.msg.unitId s.app).trans
    (if_pos (by unfold registersReadSize; omega)))
  have hunit : unitId s=(.ok s.msg.unitId,s) := rfl
  refine refused_ite (refused_send rfl s) (refused_ite (refused_send rfl s) ?_)
  obtain ⟨e,t,he,ht,hs⟩ := refused_send (e:=.exceptionIllegalDataAddress) rfl s
  refine ⟨e,t,he,?_,hs⟩
  dsimp only
  rw [bind_ok hunit,bind_ok hcall]
  exact ht

/-- Answering a write with two words of the request. -/
theorem answerEcho_run (first second : Word) (s : Machine (App τ)) :
    ∃ t,answerEcho first second s=(.ok (),t) ∧ t.app=s.app ∧
      Answered s (sealed ([s.msg.unitId,s.msg.fc]++wordBytes first++wordBytes second)) t := by
  have hall : broadcast s=(.ok s.msg.broadcast,s) := rfl
  unfold answerEcho Answered
  rw [bind_ok hall]
  by_cases hb : s.msg.broadcast=true
  · rw [if_pos hb,if_pos hb]
    exact ⟨s,rfl,rfl,rfl⟩
  · rw [if_neg hb,if_neg hb]
    obtain ⟨t,ht,happ,hline⟩ := sendMsg_reading s
      ([s.msg.unitId,s.msg.fc]++wordBytes first++wordBytes second) s.line.rx s.line.led
      (by simp only [List.length_append,wordBytes_length]; simp)
    refine ⟨t,?_,happ,hline⟩
    rw [putResHeader,bind_ok (putMsgHeader_run s),bind_ok (put2_reading _ _ _ _ _ (by simp)),
      bind_ok (put2_reading _ _ _ _ _ (by
        simp only [List.length_append,wordBytes_length]
        simp)),ht]

/-- A write that fits its format and addresses the parameter reaches the supply. -/
theorem answerWriteMultipleCoils_write (address quantity : Word) (bytes : Byte)
    (coils : Vector Byte 250) (s : Machine (App τ)) (ha : address.toNat=0)
    (hlo : 3≤quantity.toNat) (hhi : quantity.toNat≤0x07B0)
    (hb : bytes.toNat=(quantity.toNat+7)/8) :
    ∃ t,answerWriteMultipleCoils (nmbsServer overshift ps) address quantity bytes coils s=
      (.ok (),t) ∧
      (((ps.setStatus (dataTypeOf coils) (valueOf overshift coils quantity.toNat)
          s.app.powerSupply).1<0 ∧
        t.app=App.setStatus ps (dataTypeOf coils) (valueOf overshift coils quantity.toNat) s.app ∧
        t.line=⟨s.line.rx,s.line.tx++
          [exceptionMessage s.msg.unitId s.msg.fc .exceptionIllegalDataValue],false⟩) ∨
      (¬(ps.setStatus (dataTypeOf coils) (valueOf overshift coils quantity.toNat)
          s.app.powerSupply).1<0 ∧
        t.app=(App.setStatus ps (dataTypeOf coils) (valueOf overshift coils quantity.toNat)
          s.app).communicate ps ∧
        Answered s (sealed ([s.msg.unitId,s.msg.fc]++wordBytes address++wordBytes quantity)) t)) := by
  have hrun := (handleWriteData_run overshift ps address quantity coils s.msg.unitId s.app
    (by omega)).trans (if_neg (by unfold coilsWriteMinCount writtenDataTypeCoils; omega))
  have hunit : unitId s=(.ok s.msg.unitId,s) := rfl
  have hne : ¬bytes=0#8 := by
    intro h
    rw [h,BitVec.toNat_zero] at hb
    omega
  rw [answerWriteMultipleCoils,if_neg (by omega),if_neg (by omega),if_neg hne,if_neg (by omega)]
  dsimp only [nmbsServer]
  rw [bind_ok hunit]
  by_cases hcode : (ps.setStatus (dataTypeOf coils) (valueOf overshift coils quantity.toNat)
      s.app.powerSupply).1<0
  · rw [if_pos hcode] at hrun
    rw [bind_ok (call_run hrun)]
    obtain ⟨t,ht,happ,hline⟩ := sendExceptionMsg_run .exceptionIllegalDataValue
      {s with app :=
        (App.setStatus ps (dataTypeOf coils) (valueOf overshift coils quantity.toNat) s.app)}
    exact ⟨t,ht,.inl ⟨hcode,happ,hline⟩⟩
  · rw [if_neg hcode] at hrun
    rw [bind_ok (call_run hrun)]
    obtain ⟨t,ht,happ,hline⟩ := answerEcho_run address quantity
      {s with app := (App.setStatus ps (dataTypeOf coils)
        (valueOf overshift coils quantity.toNat) s.app).communicate ps}
    exact ⟨t,ht,.inr ⟨hcode,happ,hline⟩⟩

/-- Any other write of coils is refused. -/
theorem answerWriteMultipleCoils_other (address quantity : Word) (bytes : Byte)
    (coils : Vector Byte 250) (s : Machine (App τ))
    (h : ¬(address.toNat=0 ∧ 3≤quantity.toNat ∧ quantity.toNat≤0x07B0 ∧
      bytes.toNat=(quantity.toNat+7)/8)) :
    Refused (answerWriteMultipleCoils (nmbsServer overshift ps) address quantity bytes coils) s := by
  rw [answerWriteMultipleCoils]
  by_cases hformat : (quantity.toNat<1 ∨ quantity.toNat>0x07B0) ∨
      ¬(quantity.toNat+7)/8=bytes.toNat
  · rcases hformat with hq | hb
    · rw [if_pos hq]
      exact refused_send rfl s
    · rw [if_pos hb]
      exact refused_ite (refused_send rfl s) (refused_ite (refused_send rfl s)
        (refused_ite (refused_send rfl s) (refused_send rfl s)))
  · refine refused_ite (refused_send rfl s) (refused_ite (refused_send rfl s)
      (refused_ite (refused_send rfl s) (refused_ite (refused_send rfl s) ?_)))
    have hrun := (handleWriteData_run overshift ps address quantity coils s.msg.unitId s.app
      (by omega)).trans (if_pos (by unfold coilsWriteMinCount writtenDataTypeCoils; omega))
    have hunit : unitId s=(.ok s.msg.unitId,s) := rfl
    obtain ⟨e,t,he,ht,hs⟩ := refused_send (e:=.exceptionIllegalDataAddress) rfl s
    refine ⟨e,t,he,?_,hs⟩
    dsimp only [nmbsServer]
    rw [bind_ok hunit,bind_ok (call_run hrun)]
    exact ht

/-- A write of coils is answered. -/
theorem answer_writeCoils {fc : Byte} (hfc : fc.toNat=15) (frame : List Byte)
    (s : Machine (App τ)) :
    Answer overshift ps fc frame s (answerWriteMultipleCoils (nmbsServer overshift ps)
      (wordAt frame 2) (wordAt frame 4) (byteAt frame 6) (coilsOf frame) s) := by
  by_cases hw : IsWrite fc frame
  · obtain ⟨_,ha,hlo,hhi,hb⟩ := hw
    obtain ⟨t,ht,hcases⟩ := answerWriteMultipleCoils_write overshift ps (wordAt frame 2)
      (wordAt frame 4) (byteAt frame 6) (coilsOf frame) s ha hlo hhi hb
    rw [ht]
    rcases hcases with ⟨hcode,happ,hline⟩ | ⟨hcode,happ,hline⟩
    · exact .declined t ⟨hfc,ha,hlo,hhi,hb⟩ hcode happ hline
    · exact .written t ⟨hfc,ha,hlo,hhi,hb⟩ hcode happ hline
  · have hother := answerWriteMultipleCoils_other overshift ps (wordAt frame 2) (wordAt frame 4)
      (byteAt frame 6) (coilsOf frame) s (fun h => hw ⟨hfc,h⟩)
    exact answer_refused overshift ps hother (fun hr => by have h4 := hr.1; omega) hw
      (fun h21 => by omega)

/-- A read of input registers is answered. -/
theorem answer_readInput {fc : Byte} (hfc : fc.toNat=4) (frame : List Byte)
    (s : Machine (App τ)) :
    Answer overshift ps fc frame s (answerReadRegisters (some (handleReadData ps))
      (wordAt frame 2) (wordAt frame 4) s) := by
  by_cases hr : IsRead fc frame
  · obtain ⟨t,ht,happ,hline⟩ := answerReadRegisters_read ps (wordAt frame 2) (wordAt frame 4) s
      hr.2.1 hr.2.2
    rw [ht]
    exact .read t hr happ hline
  · have hother := answerReadRegisters_other ps (wordAt frame 2) (wordAt frame 4) s
      (fun h => hr ⟨hfc,h⟩)
    exact answer_refused overshift ps hother hr (fun hw => by have h15 := hw.1; omega)
      (fun h21 => by omega)

/-- A write of file records is answered. -/
theorem answer_writeRecords {fc : Byte} (hfc : fc.toNat=21) (frame : List Byte)
    (s : Machine (App τ)) :
    Answer overshift ps fc frame s
      (answerWriteFileRecord (nmbsServer overshift ps) (byteAt frame 2) 3 s) := by
  obtain ⟨hleft,hrefused⟩ := answerWriteFileRecord_run (nmbsServer overshift ps) rfl
    (byteAt frame 2) s
  by_cases hleave : RecordsLeave s.msg.buf (byteAt frame 2)
  · obtain ⟨x,t,ht,hk⟩ := hleft hleave
    rw [ht]
    exact .left x t hfc hleave hk
  · exact answer_refused overshift ps (hrefused hleave) (fun hr => by have h4 := hr.1; omega)
      (fun hw => by have h15 := hw.1; omega) (fun _ => hleave)

/-- Every request that has a layout is answered. -/
theorem answerRequest_answer {fc : Byte} {lay : Layout} (hl : requestLayout fc=some lay)
    (frame : List Byte) (s : Machine (App τ)) :
    Answer overshift ps fc frame s (answerRequest (nmbsServer overshift ps) fc frame s) := by
  have hother : ∀ {p : Nmbs (App τ) Unit},Refused p s → fc.toNat≠4 → fc.toNat≠15 →
      fc.toNat≠21 → Answer overshift ps fc frame s (p s) := by
    intro p hp h4 h15 h21
    exact answer_refused overshift ps hp (fun hr => h4 hr.1) (fun hw => h15 hw.1)
      (fun h => absurd h h21)
  rw [requestLayout] at hl
  rw [answerRequest]
  generalize hfc : fc.toNat=n at hl hother ⊢
  split at hl
  · exact hother (refused_readDiscrete _ _ s) (by omega) (by omega) (by omega)
  · exact hother (refused_readDiscrete _ _ s) (by omega) (by omega) (by omega)
  · exact hother (refused_readRegisters _ _ s) (by omega) (by omega) (by omega)
  · exact answer_readInput overshift ps hfc frame s
  · exact hother (refused_writeSingleCoil rfl _ _ s) (by omega) (by omega) (by omega)
  · exact answer_writeCoils overshift ps hfc frame s
  · exact hother (refused_writeRegisters rfl _ _ _ _ s) (by omega) (by omega) (by omega)
  · exact hother (refused_readFileRecord rfl _ _ s) (by omega) (by omega) (by omega)
  · exact answer_writeRecords overshift ps hfc frame s
  · exact hother (refused_readWrite rfl _ _ _ _ _ _ s) (by omega) (by omega) (by omega)
  · cases hl

end CyclotronPico.ServerAnswers
