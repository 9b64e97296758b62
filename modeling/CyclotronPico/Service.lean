import CyclotronPico.Responses
import Mathlib.Data.Option.Defs

/-!
# What a server does for a request

The library without its buffer: what the application offers as functions on
its state, and the reply to each request as a function of the bytes of the
request. The library does exactly this, for every application, with the
buffer, the cursor and the checksum in between; file records are covered as
far as a server goes that offers none.
-/

namespace CyclotronPico.Service

open BitBuffer Effects PicoController Nanomodbus NanomodbusServer Frames Reception Requests
  Answers Responses

variable {σ : Type}

/-! ### Applications and replies -/

/-- What an application offers; what it does not offer is missing. -/
structure Handlers (σ : Type) where
  /-- Address and quantity to coils. -/
  readCoils : Option (Word → Word → Byte → σ → (NmbsError×Vector Byte 250)×σ) := none
  /-- Address and quantity to discrete inputs. -/
  readDiscreteInputs : Option (Word → Word → Byte → σ → (NmbsError×Vector Byte 250)×σ) := none
  /-- Address and quantity to holding registers. -/
  readHoldingRegisters : Option (Word → Word → Byte → σ → (NmbsError×Vector Word 125)×σ) := none
  /-- Address and quantity to input registers. -/
  readInputRegisters : Option (Word → Word → Byte → σ → (NmbsError×Vector Word 125)×σ) := none
  /-- Address and value of a coil. -/
  writeSingleCoil : Option (Word → Bool → Byte → σ → NmbsError×σ) := none
  /-- Address, quantity and values of coils. -/
  writeMultipleCoils : Option (Word → Word → Vector Byte 250 → Byte → σ → NmbsError×σ) := none
  /-- Address, quantity and values of registers. -/
  writeMultipleRegisters : Option (Word → Word → List Word → Byte → σ → NmbsError×σ) := none

/-- What a server replies. -/
inductive Reply where
  /-- The request is refused. -/
  | exception (e : NmbsError)
  /-- The request is carried out; what follows the unit and the function code. -/
  | content (body : List Byte)
  deriving DecidableEq

/-- The messages of a reply: a request for every unit is answered only when
it is refused. -/
def Reply.messages (u fc : Byte) (toAll : Bool) : Reply → List (List Byte)
  | exception e => [exceptionMessage u fc e]
  | content body => if toAll=true then [] else [sealed ([u,fc]++body)]

/-- The exception for a callback that failed. -/
def callbackException (e : NmbsError) : NmbsError :=
  if nmbsErrorIsException e=true then e else .exceptionServerDeviceFailure

/-- What is wrong with a range of addresses. -/
def rangeError (limit : ℕ) (address quantity : Word) : Option NmbsError :=
  if quantity.toNat<1 ∨ quantity.toNat>limit then some .exceptionIllegalDataValue
  else if address.toNat+quantity.toNat>0xFFFF+1 then some .exceptionIllegalDataAddress
  else none

/-- The content of a reply with coils: their bytes, counted. -/
def bitsBody (quantity : Word) (bits : Vector Byte 250) : List Byte :=
  BitVec.ofNat 8 ((quantity.toNat+7)/8)::bits.toList.take ((quantity.toNat+7)/8)

/-- The content of a reply with registers: their bytes, counted. -/
def wordsBody (quantity : Word) (regs : Vector Word 125) : List Byte :=
  BitVec.ofNat 8 (quantity.toNat*2)::(regs.toList.take quantity.toNat).flatMap wordBytes

/-- The reply to a call that returns data. -/
def replyData {α : Type} (body : α → List Byte) (r : (NmbsError×α)×σ) : Reply×σ :=
  if r.1.1=.errorNone then (.content (body r.1.2),r.2)
  else (.exception (callbackException r.1.1),r.2)

/-- The reply to a call that sets something. -/
def replyDone (body : List Byte) (r : NmbsError×σ) : Reply×σ :=
  if r.1=.errorNone then (.content body,r.2) else (.exception (callbackException r.1),r.2)

/-- The reply to a read of a range. -/
def serveRead {α : Type} (limit : ℕ) (handler : Option (Word → Word → Byte → σ → (NmbsError×α)×σ))
    (body : Word → α → List Byte) (u : Byte) (address quantity : Word) (app : σ) : Reply×σ :=
  match rangeError limit address quantity with
  | some e => (.exception e,app)
  | none =>
    match handler with
    | some handler => replyData (body quantity) (handler address quantity u app)
    | none => (.exception .exceptionIllegalFunction,app)

/-- The reply to a write of one coil. -/
def serveWriteCoil (h : Handlers σ) (u : Byte) (address value : Word) (app : σ) : Reply×σ :=
  match h.writeSingleCoil with
  | some handler =>
    if value≠0#16 ∧ value≠0xFF00#16 then (.exception .exceptionIllegalDataValue,app)
    else replyDone (wordBytes address++wordBytes value)
      (handler address (decide (value≠0#16)) u app)
  | none => (.exception .exceptionIllegalFunction,app)

/-- The reply to a write of a range whose content has a byte count. -/
def serveWrite {α : Type} (limit : ℕ) (size : ℕ → ℕ)
    (handler : Option (Word → Word → α → Byte → σ → NmbsError×σ)) (u : Byte)
    (address quantity : Word) (bytes : Byte) (values : α) (app : σ) : Reply×σ :=
  match rangeError limit address quantity with
  | some e => (.exception e,app)
  | none =>
    if bytes.toNat≠size quantity.toNat then (.exception .exceptionIllegalDataValue,app)
    else match handler with
      | some handler => replyDone (wordBytes address++wordBytes quantity)
          (handler address quantity values u app)
      | none => (.exception .exceptionIllegalFunction,app)

/-- The reply to a write of registers and a read of others. -/
def serveReadWrite (h : Handlers σ) (toAll : Bool) (u : Byte)
    (readAddress readQuantity writeAddress writeQuantity : Word) (bytes : Byte)
    (regs : List Word) (app : σ) : Reply×σ :=
  if (readQuantity.toNat<1 ∨ readQuantity.toNat>125) ∨
      (writeQuantity.toNat<1 ∨ writeQuantity.toNat>123) ∨
      bytes.toNat≠writeQuantity.toNat*2 then (.exception .exceptionIllegalDataValue,app)
  else if readAddress.toNat+readQuantity.toNat>0xFFFF+1 ∨
      writeAddress.toNat+writeQuantity.toNat>0xFFFF+1 then
    (.exception .exceptionIllegalDataAddress,app)
  else match h.writeMultipleRegisters,h.readHoldingRegisters with
    | some write,some read =>
      let written := write writeAddress writeQuantity regs u app
      if written.1≠.errorNone then (.exception (callbackException written.1),written.2)
      else if toAll=true then (.content [],written.2)
      else replyData (wordsBody readQuantity) (read readAddress readQuantity u written.2)
    | _,_ => (.exception .exceptionIllegalFunction,app)

/-- Why a request for file records is refused by a server that offers none. -/
def readRecordsError (size : Byte) (subreqs : List Subreq) : NmbsError :=
  if size.toNat%7≠0 ∨ size.toNat<0x07 ∨ size.toNat>0xF5 then .exceptionIllegalDataValue
  else if subreqs.all (fun r => r.accepted 124)=false then .exceptionIllegalDataAddress
  else .exceptionIllegalFunction

/-- Why a write of file records is refused by a server that offers none, given
how the walk over the records ends. -/
def writeRecordsError (size : Byte) (walk : Walk) : NmbsError :=
  if size.toNat<0x07 ∨ size.toNat>0xFB then .exceptionIllegalDataValue
  else match walk with
    | .refused e => e
    | _ => .exceptionIllegalFunction

/-- What a server does for a request, given how the walk over its file records
ends if it is a write of them. -/
def serve (h : Handlers σ) (walk : Walk) (toAll : Bool) (u fc : Byte) (frame : List Byte)
    (app : σ) : Reply×σ :=
  match fc.toNat with
  | 1 => serveRead 2000 h.readCoils bitsBody u (wordAt frame 2) (wordAt frame 4) app
  | 2 => serveRead 2000 h.readDiscreteInputs bitsBody u (wordAt frame 2) (wordAt frame 4) app
  | 3 => serveRead 125 h.readHoldingRegisters wordsBody u (wordAt frame 2) (wordAt frame 4) app
  | 4 => serveRead 125 h.readInputRegisters wordsBody u (wordAt frame 2) (wordAt frame 4) app
  | 5 => serveWriteCoil h u (wordAt frame 2) (wordAt frame 4) app
  | 15 => serveWrite 0x07B0 (fun q => (q+7)/8) h.writeMultipleCoils u (wordAt frame 2)
      (wordAt frame 4) (byteAt frame 6) (coilsOf frame) app
  | 16 => serveWrite 0x007B (fun q => q*2) h.writeMultipleRegisters u (wordAt frame 2)
      (wordAt frame 4) (byteAt frame 6) (registersOf frame 7 6) app
  | 20 => (.exception (readRecordsError (byteAt frame 2) (recordsOf frame)),app)
  | 21 => (.exception (writeRecordsError (byteAt frame 2) walk),app)
  | _ => serveReadWrite h toAll u (wordAt frame 2) (wordAt frame 4) (wordAt frame 6)
      (wordAt frame 8) (byteAt frame 10) (registersOf frame 11 10) app

/-! ### Callbacks -/

/-- A callback that returns what a function does. -/
def Does {α : Type} (callback : Callback σ α) (f : σ → α×σ) : Prop :=
  ∀ app,callback app=(.ok (f app).1,(f app).2)

/-- Callbacks for ranges, up to a quantity. -/
def DoesRead {α : Type} (limit : ℕ) (callback : Word → Word → Byte → Callback σ α)
    (handler : Word → Word → Byte → σ → α×σ) : Prop :=
  ∀ address quantity u,quantity.toNat≤limit →
    Does (callback address quantity u) (handler address quantity u)

/-- Callbacks for ranges with values, up to a quantity. -/
def DoesWrite {α : Type} (limit : ℕ) (callback : Word → Word → α → Byte → Callback σ NmbsError)
    (handler : Word → Word → α → Byte → σ → NmbsError×σ) : Prop :=
  ∀ address quantity values u,quantity.toNat≤limit →
    Does (callback address quantity values u) (handler address quantity values u)

/-- The callbacks of a server do what its application offers, for every
quantity that the library lets pass; no callback for file records. -/
structure Implements (nmbs : NmbsServer σ) (h : Handlers σ) : Prop where
  /-- Coils. -/
  readCoils : Option.Rel (DoesRead 2000) nmbs.callbacks.readCoils h.readCoils
  /-- Discrete inputs. -/
  readDiscreteInputs :
    Option.Rel (DoesRead 2000) nmbs.callbacks.readDiscreteInputs h.readDiscreteInputs
  /-- Holding registers. -/
  readHoldingRegisters :
    Option.Rel (DoesRead 125) nmbs.callbacks.readHoldingRegisters h.readHoldingRegisters
  /-- Input registers. -/
  readInputRegisters :
    Option.Rel (DoesRead 125) nmbs.callbacks.readInputRegisters h.readInputRegisters
  /-- One coil. -/
  writeSingleCoil :
    Option.Rel (fun callback handler => ∀ address value u,
      Does (callback address value u) (handler address value u))
      nmbs.callbacks.writeSingleCoil h.writeSingleCoil
  /-- Several coils. -/
  writeMultipleCoils :
    Option.Rel (DoesWrite 0x07B0) nmbs.callbacks.writeMultipleCoils h.writeMultipleCoils
  /-- Several registers. -/
  writeMultipleRegisters :
    Option.Rel (DoesWrite 0x007B) nmbs.callbacks.writeMultipleRegisters h.writeMultipleRegisters
  /-- No file records are read. -/
  readFileRecord : nmbs.callbacks.readFileRecord=none
  /-- No file records are written. -/
  writeFileRecord : nmbs.callbacks.writeFileRecord=none

/-! ### Serving -/

/-- A program replies to the current request as the server does. -/
def Serves (p : Nmbs σ Unit) (s : Machine σ) (r : Reply×σ) : Prop :=
  ∃ t,p s=(.ok (),t) ∧ t.app=r.2 ∧
    t.line=⟨s.line.rx,s.line.tx++r.1.messages s.msg.unitId s.msg.fc s.msg.broadcast,false⟩

/-- Sending an exception response. -/
theorem serves_exception (e : NmbsError) (s : Machine σ) :
    Serves (sendExceptionMsg e) s (.exception e,s.app) := by
  obtain ⟨t,ht,happ,hline⟩ := sendExceptionMsg_run e s
  exact ⟨t,ht,happ,hline⟩

/-- Answering a callback that failed. -/
theorem serves_callbackError (e : NmbsError) (s : Machine σ) :
    Serves (sendCallbackError e) s (.exception (callbackException e),s.app) := by
  rw [sendCallbackError,callbackException]
  split
  · exact serves_exception e s
  · exact serves_exception .exceptionServerDeviceFailure s

/-- A call of a callback that does what a function does. -/
theorem call_does {α : Type} {callback : Callback σ α} {f : σ → α×σ} (h : Does callback f)
    (s : Machine σ) : call callback s=(.ok (f s.app).1,{s with app := (f s.app).2}) := by
  rw [call,zoom,h s.app]

/-- A message that is transmitted unless the request is for every unit. -/
theorem serves_content {s : Machine σ} {body : List Byte} {p : Nmbs σ Unit}
    (hled : s.line.led=false) (hlen : body.length≤256)
    (hp : p (reading s [s.msg.unitId,s.msg.fc] [] s.line.rx s.line.led)=
      sendMsg (reading s ([s.msg.unitId,s.msg.fc]++body) [] s.line.rx s.line.led)) :
    Serves (broadcast>>=fun toAll => if toAll=true then pure ()
      else putResHeader>>=fun _ => p) s (.content body,s.app) := by
  have hall : broadcast s=(.ok s.msg.broadcast,s) := rfl
  rw [Serves,Reply.messages,bind_ok hall]
  by_cases hb : s.msg.broadcast=true
  · rw [if_pos hb,if_pos hb,List.append_nil,←hled]
    exact ⟨s,rfl,rfl,rfl⟩
  · rw [if_neg hb,if_neg hb]
    obtain ⟨t,ht,happ,hline⟩ := sendMsg_reading s ([s.msg.unitId,s.msg.fc]++body) s.line.rx
      s.line.led (by rw [List.length_append,List.length_cons,List.length_singleton]; omega)
    exact ⟨t,(bind_ok (putMsgHeader_run s)).trans (hp.trans ht),happ,hline⟩

/-- The bytes of a bitfield are put into the response. -/
theorem putBytes_reading (base : Machine σ) (xs : List Byte) (rx : List (Option Byte))
    (led : Bool) (bits : Vector Byte 250) {i n : ℕ} (hi : i+n≤250) (hx : xs.length+n≤260) :
    putBytes bits i n (reading base xs [] rx led)=
      (.ok (),reading base (xs++(bits.toList.drop i).take n) [] rx led) := by
  induction n generalizing xs i with
  | zero =>
    rw [List.take_zero,List.append_nil]
    rfl
  | succ n ih =>
    have hlt : i<bits.toList.length := by
      rw [Vector.length_toList]
      omega
    have hrest := ih (xs++[bits[i]]) (i:=i+1) (by omega)
      (by rw [List.length_append,List.length_singleton]; omega)
    rw [putBytes,dif_pos (by omega)]
    refine (bind_ok (put1_reading base xs rx led bits[i] (by omega))).trans (hrest.trans ?_)
    rw [List.drop_eq_getElem_cons hlt,List.take_succ_cons,List.append_assoc,
      List.singleton_append,Vector.getElem_toList]

/-- Registers are put into the response. -/
theorem putWords_reading (base : Machine σ) (xs : List Byte) (rx : List (Option Byte))
    (led : Bool) (regs : Vector Word 125) {i n : ℕ} (hi : i+n≤125) (hx : xs.length+2*n≤260) :
    putWords regs i n (reading base xs [] rx led)=
      (.ok (),reading base (xs++((regs.toList.drop i).take n).flatMap wordBytes) [] rx led) := by
  induction n generalizing xs i with
  | zero =>
    rw [List.take_zero,List.flatMap_nil,List.append_nil]
    rfl
  | succ n ih =>
    have hlt : i<regs.toList.length := by
      rw [Vector.length_toList]
      omega
    have hlen : (wordBytes regs[i]).length=2 := rfl
    have hrest := ih (xs++wordBytes regs[i]) (i:=i+1) (by omega)
      (by rw [List.length_append,hlen]; omega)
    rw [putWords,dif_pos (by omega)]
    refine (bind_ok (put2_reading base xs rx led regs[i] (by omega))).trans (hrest.trans ?_)
    rw [List.drop_eq_getElem_cons hlt,List.take_succ_cons,List.flatMap_cons,List.append_assoc,
      Vector.getElem_toList]

/-- The content with coils fits a message. -/
theorem bitsBody_length (quantity : Word) (bits : Vector Byte 250) :
    (bitsBody quantity bits).length≤256 := by
  rw [bitsBody,List.length_cons,List.length_take,Vector.length_toList]
  omega

/-- The bytes of registers are two for each. -/
theorem wordsBytes_length (ws : List Word) : (ws.flatMap wordBytes).length=2*ws.length := by
  induction ws with
  | nil => rfl
  | cons w ws ih =>
    have hlen : (wordBytes w).length=2 := rfl
    rw [List.flatMap_cons,List.length_append,hlen,ih,List.length_cons]
    omega

/-- The content with registers fits a message. -/
theorem wordsBody_length (quantity : Word) (regs : Vector Word 125) :
    (wordsBody quantity regs).length≤256 := by
  rw [wordsBody,List.length_cons,wordsBytes_length,List.length_take,Vector.length_toList]
  omega

/-- The response to a read of coils. -/
theorem serves_bits (quantity : Word) (bits : Vector Byte 250) (hq : quantity.toNat≤2000)
    {s : Machine σ} (hled : s.line.led=false) :
    Serves (broadcast>>=fun toAll => if toAll=true then pure ()
      else putResHeader>>=fun _ => put1 (BitVec.ofNat 8 ((quantity.toNat+7)/8))>>=fun _ =>
        putBytes bits 0 (BitVec.ofNat 8 ((quantity.toNat+7)/8)).toNat>>=fun _ => sendMsg) s
      (.content (bitsBody quantity bits),s.app) := by
  have hsize : (BitVec.ofNat 8 ((quantity.toNat+7)/8)).toNat=(quantity.toNat+7)/8 := by
    rw [BitVec.toNat_ofNat]
    omega
  refine serves_content hled (bitsBody_length quantity bits) ?_
  rw [hsize,bind_ok (put1_reading _ _ _ _ _ (by simp)),
    bind_ok (putBytes_reading _ _ _ _ bits (by omega) (by simp; omega))]
  rw [bitsBody,List.drop_zero,List.append_assoc]
  rfl

/-- The response to a read of registers. -/
theorem serves_words (quantity : Word) (regs : Vector Word 125) (hq : quantity.toNat≤125)
    {s : Machine σ} (hled : s.line.led=false) :
    Serves (broadcast>>=fun toAll => if toAll=true then pure ()
      else putResHeader>>=fun _ => put1 (BitVec.ofNat 8 (quantity.toNat*2))>>=fun _ =>
        putWords regs 0 quantity.toNat>>=fun _ => sendMsg) s
      (.content (wordsBody quantity regs),s.app) := by
  refine serves_content hled (wordsBody_length quantity regs) ?_
  rw [bind_ok (put1_reading _ _ _ _ _ (by simp)),
    bind_ok (putWords_reading _ _ _ _ regs (by omega) (by simp; omega))]
  rw [wordsBody,List.drop_zero,List.append_assoc]
  rfl

/-- The response to a write. -/
theorem serves_echo (first second : Word) {s : Machine σ} (hled : s.line.led=false) :
    Serves (answerEcho first second) s (.content (wordBytes first++wordBytes second),s.app) := by
  have hlen : (wordBytes first++wordBytes second).length=4 := rfl
  refine serves_content hled (by omega) ?_
  rw [bind_ok (put2_reading _ _ _ _ _ (by simp)),
    bind_ok (put2_reading _ _ _ _ _ (by
      simp only [List.length_append,List.length_cons,List.length_nil,wordBytes]
      omega)),List.append_assoc]

/-! ### Every request -/

/-- What is served after a call is served from the state that the call left. -/
theorem serves_call {α : Type} {callback : Callback σ α} {f : σ → α×σ} (h : Does callback f)
    {s : Machine σ} {k : α → Nmbs σ Unit} {r : Reply×σ}
    (hk : Serves (k (f s.app).1) {s with app := (f s.app).2} r) :
    Serves (call callback>>=k) s r := by
  obtain ⟨t,ht,happ,hline⟩ := hk
  exact ⟨t,(bind_ok (call_does h s)).trans ht,happ,hline⟩

/-- A call that returns data, and the response with them. -/
theorem serves_data {α : Type} {callback : Callback σ (NmbsError×α)}
    {f : σ → (NmbsError×α)×σ} (h : Does callback f) {s : Machine σ}
    {body : α → List Byte} {k : α → Nmbs σ Unit}
    (hk : ∀ a,Serves (k a) {s with app := (f s.app).2} (.content (body a),(f s.app).2)) :
    Serves (call callback>>=fun result => if result.1≠.errorNone then sendCallbackError result.1
      else k result.2) s (replyData body (f s.app)) := by
  refine serves_call h ?_
  rw [replyData]
  by_cases hnone : (f s.app).1.1=.errorNone
  · rw [if_pos hnone,if_neg (not_not.mpr hnone)]
    exact hk (f s.app).1.2
  · rw [if_neg hnone,if_pos hnone]
    exact serves_callbackError (f s.app).1.1 {s with app := (f s.app).2}

/-- A call that sets something, and the response to it. -/
theorem serves_done {callback : Callback σ NmbsError} {f : σ → NmbsError×σ}
    (h : Does callback f) {s : Machine σ} (hled : s.line.led=false) (first second : Word) :
    Serves (call callback>>=fun err => if err≠.errorNone then sendCallbackError err
      else answerEcho first second) s (replyDone (wordBytes first++wordBytes second) (f s.app)) := by
  refine serves_call h ?_
  rw [replyDone]
  by_cases hnone : (f s.app).1=.errorNone
  · rw [if_pos hnone,if_neg (not_not.mpr hnone)]
    exact serves_echo first second hled
  · rw [if_neg hnone,if_pos hnone]
    exact serves_callbackError (f s.app).1 {s with app := (f s.app).2}

/-- A write of registers, and the response with others unless the request is
for every unit. -/
theorem serves_written {write : Callback σ NmbsError} {f : σ → NmbsError×σ}
    (hwrite : Does write f) {read : Callback σ (NmbsError×Vector Word 125)}
    {g : σ → (NmbsError×Vector Word 125)×σ} (hread : Does read g) (quantity : Word)
    (hq : quantity.toNat≤125) {s : Machine σ} (hled : s.line.led=false) :
    Serves (call write>>=fun err => if err≠.errorNone then sendCallbackError err
      else broadcast>>=fun toAll => if toAll=true then pure ()
      else call read>>=fun result => if result.1≠.errorNone then sendCallbackError result.1
      else putResHeader>>=fun _ => put1 (BitVec.ofNat 8 (quantity.toNat*2))>>=fun _ =>
        putWords result.2 0 quantity.toNat>>=fun _ => sendMsg) s
      (if (f s.app).1≠.errorNone then (.exception (callbackException (f s.app).1),(f s.app).2)
        else if s.msg.broadcast=true then (.content [],(f s.app).2)
        else replyData (wordsBody quantity) (g (f s.app).2)) := by
  refine serves_call hwrite ?_
  by_cases hfail : (f s.app).1≠.errorNone
  · rw [if_pos hfail,if_pos hfail]
    exact serves_callbackError (f s.app).1 {s with app := (f s.app).2}
  rw [if_neg hfail,if_neg hfail]
  have hall : broadcast {s with app := (f s.app).2}=
      (.ok s.msg.broadcast,{s with app := (f s.app).2}) := rfl
  by_cases hb : s.msg.broadcast=true
  · rw [if_pos hb,Serves,bind_ok hall,if_pos hb]
    refine ⟨_,rfl,rfl,?_⟩
    rw [Reply.messages,if_pos hb,List.append_nil]
    dsimp only
    rw [←hled]
  · have hresponse : ∀ regs,Serves (putResHeader>>=fun _ =>
        put1 (BitVec.ofNat 8 (quantity.toNat*2))>>=fun _ =>
          putWords regs 0 quantity.toNat>>=fun _ => sendMsg)
        {s with app := (g (f s.app).2).2} (.content (wordsBody quantity regs),(g (f s.app).2).2) := by
      intro regs
      have hother : broadcast {s with app := (g (f s.app).2).2}=
          (.ok s.msg.broadcast,{s with app := (g (f s.app).2).2}) := rfl
      have hwords := serves_words quantity regs hq (s:={s with app := (g (f s.app).2).2}) hled
      rw [Serves,bind_ok hother,if_neg hb] at hwords
      exact hwords
    obtain ⟨t,ht,happ,hline⟩ := serves_data hread (s:={s with app := (f s.app).2}) hresponse
    rw [if_neg hb,Serves,bind_ok hall,if_neg hb]
    exact ⟨t,ht,happ,hline⟩

/-- The checks of a range, made one after the other. -/
theorem serves_range {limit : ℕ} {address quantity : Word} {p : Nmbs σ Unit} {s : Machine σ}
    {r : Reply×σ} (hp : rangeError limit address quantity=none → Serves p s r) :
    Serves (if quantity.toNat<1 ∨ quantity.toNat>limit then
        sendExceptionMsg .exceptionIllegalDataValue
      else if address.toNat+quantity.toNat>0xFFFF+1 then
        sendExceptionMsg .exceptionIllegalDataAddress
      else p) s
      (match rangeError limit address quantity with
        | some e => (.exception e,s.app)
        | none => r) := by
  rw [rangeError] at hp ⊢
  by_cases hq : quantity.toNat<1 ∨ quantity.toNat>limit
  · rw [if_pos hq,if_pos hq]
    exact serves_exception .exceptionIllegalDataValue s
  · rw [if_neg hq] at hp ⊢
    rw [if_neg hq]
    by_cases ha : address.toNat+quantity.toNat>0xFFFF+1
    · rw [if_pos ha,if_pos ha]
      exact serves_exception .exceptionIllegalDataAddress s
    · rw [if_neg ha] at hp ⊢
      rw [if_neg ha]
      exact hp rfl

/-- A quantity in range is at most the limit. -/
theorem range_le {limit : ℕ} {address quantity : Word}
    (h : rangeError limit address quantity=none) : quantity.toNat≤limit := by
  by_contra hq
  rw [rangeError,if_pos (by omega)] at h
  cases h

/-- Coils or discrete inputs are read. -/
theorem serves_readDiscrete {callback : Option (Word → Word → Byte →
      Callback σ (NmbsError×Vector Byte 250))}
    {handler : Option (Word → Word → Byte → σ → (NmbsError×Vector Byte 250)×σ)}
    (h : Option.Rel (DoesRead 2000) callback handler) (address quantity : Word) {s : Machine σ}
    (hled : s.line.led=false) :
    Serves (answerReadDiscrete callback address quantity) s
      (serveRead 2000 handler bitsBody s.msg.unitId address quantity s.app) := by
  unfold answerReadDiscrete serveRead
  refine serves_range fun hrange => ?_
  have hq := range_le hrange
  cases h with
  | none => exact serves_exception .exceptionIllegalFunction s
  | some hdoes =>
    exact serves_data (hdoes address quantity s.msg.unitId hq)
      (fun bits => serves_bits quantity bits hq hled)

/-- Registers are read. -/
theorem serves_readRegisters {callback : Option (Word → Word → Byte →
      Callback σ (NmbsError×Vector Word 125))}
    {handler : Option (Word → Word → Byte → σ → (NmbsError×Vector Word 125)×σ)}
    (h : Option.Rel (DoesRead 125) callback handler) (address quantity : Word) {s : Machine σ}
    (hled : s.line.led=false) :
    Serves (answerReadRegisters callback address quantity) s
      (serveRead 125 handler wordsBody s.msg.unitId address quantity s.app) := by
  unfold answerReadRegisters serveRead
  refine serves_range fun hrange => ?_
  have hq := range_le hrange
  cases h with
  | none => exact serves_exception .exceptionIllegalFunction s
  | some hdoes =>
    exact serves_data (hdoes address quantity s.msg.unitId hq)
      (fun regs => serves_words quantity regs hq hled)

variable {nmbs : NmbsServer σ} {h : Handlers σ}

/-- One coil is written. -/
theorem serves_writeSingleCoil (hi : Implements nmbs h) (address value : Word) {s : Machine σ}
    (hled : s.line.led=false) :
    Serves (answerWriteSingleCoil nmbs address value) s
      (serveWriteCoil h s.msg.unitId address value s.app) := by
  have hcoil := hi.writeSingleCoil
  rw [answerWriteSingleCoil,serveWriteCoil]
  generalize nmbs.callbacks.writeSingleCoil=callback at hcoil ⊢
  generalize h.writeSingleCoil=handler at hcoil ⊢
  cases hcoil with
  | none => exact serves_exception .exceptionIllegalFunction s
  | some hdoes =>
    dsimp only
    split
    · exact serves_exception .exceptionIllegalDataValue s
    · exact serves_done (hdoes address (decide (value≠0#16)) s.msg.unitId) hled address value

/-- Several coils are written. -/
theorem serves_writeMultipleCoils (hi : Implements nmbs h) (address quantity : Word)
    (bytes : Byte) (coils : Vector Byte 250) {s : Machine σ} (hled : s.line.led=false) :
    Serves (answerWriteMultipleCoils nmbs address quantity bytes coils) s
      (serveWrite 0x07B0 (fun q => (q+7)/8) h.writeMultipleCoils s.msg.unitId address quantity
        bytes coils s.app) := by
  have hcoils := hi.writeMultipleCoils
  unfold answerWriteMultipleCoils serveWrite
  generalize nmbs.callbacks.writeMultipleCoils=callback at hcoils ⊢
  generalize h.writeMultipleCoils=handler at hcoils ⊢
  refine serves_range fun hrange => ?_
  have hq := range_le hrange
  by_cases hsize : bytes.toNat≠(quantity.toNat+7)/8
  · rw [if_pos hsize,if_pos (Ne.symm hsize),ite_self]
    exact serves_exception .exceptionIllegalDataValue s
  · have hzero : ¬bytes=0#8 := by
      intro hb
      rw [rangeError] at hrange
      rw [hb,BitVec.toNat_zero] at hsize
      split at hrange
      · cases hrange
      · omega
    rw [if_neg hsize,if_neg hzero,if_neg (fun hb => hsize (Ne.symm hb))]
    cases hcoils with
    | none => exact serves_exception .exceptionIllegalFunction s
    | some hdoes =>
      exact serves_done (hdoes address quantity coils s.msg.unitId hq) hled address quantity

/-- Several registers are written. -/
theorem serves_writeMultipleRegisters (hi : Implements nmbs h) (address quantity : Word)
    (bytes : Byte) (regs : List Word) {s : Machine σ} (hled : s.line.led=false) :
    Serves (answerWriteMultipleRegisters nmbs address quantity bytes regs) s
      (serveWrite 0x007B (fun q => q*2) h.writeMultipleRegisters s.msg.unitId address quantity
        bytes regs s.app) := by
  have hregs := hi.writeMultipleRegisters
  unfold answerWriteMultipleRegisters serveWrite
  generalize nmbs.callbacks.writeMultipleRegisters=callback at hregs ⊢
  generalize h.writeMultipleRegisters=handler at hregs ⊢
  refine serves_range fun hrange => ?_
  have hq := range_le hrange
  by_cases hsize : bytes.toNat≠quantity.toNat*2
  · rw [if_pos hsize,if_pos hsize,ite_self]
    exact serves_exception .exceptionIllegalDataValue s
  · have hzero : ¬bytes=0#8 := by
      intro hb
      rw [rangeError] at hrange
      rw [hb,BitVec.toNat_zero] at hsize
      split at hrange
      · cases hrange
      · omega
    rw [if_neg hsize,if_neg hzero,if_neg hsize]
    cases hregs with
    | none => exact serves_exception .exceptionIllegalFunction s
    | some hdoes =>
      exact serves_done (hdoes address quantity regs s.msg.unitId hq) hled address quantity

/-- Registers are written and others are read. -/
theorem serves_readWriteRegisters (hi : Implements nmbs h) (readAddress readQuantity writeAddress
      writeQuantity : Word) (bytes : Byte) (regs : List Word) {s : Machine σ}
    (hled : s.line.led=false) :
    Serves (answerReadWriteRegisters nmbs readAddress readQuantity writeAddress writeQuantity
        bytes regs) s
      (serveReadWrite h s.msg.broadcast s.msg.unitId readAddress readQuantity writeAddress
        writeQuantity bytes regs s.app) := by
  have hwrite := hi.writeMultipleRegisters
  have hread := hi.readHoldingRegisters
  unfold answerReadWriteRegisters serveReadWrite
  generalize nmbs.callbacks.writeMultipleRegisters=writeCallback at hwrite ⊢
  generalize h.writeMultipleRegisters=writeHandler at hwrite ⊢
  generalize nmbs.callbacks.readHoldingRegisters=readCallback at hread ⊢
  generalize h.readHoldingRegisters=readHandler at hread ⊢
  by_cases hrq : readQuantity.toNat<1 ∨ readQuantity.toNat>125
  · rw [if_pos hrq,if_pos (.inl hrq)]
    exact serves_exception .exceptionIllegalDataValue s
  rw [if_neg hrq]
  by_cases hwq : writeQuantity.toNat<1 ∨ writeQuantity.toNat>123
  · rw [if_pos hwq,if_pos (.inr (.inl hwq))]
    exact serves_exception .exceptionIllegalDataValue s
  rw [if_neg hwq]
  by_cases hsize : bytes.toNat≠writeQuantity.toNat*2
  · rw [if_pos hsize,if_pos (.inr (.inr hsize))]
    exact serves_exception .exceptionIllegalDataValue s
  rw [if_neg hsize,if_neg (not_or.mpr ⟨hrq,not_or.mpr ⟨hwq,hsize⟩⟩)]
  by_cases hra : readAddress.toNat+readQuantity.toNat>0xFFFF+1
  · rw [if_pos hra,if_pos (.inl hra)]
    exact serves_exception .exceptionIllegalDataAddress s
  rw [if_neg hra]
  by_cases hwa : writeAddress.toNat+writeQuantity.toNat>0xFFFF+1
  · rw [if_pos hwa,if_pos (.inr hwa)]
    exact serves_exception .exceptionIllegalDataAddress s
  rw [if_neg hwa,if_neg (not_or.mpr ⟨hra,hwa⟩)]
  cases hwrite with
  | none => exact serves_exception .exceptionIllegalFunction s
  | some hdoesWrite =>
    cases hread with
    | none => exact serves_exception .exceptionIllegalFunction s
    | @some write write' hdoesRead =>
      exact serves_written (hdoesWrite writeAddress writeQuantity regs s.msg.unitId (by omega))
        (hdoesRead readAddress readQuantity s.msg.unitId (by omega)) readQuantity (by omega) hled

/-- File records are not offered for reading. -/
theorem serves_readFileRecord (hn : nmbs.callbacks.readFileRecord=none) (size : Byte)
    (subreqs : List Subreq) (s : Machine σ) :
    Serves (answerReadFileRecord nmbs size subreqs) s
      (.exception (readRecordsError size subreqs),s.app) := by
  rw [answerReadFileRecord,readRecordsError,hn]
  by_cases hmod : size.toNat%7≠0
  · rw [if_pos hmod,if_pos (.inl hmod)]
    exact serves_exception .exceptionIllegalDataValue s
  rw [if_neg hmod]
  by_cases hsize : size.toNat<0x07 ∨ size.toNat>0xF5
  · rw [if_pos hsize,if_pos (.inr hsize)]
    exact serves_exception .exceptionIllegalDataValue s
  rw [if_neg hsize,if_neg (not_or.mpr ⟨hmod,hsize⟩)]
  by_cases hall : subreqs.all (fun r => r.accepted 124)=false
  · rw [if_pos hall,if_pos hall]
    exact serves_exception .exceptionIllegalDataAddress s
  rw [if_neg hall,if_neg hall]
  obtain ⟨t,ht,happ,hline⟩ := serves_exception .exceptionIllegalFunction
    (reading s ([s.msg.unitId,s.msg.fc]++[responseDataSize subreqs]) [] s.line.rx s.line.led)
  refine ⟨t,?_,happ,hline⟩
  rw [putResHeader,bind_ok (putMsgHeader_run s),bind_ok (put1_reading _ _ _ _ _ (by simp))]
  exact ht

/-- An exception response from a moved cursor is one from where it was. -/
theorem serves_atIdx (e : NmbsError) (s : Machine σ) (i : ℕ) (buf : Vector Byte 260) :
    ∃ t,sendExceptionMsg e {atIdx s i with msg.buf := buf}=(.ok (),t) ∧ t.app=s.app ∧
      t.line=⟨s.line.rx,s.line.tx++[exceptionMessage s.msg.unitId s.msg.fc e],false⟩ := by
  obtain ⟨t,ht,happ,hline⟩ := sendExceptionMsg_run e {atIdx s i with msg.buf := buf}
  exact ⟨t,ht,happ,hline⟩

/-- Going over the first record again once all of them are accepted. -/
theorem skipRecord_run (unaligned : Bool) (s : Machine σ) (hfit : 3+7≤260)
    (hlen : (recordAt s.msg.buf 3 hfit).recordLength.toNat≤122) (k : Nmbs σ Unit) :
    ∃ i buf,(discard1>>=fun _ => get2>>=fun _ => get2>>=fun _ => get2>>=fun recordLength =>
      getRegs unaligned recordLength.toNat>>=fun _ => k) (atIdx s 3)=
        k {atIdx s i with msg.buf := buf} := by
  have hskip : discard1 (atIdx s 3)=(.ok (),atIdx s 4) := rfl
  have hget : ∀ n,getRegs unaligned n (atIdx s 10)=
      swapRegs unaligned 10 n (atIdx s ((10+n*2)%65536)) := fun _ => rfl
  obtain ⟨regs,buf,hswap⟩ := swapRegs_run unaligned
    (atIdx s ((10+(recordAt s.msg.buf 3 hfit).recordLength.toNat*2)%65536)) rfl
    (by omega : 10+2*(recordAt s.msg.buf 3 _).recordLength.toNat≤260)
  refine ⟨(10+(recordAt s.msg.buf 3 hfit).recordLength.toNat*2)%65536,buf,?_⟩
  rw [bind_ok hskip,bind_ok (get2_atIdx s (by omega)),bind_ok (get2_atIdx s (by omega)),
    bind_ok (get2_atIdx s (by omega))]
  exact bind_ok ((hget _).trans hswap)

/-- File records are not offered for writing. -/
theorem serves_writeFileRecord (hn : nmbs.callbacks.writeFileRecord=none) (size : Byte)
    (s : Machine σ) (hleave : ¬RecordsLeave s.msg.buf size) :
    Serves (answerWriteFileRecord nmbs size 3) s
      (.exception (writeRecordsError size (recordsWalk s.msg.buf 3 size.toNat)),s.app) := by
  have hstart : setBufIdx 3 s=(.ok (),atIdx s 3) := rfl
  have hwalk := checkRecords_walk s size.toNat (by omega : 260<261+3) (by omega : 3≤600)
  unfold writeRecordsError
  rw [answerWriteFileRecord,Serves,bind_ok hstart]
  by_cases hsize : size.toNat<0x07 ∨ size.toNat>0xFB
  · rw [if_pos hsize,if_pos hsize]
    exact serves_atIdx _ s 3 s.msg.buf
  rw [if_neg hsize,if_neg hsize]
  cases hw : recordsWalk s.msg.buf 3 size.toNat with
  | leaves => exact absurd ⟨by omega,by omega,hw⟩ hleave
  | refused e =>
    rw [hw] at hwalk
    obtain ⟨j,hj⟩ := hwalk
    rw [bind_ok hj]
    exact serves_atIdx e s j s.msg.buf
  | accepted =>
    rw [hw] at hwalk
    obtain ⟨j,hj⟩ := hwalk
    have hback : setBufIdx 3 (atIdx s j)=(.ok (),atIdx s 3) := rfl
    obtain ⟨i,buf,hskip⟩ := skipRecord_run nmbs.unaligned s (by omega)
      (accepted_length (recordsWalk_first hw))
      (sendExceptionMsg .exceptionIllegalFunction)
    rw [bind_ok hj,hn]
    dsimp only
    rw [bind_ok hback,hskip]
    exact serves_atIdx _ s i buf

/-- The server does for each of its requests what the library is there for. -/
theorem answerRequest_serves (hi : Implements nmbs h) (fc : Byte) {lay : Layout}
    (hl : requestLayout fc=some lay) (frame : List Byte) {s : Machine σ}
    (hled : s.line.led=false)
    (hleave : fc.toNat=21 → ¬RecordsLeave s.msg.buf (byteAt frame 2)) :
    Serves (answerRequest nmbs fc frame) s
      (serve h (recordsWalk s.msg.buf 3 (byteAt frame 2).toNat) s.msg.broadcast s.msg.unitId fc
        frame s.app) := by
  rw [requestLayout] at hl
  rw [answerRequest,serve]
  generalize fc.toNat=n at hl hleave ⊢
  split at hl
  · exact serves_readDiscrete hi.readCoils _ _ hled
  · exact serves_readDiscrete hi.readDiscreteInputs _ _ hled
  · exact serves_readRegisters hi.readHoldingRegisters _ _ hled
  · exact serves_readRegisters hi.readInputRegisters _ _ hled
  · exact serves_writeSingleCoil hi _ _ hled
  · exact serves_writeMultipleCoils hi _ _ _ _ hled
  · exact serves_writeMultipleRegisters hi _ _ _ _ hled
  · exact serves_readFileRecord hi.readFileRecord _ _ s
  · exact serves_writeFileRecord hi.writeFileRecord _ s (hleave rfl)
  · exact serves_readWriteRegisters hi _ _ _ _ _ _ hled
  · cases hl

/-! ### One poll -/

/-- The state in which a poll starts to receive. -/
def listening (s : Machine σ) : Machine σ :=
  {tagged s 0#8 0#8 false false with msg.bufIdx := 0}

/-- A request is for a server: it goes to its address or to every unit. -/
def Addressed (nmbs : NmbsServer σ) (u : Byte) : Prop := u=0#8 ∨ u=nmbs.addressRtu

instance (nmbs : NmbsServer σ) (u : Byte) : Decidable (Addressed nmbs u) :=
  inferInstanceAs (Decidable (u=0#8 ∨ u=nmbs.addressRtu))

/-- The library with a request for the server received. -/
def accepted (s : Machine σ) (u fc : Byte) (lay : Layout) : Machine σ :=
  reading (tagged s u fc (decide (u=0#8)) false) (lay.kept (arrivals s.line.rx)) []
    (s.line.rx.drop (lay.span (arrivals s.line.rx))) false

/-- The header of a request for the server is received. -/
theorem recvReqHeader_addressed (nmbs : NmbsServer σ) (s : Machine σ) {u fc : Byte}
    {as : List Byte} (h : arrivals s.line.rx=u::fc::as) (hu : Addressed nmbs u) :
    recvReqHeader nmbs (listening s)=(.ok (true,.errorNone),
      reading (tagged s u fc (decide (u=0#8)) false) [u,fc] [] (s.line.rx.drop 2) true) := by
  have hheader : recvMsgHeader (listening s)=(.ok (true,.errorNone),
      reading (tagged s u fc false false) [u,fc] [] (s.line.rx.drop 2) true) :=
    recvMsgHeader_full (listening s) h
  have hunit : unitId (reading (tagged s u fc false false) [u,fc] [] (s.line.rx.drop 2) true)=
      (.ok u,reading (tagged s u fc false false) [u,fc] [] (s.line.rx.drop 2) true) := rfl
  rw [recvReqHeader,bind_ok hheader,if_neg (not_not.mpr rfl)]
  refine (bind_ok hunit).trans ?_
  by_cases h0 : u=0#8
  · rw [decide_eq_true h0]
    exact congrFun (if_pos (h0 : u=nmbsBroadcastAddress)) _
  · have hown : decide (u≠nmbs.addressRtu)=false :=
      decide_eq_false (not_not.mpr (hu.resolve_left h0))
    rw [decide_eq_false h0]
    refine (congrFun (if_neg (h0 : ¬u=nmbsBroadcastAddress)) _).trans ?_
    rw [hown]
    rfl

/-- The bytes of the request that the line brings. -/
def frameIn (s : Machine σ) (lay : Layout) : List Byte :=
  (arrivals s.line.rx).take (lay.span (arrivals s.line.rx))

/-- How the walk over the file records of the request ends. -/
def walkIn (s : Machine σ) (lay : Layout) : Walk :=
  recordsWalk (overlay s.msg.buf (lay.kept (arrivals s.line.rx))) 3 (byteAt (frameIn s lay) 2).toNat

/-- What a server does for the request that the line brings. -/
def served (h : Handlers σ) (s : Machine σ) (u fc : Byte) (lay : Layout) : Reply×σ :=
  serve h (walkIn s lay) (decide (u=0#8)) u fc (frameIn s lay) s.app

/-- A request for the server is answered from the state in which it is
received. -/
theorem handleReqFc_answer (nmbs : NmbsServer σ) (s : Machine σ) {u fc : Byte} {as : List Byte}
    {lay : Layout} (hbs : arrivals s.line.rx=u::fc::as) (hl : requestLayout fc=some lay)
    (hr : lay.receive (arrivals s.line.rx)=.frame) :
    handleReqFc nmbs (reading (tagged s u fc (decide (u=0#8)) false) [u,fc] []
      (s.line.rx.drop 2) true)=
      answerRequest nmbs fc (frameIn s lay) (accepted s u fc lay) := by
  obtain ⟨_,hrest⟩ := arrivals_header hbs
  have hspan : 2≤lay.span (arrivals s.line.rx) := by
    rw [Layout.span]
    omega
  have hline : (s.line.rx.drop 2).drop (lay.span (arrivals s.line.rx)-2)=
      s.line.rx.drop (lay.span (arrivals s.line.rx)) := by
    rw [List.drop_drop,Nat.add_sub_cancel' hspan]
  have hreceived := handlerOf_received nmbs (tagged s u fc (decide (u=0#8)) false) u fc
    (s.line.rx.drop 2) hl
  unfold Received at hreceived
  rw [hrest,←hbs] at hreceived
  dsimp only at hreceived
  rw [hline,hr] at hreceived
  have hown : ignored (accepted s u fc lay)=(.ok false,accepted s u fc lay) := rfl
  refine Eq.trans hreceived ?_
  change answerOrDrop (answerRequest nmbs fc (frameIn s lay)) (dropResponse fc (frameIn s lay))
    (accepted s u fc lay)=_
  rw [answerOrDrop,bind_ok hown]
  rfl

/-- A poll over a request for the server ends as its answer does. -/
theorem poll_answer (nmbs : NmbsServer σ) (s : Machine σ) {u fc : Byte} {as : List Byte}
    {lay : Layout} (hbs : arrivals s.line.rx=u::fc::as) (hl : requestLayout fc=some lay)
    (hu : Addressed nmbs u) (hr : lay.receive (arrivals s.line.rx)=.frame) {t : Machine σ}
    (ht : answerRequest nmbs fc (frameIn s lay) (accepted s u fc lay)=(.ok (),t)) :
    nmbsServerPoll nmbs s=(.ok (),t) := by
  have hreset : msgStateReset s=(.ok (),listening s) := rfl
  rw [nmbsServerPoll,bind_ok hreset,bind_ok (recvReqHeader_addressed nmbs s hbs hu),
    if_neg (not_not.mpr rfl)]
  exact bind_ok (attempt_ok ((handleReqFc_answer nmbs s hbs hl hr).trans ht))

/-- So it does when the answer leaves the buffer. -/
theorem poll_answer_fault (nmbs : NmbsServer σ) (s : Machine σ) {u fc : Byte} {as : List Byte}
    {lay : Layout} (hbs : arrivals s.line.rx=u::fc::as) (hl : requestLayout fc=some lay)
    (hu : Addressed nmbs u) (hr : lay.receive (arrivals s.line.rx)=.frame) {x : Fault}
    {t : Machine σ}
    (ht : answerRequest nmbs fc (frameIn s lay) (accepted s u fc lay)=(.fault x,t)) :
    nmbsServerPoll nmbs s=(.fault x,t) := by
  have hreset : msgStateReset s=(.ok (),listening s) := rfl
  rw [nmbsServerPoll,bind_ok hreset,bind_ok (recvReqHeader_addressed nmbs s hbs hu),
    if_neg (not_not.mpr rfl)]
  exact bind_fault (attempt_fault ((handleReqFc_answer nmbs s hbs hl hr).trans ht))

/-- The buffer in which a request is received. -/
theorem accepted_buf (s : Machine σ) (u fc : Byte) (lay : Layout) :
    (accepted s u fc lay).msg.buf=overlay s.msg.buf (lay.kept (arrivals s.line.rx)) :=
  congrArg (overlay s.msg.buf) (List.append_nil _)

/-- A poll over a request for the server, for every server and application:
the reply of the server and nothing else is transmitted, the application is
left as its function leaves it, and exactly the request is taken from the
line. -/
theorem poll_serves (hi : Implements nmbs h) (s : Machine σ) {u fc : Byte} {as : List Byte}
    {lay : Layout} (hbs : arrivals s.line.rx=u::fc::as) (hl : requestLayout fc=some lay)
    (hu : Addressed nmbs u) (hr : lay.receive (arrivals s.line.rx)=.frame)
    (hleave : fc.toNat=21 → walkIn s lay≠.leaves) :
    ∃ t,nmbsServerPoll nmbs s=(.ok (),t) ∧ t.app=(served h s u fc lay).2 ∧
      t.line=⟨s.line.rx.drop (lay.span (arrivals s.line.rx)),s.line.tx++
        (served h s u fc lay).1.messages u fc (decide (u=0#8)),false⟩ := by
  obtain ⟨t,ht,happ,htline⟩ := answerRequest_serves hi fc hl (frameIn s lay)
    (s:=accepted s u fc lay) rfl (fun h21 h => hleave h21 (by
      rw [accepted_buf] at h
      exact h.2.2))
  rw [accepted_buf] at happ htline
  exact ⟨t,poll_answer nmbs s hbs hl hu hr ht,happ,htline⟩

/-- A server whose holding registers are all the same. -/
def constantServer (value : Word) : NmbsServer Unit :=
  ⟨1#8,{readHoldingRegisters := some fun _ _ _ => pure (.errorNone,Vector.replicate 125 value)},
    false⟩

/-- What it offers. -/
def constantHandlers (value : Word) : Handlers Unit where
  readHoldingRegisters := some fun _ _ _ app => ((.errorNone,Vector.replicate 125 value),app)

/-- It does what it offers. -/
theorem implements_constant (value : Word) :
    Implements (constantServer value) (constantHandlers value) where
  readCoils := .none
  readDiscreteInputs := .none
  readHoldingRegisters := .some fun _ _ _ _ _ => rfl
  readInputRegisters := .none
  writeSingleCoil := .none
  writeMultipleCoils := .none
  writeMultipleRegisters := .none
  readFileRecord := rfl
  writeFileRecord := rfl

/-- A server over which a read of one holding register is on the line. -/
def readOneRegister : Machine Unit :=
  ⟨⟨Vector.replicate 260 0#8,0,0#8,0#8,false,false⟩,
    ⟨(sealed [1#8,3#8,0#8,0#8,0#8,1#8]).map some,[],false⟩,()⟩

/-- The read is answered with the register. -/
theorem poll_serves_constant :
    ∃ t,nmbsServerPoll (constantServer 7#16) readOneRegister=(.ok (),t) ∧
      t.app=(served (constantHandlers 7#16) readOneRegister 1#8 3#8 (fixedLayout 6)).2 ∧
      t.line=⟨readOneRegister.line.rx.drop ((fixedLayout 6).span (arrivals readOneRegister.line.rx)),
        readOneRegister.line.tx++(served (constantHandlers 7#16) readOneRegister 1#8 3#8
          (fixedLayout 6)).1.messages 1#8 3#8 (decide (1#8=0#8)),false⟩ := by
  have harr : arrivals readOneRegister.line.rx=sealed [1#8,3#8,0#8,0#8,0#8,1#8] :=
    arrivals_bytes _
  have hl : requestLayout 3#8=some (fixedLayout 6) := rfl
  have hf : Filled (fixedLayout 6) [1#8,3#8,0#8,0#8,0#8,1#8] := rfl
  have hreceive := (receive_sealed hl hf []).mpr ⟨rfl,rfl⟩
  rw [List.append_nil,←harr] at hreceive
  exact poll_serves (implements_constant 7#16) readOneRegister harr hl (.inr rfl) hreceive
    (fun h21 => by cases h21)

end CyclotronPico.Service
