import CyclotronPico.Nanomodbus

/-!
# The Modbus library: requests

The request handlers of the server, one per function code, and the poll that
receives one request and dispatches it. Each handler receives its request
first; then it answers it or, when the request goes to another unit, receives
and drops the response of that unit. The handler of function code 6 is
compiled out. A callback that is not registered is `none`.
-/

namespace CyclotronPico.NanomodbusServer

open BitBuffer Effects Nanomodbus

/-- A callback of the application: it acts on the application's state only. -/
abbrev Callback (σ α : Type) := Program σ NmbsError Fault α

/-- The callbacks of a server. -/
structure NmbsCallbacks (σ : Type) where
  /-- Address and quantity to coils. -/
  readCoils : Option (Word → Word → Byte → Callback σ (NmbsError×Vector Byte 250)) := none
  /-- Address and quantity to discrete inputs. -/
  readDiscreteInputs : Option (Word → Word → Byte → Callback σ (NmbsError×Vector Byte 250)) := none
  /-- Address and quantity to holding registers. -/
  readHoldingRegisters :
    Option (Word → Word → Byte → Callback σ (NmbsError×Vector Word 125)) := none
  /-- Address and quantity to input registers. -/
  readInputRegisters :
    Option (Word → Word → Byte → Callback σ (NmbsError×Vector Word 125)) := none
  /-- Address and value of a coil. -/
  writeSingleCoil : Option (Word → Bool → Byte → Callback σ NmbsError) := none
  /-- Address, quantity and values of coils. -/
  writeMultipleCoils :
    Option (Word → Word → Vector Byte 250 → Byte → Callback σ NmbsError) := none
  /-- Address, quantity and values of registers. -/
  writeMultipleRegisters : Option (Word → Word → List Word → Byte → Callback σ NmbsError) := none
  /-- File, record and length to registers. -/
  readFileRecord : Option (Word → Word → Word → Byte → Callback σ (NmbsError×List Word)) := none
  /-- File, record, values and length. -/
  writeFileRecord : Option (Word → Word → List Word → Word → Byte → Callback σ NmbsError) := none

/-- What `nmbs_server_create` fixes, and what it runs on. -/
structure NmbsServer (σ : Type) where
  /-- The address of this server. -/
  addressRtu : Byte
  /-- Its callbacks. -/
  callbacks : NmbsCallbacks σ
  /-- The processor takes registers at odd addresses. -/
  unaligned : Bool

/-- The address of requests to every unit. -/
def nmbsBroadcastAddress : Byte := 0#8

variable {σ : Type}

/-- Call a callback on the application. -/
def call {α : Type} (callback : Callback σ α) : Nmbs σ α :=
  zoom (fun s => s.app) (fun app s => {s with app := app}) callback

/-- The unit, the broadcast flag and the flag of a request to another unit. -/
def unitId : Nmbs σ Byte := gets fun s => s.msg.unitId

/-- Whether the request goes to every unit. -/
def broadcast : Nmbs σ Bool := gets fun s => s.msg.broadcast

/-- Whether the request goes to another unit. -/
def ignored : Nmbs σ Bool := gets fun s => s.msg.ignored

/-! ### Responses of other units -/

/-- The error that a received exception code stands for. -/
def receivedException (exception : Byte) : NmbsError :=
  if exception.toNat<1 ∨ exception.toNat>4 then .errorInvalidResponse
  else match exception.toNat with
    | 1 => .exceptionIllegalFunction
    | 2 => .exceptionIllegalDataAddress
    | 3 => .exceptionIllegalDataValue
    | _ => .exceptionServerDeviceFailure

/-- Receive the code of an exception response: it is the error of the call. -/
def recvException : Nmbs σ Unit := do
  recv 1
  let exception ← get1
  recvMsgFooter
  fail (receivedException exception)

/-- Receive the header of a response to the current request. -/
def recvResHeader : Nmbs σ Unit := do
  let reqUnitId ← unitId
  let reqFc ← gets fun s => s.msg.fc
  let header ← recvMsgHeader
  if header.2≠.errorNone then fail header.2
  else do
    let resUnitId ← unitId
    if resUnitId≠reqUnitId then fail .errorInvalidUnitId
    else do
      let resFc ← gets fun s => s.msg.fc
      if resFc≠reqFc then
        if (resFc.toNat : ℤ)-0x80=reqFc.toNat then recvException else fail .errorInvalidResponse
      else pure ()

/-- Take bytes one by one and drop them. -/
def dropBytes : ℕ → Nmbs σ Unit
  | 0 => pure ()
  | n+1 => do
    let _ ← get1
    dropBytes n

/-- Take registers one by one and drop them. -/
def dropRegs : ℕ → Nmbs σ Unit
  | 0 => pure ()
  | n+1 => do
    let _ ← get2
    dropRegs n

/-- Receive and drop a response that carries coils. -/
def recvReadDiscreteRes : Nmbs σ Unit := do
  recvResHeader
  recv 1
  let coilsBytes ← get1
  recv coilsBytes.toNat
  dropBytes coilsBytes.toNat
  recvMsgFooter

/-- Receive and drop a response that carries registers. -/
def recvReadRegistersRes (quantity : Word) : Nmbs σ Unit := do
  recvResHeader
  recv 1
  let registersBytes ← get1
  recv registersBytes.toNat
  dropRegs (registersBytes.toNat/2)
  recvMsgFooter
  if registersBytes.toNat≠quantity.toNat*2 then fail .errorInvalidResponse else pure ()

/-- Receive a response that repeats two words of the request, as those of
the single-value and the multiple-value writes do. -/
def recvEchoRes (first second : Word) : Nmbs σ Unit := do
  recvResHeader
  recv 4
  let firstRes ← get2
  let secondRes ← get2
  recvMsgFooter
  if firstRes≠first then fail .errorInvalidResponse
  else if secondRes≠second then fail .errorInvalidResponse
  else pure ()

/-- The response to a write of one coil repeats its address and value. -/
def recvWriteSingleCoilRes (address valueReq : Word) : Nmbs σ Unit := recvEchoRes address valueReq

/-- The response to a write of coils repeats its address and quantity. -/
def recvWriteMultipleCoilsRes (address quantity : Word) : Nmbs σ Unit :=
  recvEchoRes address quantity

/-- The response to a write of registers repeats its address and quantity. -/
def recvWriteMultipleRegistersRes (address quantity : Word) : Nmbs σ Unit :=
  recvEchoRes address quantity

/-- Receive and drop a response that carries a file record. -/
def recvReadFileRecordRes : Nmbs σ Unit := do
  recvResHeader
  recv 1
  let responseSize ← get1
  recv responseSize.toNat
  let subreqSize ← get1
  let subreqDataSize := subreqSize-1#8
  let _ ← get1
  let _ ← getN subreqDataSize.toNat
  recvMsgFooter

/-- Receive and drop a response that repeats a written file record. -/
def recvWriteFileRecordRes : Nmbs σ Unit := do
  recvResHeader
  recv 1
  let responseSize ← get1
  recv responseSize.toNat
  let _ ← get1
  let _ ← get2
  let _ ← get2
  let subreqRecordLength ← get2
  let subreqDataSize := subreqRecordLength*2#16
  let _ ← getN subreqDataSize.toNat
  recvMsgFooter

/-! ### Reading coils and registers -/

/-- Put the bytes of a bitfield into the response. -/
def putBytes (bitfield : Vector Byte 250) (i : ℕ) : ℕ → Nmbs σ Unit
  | 0 => pure ()
  | n+1 => do
    let b ← if h : i<250 then pure bitfield[i] else halt (.coils i)
    put1 b
    putBytes bitfield (i+1) n

/-- Put registers into the response. -/
def putWords (regs : Vector Word 125) (i : ℕ) : ℕ → Nmbs σ Unit
  | 0 => pure ()
  | n+1 => do
    let r ← if h : i<125 then pure regs[i] else halt (.registers i)
    put2 r
    putWords regs (i+1) n

/-- Check and answer a request for coils or discrete inputs. -/
def answerReadDiscrete
    (callback : Option (Word → Word → Byte → Callback σ (NmbsError×Vector Byte 250)))
    (address quantity : Word) : Nmbs σ Unit :=
  if quantity.toNat<1 ∨ quantity.toNat>2000 then sendExceptionMsg .exceptionIllegalDataValue
  else if address.toNat+quantity.toNat>0xFFFF+1 then
    sendExceptionMsg .exceptionIllegalDataAddress
  else match callback with
    | some callback => do
      let unit ← unitId
      let result ← call (callback address quantity unit)
      if result.1≠.errorNone then sendCallbackError result.1
      else do
        let toAll ← broadcast
        if toAll=true then pure ()
        else do
          let discreteBytes := BitVec.ofNat 8 ((quantity.toNat+7)/8)
          putResHeader
          put1 discreteBytes
          putBytes result.2 0 discreteBytes.toNat
          sendMsg
    | none => sendExceptionMsg .exceptionIllegalFunction

/-- Handle a request for coils or discrete inputs. -/
def handleReadDiscrete
    (callback : Option (Word → Word → Byte → Callback σ (NmbsError×Vector Byte 250))) :
    Nmbs σ Unit := do
  recv 4
  let address ← get2
  let quantity ← get2
  recvMsgFooter
  let other ← ignored
  if other=false then answerReadDiscrete callback address quantity
  else recvReadDiscreteRes

/-- Check and answer a request for registers. -/
def answerReadRegisters
    (callback : Option (Word → Word → Byte → Callback σ (NmbsError×Vector Word 125)))
    (address quantity : Word) : Nmbs σ Unit :=
  if quantity.toNat<1 ∨ quantity.toNat>125 then sendExceptionMsg .exceptionIllegalDataValue
  else if address.toNat+quantity.toNat>0xFFFF+1 then
    sendExceptionMsg .exceptionIllegalDataAddress
  else match callback with
    | some callback => do
      let unit ← unitId
      let result ← call (callback address quantity unit)
      if result.1≠.errorNone then sendCallbackError result.1
      else do
        let toAll ← broadcast
        if toAll=true then pure ()
        else do
          let regsBytes := BitVec.ofNat 8 (quantity.toNat*2)
          putResHeader
          put1 regsBytes
          putWords result.2 0 quantity.toNat
          sendMsg
    | none => sendExceptionMsg .exceptionIllegalFunction

/-- Handle a request for registers. -/
def handleReadRegisters
    (callback : Option (Word → Word → Byte → Callback σ (NmbsError×Vector Word 125))) :
    Nmbs σ Unit := do
  recv 4
  let address ← get2
  let quantity ← get2
  recvMsgFooter
  let other ← ignored
  if other=false then answerReadRegisters callback address quantity
  else recvReadRegistersRes quantity

/-- Function code 1. -/
def handleReadCoils (nmbs : NmbsServer σ) : Nmbs σ Unit :=
  handleReadDiscrete nmbs.callbacks.readCoils

/-- Function code 2. -/
def handleReadDiscreteInputs (nmbs : NmbsServer σ) : Nmbs σ Unit :=
  handleReadDiscrete nmbs.callbacks.readDiscreteInputs

/-- Function code 3. -/
def handleReadHoldingRegisters (nmbs : NmbsServer σ) : Nmbs σ Unit :=
  handleReadRegisters nmbs.callbacks.readHoldingRegisters

/-- Function code 4. -/
def handleReadInputRegisters (nmbs : NmbsServer σ) : Nmbs σ Unit :=
  handleReadRegisters nmbs.callbacks.readInputRegisters

/-! ### Writing coils and registers -/

/-- Answer a write with two words of the request, unless it goes to every unit. -/
def answerEcho (first second : Word) : Nmbs σ Unit := do
  let toAll ← broadcast
  if toAll=true then pure ()
  else do
    putResHeader
    put2 first
    put2 second
    sendMsg

/-- Check and answer a write of one coil. -/
def answerWriteSingleCoil (nmbs : NmbsServer σ) (address value : Word) : Nmbs σ Unit :=
  match nmbs.callbacks.writeSingleCoil with
  | some callback =>
    if value≠0#16 ∧ value≠0xFF00#16 then sendExceptionMsg .exceptionIllegalDataValue
    else do
      let unit ← unitId
      let err ← call (callback address (decide (value≠0#16)) unit)
      if err≠.errorNone then sendCallbackError err
      else answerEcho address value
  | none => sendExceptionMsg .exceptionIllegalFunction

/-- Function code 5. -/
def handleWriteSingleCoil (nmbs : NmbsServer σ) : Nmbs σ Unit := do
  recv 4
  let address ← get2
  let value ← get2
  recvMsgFooter
  let other ← ignored
  if other=false then answerWriteSingleCoil nmbs address value
  else recvWriteSingleCoilRes address value

/-- Take the coil bytes of a request into a bitfield. -/
def getCoils (coils : Vector Byte 250) (i : ℕ) : ℕ → Nmbs σ (Vector Byte 250)
  | 0 => pure coils
  | n+1 => do
    let b ← get1
    let coils ← if h : i<250 then pure (coils.set i b) else halt (.coils i)
    getCoils coils (i+1) n

/-- Check and answer a write of coils. -/
def answerWriteMultipleCoils (nmbs : NmbsServer σ) (address quantity : Word) (coilsBytes : Byte)
    (coils : Vector Byte 250) : Nmbs σ Unit :=
  if quantity.toNat<1 ∨ quantity.toNat>0x07B0 then sendExceptionMsg .exceptionIllegalDataValue
  else if address.toNat+quantity.toNat>0xFFFF+1 then
    sendExceptionMsg .exceptionIllegalDataAddress
  else if coilsBytes=0#8 then sendExceptionMsg .exceptionIllegalDataValue
  else if (quantity.toNat+7)/8≠coilsBytes.toNat then sendExceptionMsg .exceptionIllegalDataValue
  else match nmbs.callbacks.writeMultipleCoils with
    | some callback => do
      let unit ← unitId
      let err ← call (callback address quantity coils unit)
      if err≠.errorNone then sendCallbackError err
      else answerEcho address quantity
    | none => sendExceptionMsg .exceptionIllegalFunction

/-- Function code 15. -/
def handleWriteMultipleCoils (nmbs : NmbsServer σ) : Nmbs σ Unit := do
  recv 5
  let address ← get2
  let quantity ← get2
  let coilsBytes ← get1
  recv coilsBytes.toNat
  let coils ← getCoils (Vector.replicate 250 0#8) 0 coilsBytes.toNat
  recvMsgFooter
  let other ← ignored
  if other=false then answerWriteMultipleCoils nmbs address quantity coilsBytes coils
  else recvWriteMultipleCoilsRes address quantity

/-- Take registers of a request into a local array of the given length. -/
def getWords (bound i : ℕ) : ℕ → Nmbs σ (List Word)
  | 0 => pure []
  | n+1 => do
    let r ← get2
    if i<bound then do
      let rest ← getWords bound (i+1) n
      pure (r::rest)
    else halt (.registers i)

/-- Check and answer a write of registers. -/
def answerWriteMultipleRegisters (nmbs : NmbsServer σ) (address quantity : Word)
    (registersBytes : Byte) (registers : List Word) : Nmbs σ Unit :=
  if quantity.toNat<1 ∨ quantity.toNat>0x007B then sendExceptionMsg .exceptionIllegalDataValue
  else if address.toNat+quantity.toNat>0xFFFF+1 then
    sendExceptionMsg .exceptionIllegalDataAddress
  else if registersBytes=0#8 then sendExceptionMsg .exceptionIllegalDataValue
  else if registersBytes.toNat≠quantity.toNat*2 then sendExceptionMsg .exceptionIllegalDataValue
  else match nmbs.callbacks.writeMultipleRegisters with
    | some callback => do
      let unit ← unitId
      let err ← call (callback address quantity registers unit)
      if err≠.errorNone then sendCallbackError err
      else answerEcho address quantity
    | none => sendExceptionMsg .exceptionIllegalFunction

/-- Function code 16. -/
def handleWriteMultipleRegisters (nmbs : NmbsServer σ) : Nmbs σ Unit := do
  recv 5
  let address ← get2
  let quantity ← get2
  let registersBytes ← get1
  recv registersBytes.toNat
  let registers ← getWords 0x007B 0 (registersBytes.toNat/2)
  recvMsgFooter
  let other ← ignored
  if other=false then answerWriteMultipleRegisters nmbs address quantity registersBytes registers
  else recvWriteMultipleRegistersRes address quantity

/-! ### File records -/

/-- One sub-request of a request for file records. -/
structure Subreq where
  /-- Reference type, always 6. -/
  referenceType : Byte
  /-- File number. -/
  fileNumber : Word
  /-- Record number. -/
  recordNumber : Word
  /-- Record length, in registers. -/
  recordLength : Word

/-- Take the sub-requests of a request for file records. -/
def getSubreqs : ℕ → Nmbs σ (List Subreq)
  | 0 => pure []
  | n+1 => do
    let referenceType ← get1
    let fileNumber ← get2
    let recordNumber ← get2
    let recordLength ← get2
    let rest ← getSubreqs n
    pure (⟨referenceType,fileNumber,recordNumber,recordLength⟩::rest)

/-- The size of the response, in a byte. -/
def responseDataSize (subreqs : List Subreq) : Byte :=
  subreqs.foldl (fun size r => size+BitVec.ofNat 8 (2+r.recordLength.toNat*2)) 0#8

/-- Whether a sub-request passes the checks of the library. -/
def Subreq.accepted (r : Subreq) (maxLength : ℕ) : Bool :=
  decide (r.referenceType=0x06#8 ∧ r.fileNumber≠0x0000#16 ∧ r.recordNumber.toNat≤0x270F ∧
    r.recordLength.toNat ≤ maxLength)

/-- Put the records of the sub-requests into the response: whether all of
the calls succeeded, otherwise the error of the first that did not. -/
def putRecords (unaligned : Bool)
    (callback : Word → Word → Word → Byte → Callback σ (NmbsError×List Word)) :
    List Subreq → Nmbs σ NmbsError
  | [] => pure .errorNone
  | r::rest => do
    let size := r.recordLength.toNat*2
    put1 (BitVec.ofNat 8 (size+1))
    put1 0x06#8
    let i ← getN size
    let unit ← unitId
    let result ← call (callback r.fileNumber r.recordNumber r.recordLength unit)
    storeRegs unaligned i result.2
    if result.1≠.errorNone then pure result.1
    else do
      let _ ← swapRegs unaligned i r.recordLength.toNat
      putRecords unaligned callback rest

/-- Check and answer a request for file records. -/
def answerReadFileRecord (nmbs : NmbsServer σ) (requestSize : Byte) (subreqs : List Subreq) :
    Nmbs σ Unit :=
  if requestSize.toNat%7≠0 then sendExceptionMsg .exceptionIllegalDataValue
  else if requestSize.toNat<0x07 ∨ requestSize.toNat>0xF5 then
    sendExceptionMsg .exceptionIllegalDataValue
  else if subreqs.all (fun r => r.accepted 124)=false then
    sendExceptionMsg .exceptionIllegalDataAddress
  else do
    putResHeader
    put1 (responseDataSize subreqs)
    match nmbs.callbacks.readFileRecord with
    | some callback => do
      let err ← putRecords nmbs.unaligned callback subreqs
      if err≠.errorNone then sendCallbackError err
      else do
        let toAll ← broadcast
        if toAll=true then pure () else sendMsg
    | none => sendExceptionMsg .exceptionIllegalFunction

/-- Function code 20. -/
def handleReadFileRecord (nmbs : NmbsServer σ) : Nmbs σ Unit := do
  recv 1
  let requestSize ← get1
  recv requestSize.toNat
  let subreqs ← getSubreqs (requestSize.toNat/7)
  discardN (requestSize.toNat%7)
  recvMsgFooter
  let other ← ignored
  if other=false then answerReadFileRecord nmbs requestSize subreqs
  else recvReadFileRecordRes

/-- The first pass over the sub-requests of a write of file records: check
each header under the cursor and count the size down, wrapping at sixteen
bits, until less than a header is left. The fuel is one more than the bytes
of the buffer: every round moves the cursor, and past the buffer it faults. -/
def checkRecords : ℕ → ℕ → Nmbs σ (Option NmbsError)
  | 0,_ => halt (.msgBuf 260)
  | fuel+1,size => do
    let referenceType ← get1
    let fileNumber ← get2
    let recordNumber ← get2
    let recordLength ← get2
    discardN (recordLength.toNat*2)
    if Subreq.accepted ⟨referenceType,fileNumber,recordNumber,recordLength⟩ 122=false then
      pure (some .exceptionIllegalDataAddress)
    else
      let size := (size+65536-(7+recordLength.toNat*2))%65536
      if 7 ≤ size then checkRecords fuel size
      else if size≠0 then pure (some .exceptionIllegalDataValue) else pure none

/-- The second pass: hand each record to the callback. The fuel is as above. -/
def writeRecords (unaligned : Bool)
    (callback : Word → Word → List Word → Word → Byte → Callback σ NmbsError) :
    ℕ → ℕ → Nmbs σ NmbsError
  | 0,_ => halt (.msgBuf 260)
  | fuel+1,size => do
    discard1
    let fileNumber ← get2
    let recordNumber ← get2
    let recordLength ← get2
    let i ← bufIdx
    let data ← getRegs unaligned recordLength.toNat
    let unit ← unitId
    let err ← call (callback fileNumber recordNumber data recordLength unit)
    if err≠.errorNone then pure err
    else do
      let _ ← swapRegs unaligned i recordLength.toNat
      let size := (size+65536-(7+recordLength.toNat*2))%65536
      if 7 ≤ size then writeRecords unaligned callback fuel size else pure .errorNone

/-- Check and answer a write of file records whose data starts at `start`. -/
def answerWriteFileRecord (nmbs : NmbsServer σ) (requestSize : Byte) (start : ℕ) : Nmbs σ Unit := do
  setBufIdx start
  if requestSize.toNat<0x07 ∨ requestSize.toNat>0xFB then
    sendExceptionMsg .exceptionIllegalDataValue
  else do
    match ← checkRecords 261 requestSize.toNat with
    | some exception => sendExceptionMsg exception
    | none => do
      setBufIdx start
      match nmbs.callbacks.writeFileRecord with
      | some callback => do
        let err ← writeRecords nmbs.unaligned callback 261 requestSize.toNat
        if err≠.errorNone then sendCallbackError err
        else do
          let toAll ← broadcast
          if toAll=true then pure ()
          else do
            setBufIdx start
            discardN requestSize.toNat
            sendMsg
      | none => do
        discard1
        let _ ← get2
        let _ ← get2
        let recordLength ← get2
        let _ ← getRegs nmbs.unaligned recordLength.toNat
        sendExceptionMsg .exceptionIllegalFunction

/-- Function code 21. -/
def handleWriteFileRecord (nmbs : NmbsServer σ) : Nmbs σ Unit := do
  recv 1
  let requestSize ← get1
  recv requestSize.toNat
  let start ← bufIdx
  discardN requestSize.toNat
  recvMsgFooter
  let other ← ignored
  if other=false then answerWriteFileRecord nmbs requestSize start
  else recvWriteFileRecordRes

/-! ### Reading and writing registers at once -/

/-- Check and answer a request that writes registers and reads others. -/
def answerReadWriteRegisters (nmbs : NmbsServer σ)
    (readAddress readQuantity writeAddress writeQuantity : Word) (byteCountWrite : Byte)
    (registers : List Word) : Nmbs σ Unit :=
  if readQuantity.toNat<1 ∨ readQuantity.toNat>0x007D then
    sendExceptionMsg .exceptionIllegalDataValue
  else if writeQuantity.toNat<1 ∨ writeQuantity.toNat>0x007B then
    sendExceptionMsg .exceptionIllegalDataValue
  else if byteCountWrite.toNat≠writeQuantity.toNat*2 then
    sendExceptionMsg .exceptionIllegalDataValue
  else if readAddress.toNat+readQuantity.toNat>0xFFFF+1 then
    sendExceptionMsg .exceptionIllegalDataAddress
  else if writeAddress.toNat+writeQuantity.toNat>0xFFFF+1 then
    sendExceptionMsg .exceptionIllegalDataAddress
  else match nmbs.callbacks.writeMultipleRegisters,nmbs.callbacks.readHoldingRegisters with
    | some write,some read => do
      let unit ← unitId
      let err ← call (write writeAddress writeQuantity registers unit)
      if err≠.errorNone then sendCallbackError err
      else do
        let toAll ← broadcast
        if toAll=true then pure ()
        else do
          let result ← call (read readAddress readQuantity unit)
          if result.1≠.errorNone then sendCallbackError result.1
          else do
            let regsBytes := BitVec.ofNat 8 (readQuantity.toNat*2)
            putResHeader
            put1 regsBytes
            putWords result.2 0 readQuantity.toNat
            sendMsg
    | _,_ => sendExceptionMsg .exceptionIllegalFunction

/-- Function code 23. -/
def handleReadWriteRegisters (nmbs : NmbsServer σ) : Nmbs σ Unit := do
  recv 9
  let readAddress ← get2
  let readQuantity ← get2
  let writeAddress ← get2
  let writeQuantity ← get2
  let byteCountWrite ← get1
  recv byteCountWrite.toNat
  let registers ← getWords (byteCountWrite.toNat/2) 0 (byteCountWrite.toNat/2)
  recvMsgFooter
  let other ← ignored
  if other=false then
    answerReadWriteRegisters nmbs readAddress readQuantity writeAddress writeQuantity
      byteCountWrite registers
  else recvWriteMultipleRegistersRes writeAddress writeQuantity

/-! ### The poll -/

/-- Receive the header of a request and see whom it is for. -/
def recvReqHeader (nmbs : NmbsServer σ) : Nmbs σ (Bool×NmbsError) := do
  let header ← recvMsgHeader
  if header.2≠.errorNone then pure header
  else do
    let unit ← unitId
    if unit=nmbsBroadcastAddress then do
      modify fun s => {s with msg.broadcast := true}
      pure header
    else do
      modify fun s => {s with msg.ignored := decide (unit≠nmbs.addressRtu)}
      pure header

/-- The handler of a function code. -/
def handlerOf (nmbs : NmbsServer σ) (fc : ℕ) : Nmbs σ Unit :=
  match fc with
  | 1 => handleReadCoils nmbs
  | 2 => handleReadDiscreteInputs nmbs
  | 3 => handleReadHoldingRegisters nmbs
  | 4 => handleReadInputRegisters nmbs
  | 5 => handleWriteSingleCoil nmbs
  | 15 => handleWriteMultipleCoils nmbs
  | 16 => handleWriteMultipleRegisters nmbs
  | 20 => handleReadFileRecord nmbs
  | 21 => handleWriteFileRecord nmbs
  | 23 => handleReadWriteRegisters nmbs
  | _ => fail .exceptionIllegalFunction

/-- Dispatch on the function code. -/
def handleReqFc (nmbs : NmbsServer σ) : Nmbs σ Unit := do
  let fc ← gets fun s => s.msg.fc
  handlerOf nmbs fc.toNat

/-- What the poll does with the error of a handler: an exception is not an
error of the poll; after other errors the line is flushed when the request
was for another unit. -/
def afterError (err : NmbsError) : Nmbs σ Unit :=
  if err≠.errorNone ∧ nmbsErrorIsException err=false then do
    let other ← ignored
    if err≠.errorTimeout ∧ other=true then do
      let _ ← platformRead 0 260 false false
      fail err
    else fail err
  else pure ()

/-- Receive one request and handle it. -/
def nmbsServerPoll (nmbs : NmbsServer σ) : Nmbs σ Unit := do
  msgStateReset
  let header ← recvReqHeader nmbs
  if header.2≠.errorNone then
    if header.1=false ∧ header.2=.errorTimeout then fail .firstByteTimeout else fail header.2
  else do
    match ← attempt (handleReqFc nmbs) with
    | .ok () => pure ()
    | .error err => afterError err

end CyclotronPico.NanomodbusServer
