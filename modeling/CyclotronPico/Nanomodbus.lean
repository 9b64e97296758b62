import CyclotronPico.Effects
import CyclotronPico.PicoController
import Mathlib.Logic.Function.Iterate

/-!
# The Modbus library: messages

The message buffer of the library with its cursor, the checksum, and the
functions that receive and send one message over the serial line. The buffer
has 260 bytes; an access past its end is undefined and ends the run as a
fault that names the index. So does an access to a register at an odd address
on a processor that does not take it. The library is built for the RTU
transport only.
-/

namespace CyclotronPico.Nanomodbus

open BitBuffer Effects PicoController

/-- The error codes of the library. -/
inductive NmbsError where
  | firstByteTimeout
  | errorInvalidUnitId
  | errorInvalidTcpMbap
  | errorCrc
  | errorTransport
  | errorTimeout
  | errorInvalidResponse
  | errorInvalidArgument
  | errorNone
  | exceptionIllegalFunction
  | exceptionIllegalDataAddress
  | exceptionIllegalDataValue
  | exceptionServerDeviceFailure
  deriving DecidableEq

/-- The numeric values: library errors up to zero, Modbus exceptions above. -/
def NmbsError.code : NmbsError → ℤ
  | firstByteTimeout => -8
  | errorInvalidUnitId => -7
  | errorInvalidTcpMbap => -6
  | errorCrc => -5
  | errorTransport => -4
  | errorTimeout => -3
  | errorInvalidResponse => -2
  | errorInvalidArgument => -1
  | errorNone => 0
  | exceptionIllegalFunction => 1
  | exceptionIllegalDataAddress => 2
  | exceptionIllegalDataValue => 3
  | exceptionServerDeviceFailure => 4

/-- Whether an error code is a Modbus exception. -/
def nmbsErrorIsException (e : NmbsError) : Bool := decide (0<e.code ∧ e.code<5)

/-- An access that is not defined: past the end of an array, or misaligned. -/
inductive Fault where
  /-- Past the 260 bytes of the message buffer. -/
  | msgBuf (index : ℕ)
  /-- Past the 250 bytes of a coil bitfield. -/
  | coils (index : ℕ)
  /-- Past the end of a local array of registers. -/
  | registers (index : ℕ)
  /-- Registers at an odd address of a processor that does not take them there. -/
  | misaligned (index : ℕ)
  deriving DecidableEq

/-- The message being received or built. -/
structure Msg where
  /-- The bytes of the message. -/
  buf : Vector Byte 260
  /-- The cursor, a sixteen-bit number. -/
  bufIdx : ℕ
  /-- The unit the message is for or from. -/
  unitId : Byte
  /-- The function code. -/
  fc : Byte
  /-- The request goes to every unit. -/
  broadcast : Bool
  /-- The request goes to another unit. -/
  ignored : Bool

/-- The library together with the line it talks over and the state of the
application its callbacks act on. -/
structure Machine (σ : Type) where
  /-- The message being received or built. -/
  msg : Msg
  /-- The serial line. -/
  line : Line
  /-- The state of the application. -/
  app : σ

variable {σ : Type}

/-- A function of the library. -/
abbrev Nmbs (σ α : Type) := Program (Machine σ) NmbsError Fault α

/-! ### The buffer and its cursor -/

/-- Read one byte of the buffer. -/
def readBuf (i : ℕ) : Nmbs σ Byte := fun s =>
  if h : i<260 then (.ok s.msg.buf[i],s) else (.fault (.msgBuf i),s)

/-- Write one byte of the buffer. -/
def writeBuf (i : ℕ) (b : Byte) : Nmbs σ Unit := fun s =>
  if h : i<260 then (.ok (),{s with msg.buf := s.msg.buf.set i b}) else (.fault (.msgBuf i),s)

/-- Read the first bytes of the buffer, one after the other. -/
def readBufUpTo (count : ℕ) : Nmbs σ (List Byte) := fun s =>
  if count≤260 then (.ok (s.msg.buf.toList.take count),s) else (.fault (.msgBuf 260),s)

/-- Write bytes from a position on, one after the other. -/
def storeBytes (i : ℕ) : List Byte → Nmbs σ Unit
  | [] => pure ()
  | b::bs => do
    writeBuf i b
    storeBytes (i+1) bs

/-- The cursor. -/
def bufIdx : Nmbs σ ℕ := gets fun s => s.msg.bufIdx

/-- Move the cursor, which wraps at sixteen bits. -/
def discardN (n : ℕ) : Nmbs σ Unit :=
  modify fun s => {s with msg.bufIdx := (s.msg.bufIdx+n)%65536}

/-- Put the cursor somewhere. -/
def setBufIdx (i : ℕ) : Nmbs σ Unit := modify fun s => {s with msg.bufIdx := i}

/-- Move the cursor past one byte. -/
def discard1 : Nmbs σ Unit := discardN 1

/-- Take the byte under the cursor. -/
def get1 : Nmbs σ Byte := do
  let i ← bufIdx
  let result ← readBuf i
  discardN 1
  pure result

/-- Put a byte under the cursor. -/
def put1 (data : Byte) : Nmbs σ Unit := do
  let i ← bufIdx
  writeBuf i data
  discardN 1

/-- Take a word, high byte first. -/
def get2 : Nmbs σ Word := do
  let i ← bufIdx
  let high ← readBuf i
  let low ← readBuf (i+1)
  discardN 2
  pure ((high.setWidth 16)<<<8|||low.setWidth 16)

/-- Put a word, high byte first. -/
def put2 (data : Word) : Nmbs σ Unit := do
  let i ← bufIdx
  writeBuf i (((data>>>8)&&&0xFF#16).setWidth 8)
  writeBuf (i+1) (data.setWidth 8)
  discardN 2

/-- Skip bytes and hand out where they start. -/
def getN (n : ℕ) : Nmbs σ ℕ := do
  let i ← bufIdx
  discardN n
  pure i

/-- Registers of the buffer can be accessed through a pointer: there are none,
the processor takes registers at odd addresses, or they start at an even one,
as the buffer does. -/
def Accessible (unaligned : Bool) (i n : ℕ) : Prop := n=0 ∨ unaligned=true ∨ i%2=0

instance (unaligned : Bool) (i n : ℕ) : Decidable (Accessible unaligned i n) :=
  inferInstanceAs (Decidable (n=0 ∨ unaligned=true ∨ i%2=0))

/-- The loop that exchanges the bytes of registers, the last register first. -/
def swapRegsFrom (i : ℕ) : ℕ → Nmbs σ (List Word)
  | 0 => pure []
  | n+1 => do
    let high ← readBuf (i+2*n)
    let low ← readBuf (i+2*n+1)
    writeBuf (i+2*n) low
    writeBuf (i+2*n+1) high
    let rest ← swapRegsFrom i n
    pure (rest++[(high.setWidth 16)<<<8|||low.setWidth 16])

/-- Exchange the bytes of registers in place; the registers are those the
bytes spelled high byte first. -/
def swapRegs (unaligned : Bool) (i n : ℕ) : Nmbs σ (List Word) :=
  if Accessible unaligned i n then swapRegsFrom i n else halt (.misaligned i)

/-- Take registers, exchanging their bytes in place. -/
def getRegs (unaligned : Bool) (n : ℕ) : Nmbs σ (List Word) := do
  let i ← bufIdx
  discardN (n*2)
  swapRegs unaligned i n

/-- Write registers low byte first, as a callback does through a pointer. -/
def storeRegs (unaligned : Bool) (i : ℕ) (regs : List Word) : Nmbs σ Unit :=
  if Accessible unaligned i regs.length then
    storeBytes i (regs.flatMap fun (r : Word) => [r.setWidth 8,(r>>>8).setWidth 8])
  else halt (.misaligned i)

/-- Put the cursor to the start. -/
def msgBufReset : Nmbs σ Unit := setBufIdx 0

/-- Forget the message; its bytes stay in the buffer. -/
def msgStateReset : Nmbs σ Unit := modify fun s =>
  {s with msg := {s.msg with
    bufIdx := 0, unitId := 0#8, fc := 0#8, broadcast := false, ignored := false}}

/-! ### The checksum -/

/-- One bit of the division by the reflected polynomial. -/
def crcShift (crc : Word) : Word :=
  if crc&&&0x0001#16≠0#16 then (crc>>>1)^^^0xA001#16 else crc>>>1

/-- One byte of the checksum. -/
def crcByte (crc : Word) (b : Byte) : Word := crcShift^[8] (crc^^^b.setWidth 16)

/-- The checksum register after the bytes. -/
def crcRegister (data : List Byte) : Word := data.foldl crcByte 0xFFFF#16

/-- The checksum, with its bytes exchanged so that it is sent low byte first. -/
def nmbsCrcCalc (data : List Byte) : Word :=
  let crc := crcRegister data
  crc<<<8|||crc>>>8

/-! ### Receiving -/

/-- Call the transport to read to a place in the buffer. -/
def platformRead (i count : ℕ) (firstByteFromMsg lastByteFromMsg : Bool) : Nmbs σ ℤ := do
  let read ← gets fun s => readUart count firstByteFromMsg lastByteFromMsg s.line
  modify fun s => {s with line := read.2.2}
  storeBytes i read.1
  pure read.2.1

/-- Receive bytes under the cursor, which stays. -/
def recvBytes (count : ℕ) (firstByteFromMsg lastByteFromMsg : Bool) : Nmbs σ Unit := do
  let i ← bufIdx
  let ret ← platformRead i count firstByteFromMsg lastByteFromMsg
  if ret=count then pure ()
  else if ret<count then
    if ret<0 then fail .errorTransport else fail .errorTimeout
  else fail .errorTransport

/-- Receive bytes in the middle of a message. -/
def recv (count : ℕ) : Nmbs σ Unit := recvBytes count false false

/-- Receive the checksum and compare it with that of the bytes before the cursor. -/
def recvMsgFooter : Nmbs σ Unit := do
  let i ← bufIdx
  let data ← readBufUpTo i
  let crc := nmbsCrcCalc data
  recvBytes 2 false true
  let recvCrc ← get2
  if recvCrc≠crc then fail .errorCrc else pure ()

/-- Receive the unit and the function code: whether the first byte came, and
the error. -/
def recvMsgHeader : Nmbs σ (Bool×NmbsError) := do
  msgStateReset
  match ← attempt (recvBytes 1 true false) with
  | .error err => pure (false,err)
  | .ok () => do
    let unitId ← get1
    modify fun s => {s with msg.unitId := unitId}
    match ← attempt (recv 1) with
    | .error err => pure (true,err)
    | .ok () => do
      let fc ← get1
      modify fun s => {s with msg.fc := fc}
      pure (true,.errorNone)

/-! ### Sending -/

/-- Start a message with its unit and function code. -/
def putMsgHeader : Nmbs σ Unit := do
  msgBufReset
  let unitId ← gets fun s => s.msg.unitId
  put1 unitId
  let fc ← gets fun s => s.msg.fc
  put1 fc

/-- Hand the first bytes of the buffer to the transport. -/
def send (count : ℕ) : Nmbs σ Unit := do
  let data ← readBufUpTo count
  let ret ← gets fun s => (writeUart data s.line).1
  modify fun s => {s with line := (writeUart data s.line).2}
  if ret=count then pure ()
  else if ret<count then
    if ret<0 then fail .errorTransport else fail .errorTimeout
  else fail .errorTransport

/-- Append the checksum of the bytes before the cursor and send the message. -/
def sendMsg : Nmbs σ Unit := do
  let i ← bufIdx
  let data ← readBufUpTo i
  put2 (nmbsCrcCalc data)
  let i ← bufIdx
  send i

/-- Start a response. -/
def putResHeader : Nmbs σ Unit := putMsgHeader

/-- Send an exception response. -/
def sendExceptionMsg (exception : NmbsError) : Nmbs σ Unit := do
  modify fun s => {s with msg.fc := s.msg.fc+0x80#8}
  putMsgHeader
  put1 (BitVec.ofInt 8 exception.code)
  sendMsg

/-- Answer a callback that failed: with its exception, or with a device failure. -/
def sendCallbackError (err : NmbsError) : Nmbs σ Unit :=
  if nmbsErrorIsException err=true then sendExceptionMsg err
  else sendExceptionMsg .exceptionServerDeviceFailure

end CyclotronPico.Nanomodbus
