import CyclotronPico.NanomodbusServer
import CyclotronPico.SupplyInterface
import Mathlib.Data.List.Range

/-!
# The server of a power supply

The server registers two callbacks with the Modbus library: one reads the
supply into three input registers, one decodes a parameter from coils and
sets it. The model keeps, next to the supply, a log of the calls of
`setStatus`, so that what the server commands can be compared with what it
received.
-/

namespace CyclotronPico.ModbusServer

open BitBuffer Effects PicoController Nanomodbus NanomodbusServer SupplyInterface

/-- One call of `setStatus` and the code it returned. -/
structure SetStatusCall where
  /-- The parameter. -/
  dataType : Byte
  /-- Its value. -/
  value : Word
  /-- The code returned; negative refuses. -/
  code : ℤ
  deriving DecidableEq

/-- The state behind the callbacks. -/
structure App (τ : Type) where
  /-- The supply. -/
  powerSupply : τ
  /-- The calls of `setStatus` so far, oldest first. -/
  calls : List SetStatusCall

/-- What the language leaves open: the result of shifting a bit of an `int`
by its width or more. -/
abbrev Overshift := Bool → ℕ → BitVec 32

variable {τ : Type}

/-- Registers of a read answer. -/
def registersReadSize : ℕ := 3

/-- Coils that encode the parameter. -/
def writtenDataTypeCoils : ℕ := 2

/-- The fewest coils of a write. -/
def coilsWriteMinCount : ℕ := writtenDataTypeCoils+1

/-- The address of this server. -/
def rtuServerAddress : Byte := 1#8

/-- Read coil `b` of a bitfield. -/
def nmbsBitfieldRead (bf : Vector Byte 250) (b : ℕ) : Callback (App τ) Bool :=
  if h : b/8<250 then pure (decide (bf[b/8]&&&(1#8)<<<(b%8)≠0#8)) else halt (.coils (b/8))

/-- A bit of an `int`, shifted left. -/
def shiftLeft (overshift : Overshift) (bit : Bool) (amount : ℕ) : BitVec 32 :=
  if amount<32 then (BitVec.ofNat 32 bit.toNat)<<<amount else overshift bit amount

/-- The amount by which the decoding loop shifts coil `i` of `quantity`. -/
def shiftAmount (quantity i : ℕ) : ℕ := quantity-i-1

/-- The decoding loop from coil `i` on: add each coil at its place to the
sixteen-bit value. -/
def decodeValue (overshift : Overshift) (coils : Vector Byte 250) (quantity : ℕ) (value : Word)
    (i : ℕ) : ℕ → Callback (App τ) Word
  | 0 => pure value
  | n+1 => do
    let bit ← nmbsBitfieldRead coils i
    let value := (value.setWidth 32+shiftLeft overshift bit (shiftAmount quantity i)).setWidth 16
    decodeValue overshift coils quantity value (i+1) n

/-- Call `setStatus` of the supply and log the call. -/
def setStatus (ps : PowerSupplyInterface τ) (dataType : Byte) (value : Word) :
    Callback (App τ) ℤ := do
  let code ← gets fun app => (ps.setStatus dataType value app.powerSupply).1
  modify fun app => ⟨(ps.setStatus dataType value app.powerSupply).2,
    app.calls++[⟨dataType,value,code⟩]⟩
  pure code

/-- Exchange set points and readings with the supply. -/
def App.communicate (ps : PowerSupplyInterface τ) (app : App τ) : App τ :=
  {app with powerSupply := ps.safeCommunicationWithPS app.powerSupply}

/-- The first read register: current, on/off, polarity, reset, remote. -/
def currentRegister (ps : PowerSupplyInterface τ) (p : τ) : Word :=
  BitVec.ofNat 16 ((ps.readCurrent p).toNat+((ps.isPowerCircuitOn p).toNat<<<currentReadBits)+
    ((ps.readPolarity p).toNat<<<(currentReadBits+1))+
    ((ps.readReset p).toNat<<<(currentReadBits+2))+((ps.isRemote p).toNat<<<(currentReadBits+3)))

/-- The second read register: voltage, errors, polarity set, on/off set. -/
def voltageRegister (ps : PowerSupplyInterface τ) (p : τ) : Word :=
  let setPolarityBit := voltageReadBits+errorReadBits
  BitVec.ofNat 16 ((ps.readVoltage p).toNat+((ps.readErrors p).toNat<<<voltageReadBits)+
    ((ps.getPolaritySet p).toNat<<<setPolarityBit)+
    ((ps.getIsOnSet p).toNat<<<(setPolarityBit+1)))

/-- The callback for input registers. -/
def handleReadData (ps : PowerSupplyInterface τ) (address quantity : Word) (_ : Byte) :
    Callback (App τ) (NmbsError×Vector Word 125) := do
  let registersOut := Vector.replicate 125 0#16
  if address.toNat≠0 ∨ quantity.toNat≠registersReadSize then
    pure (.exceptionIllegalDataAddress,registersOut)
  else do
    modify fun app => app.communicate ps
    let p ← gets fun app => app.powerSupply
    let registersOut := registersOut.set 0 (currentRegister ps p)
    let registersOut := registersOut.set 1 (voltageRegister ps p)
    let registersOut := registersOut.set 2 (ps.getLastSetCurrent p)
    pure (.errorNone,registersOut)

/-- The registers of a read answer. -/
def readRegisters (ps : PowerSupplyInterface τ) (p : τ) : Vector Word 125 :=
  (((Vector.replicate 125 0#16).set 0 (currentRegister ps p)).set 1 (voltageRegister ps p)).set 2
    (ps.getLastSetCurrent p)

/-- The callback for coils. -/
def handleWriteData (overshift : Overshift) (ps : PowerSupplyInterface τ)
    (address quantity : Word) (coils : Vector Byte 250) (_ : Byte) :
    Callback (App τ) NmbsError :=
  if address.toNat≠0 ∨ quantity.toNat<coilsWriteMinCount then
    pure .exceptionIllegalDataAddress
  else do
    let coil1 ← nmbsBitfieldRead coils 1
    let coil0 ← nmbsBitfieldRead coils 0
    let dataType := BitVec.ofNat 8 ((coil1.toNat<<<1)+coil0.toNat)
    let value ← decodeValue overshift coils quantity.toNat 0#16 writtenDataTypeCoils
      (quantity.toNat-writtenDataTypeCoils)
    let code ← setStatus ps dataType value
    if code<0 then pure .exceptionIllegalDataValue
    else do
      modify fun app => app.communicate ps
      pure .errorNone

/-- The server as the constructor builds it: two callbacks and its address, on
the processor of the firmware, which takes registers at even addresses only. -/
def nmbsServer (overshift : Overshift) (ps : PowerSupplyInterface τ) : NmbsServer (App τ) where
  addressRtu := rtuServerAddress
  callbacks := {
    readInputRegisters := some (handleReadData ps)
    writeMultipleCoils := some (handleWriteData overshift ps) }
  unaligned := false

/-- The running server: the library with its line and supply, and the fault
that ended the run, if any. -/
structure Server (τ : Type) where
  /-- The library, the line and the supply. -/
  machine : Machine (App τ)
  /-- The undefined access at which the run ended. -/
  fault : Option Fault

/-- A server that has just been built. -/
def Server.init (p : τ) (rx : List (Option Byte)) : Server τ :=
  ⟨⟨⟨Vector.replicate 260 0#8,0,0#8,0#8,false,false⟩,⟨rx,[],false⟩,⟨p,[]⟩⟩,none⟩

/-- Poll once; after an error, talk to the supply. A run that left defined
behaviour stays where it is. -/
def waitAndHandleRequest (overshift : Overshift) (ps : PowerSupplyInterface τ) (s : Server τ) :
    Server τ :=
  match s.fault with
  | some _ => s
  | none =>
    match nmbsServerPoll (nmbsServer overshift ps) s.machine with
    | (.ok _,m) => ⟨m,none⟩
    | (.err _,m) => ⟨{m with app := m.app.communicate ps},none⟩
    | (.fault x,m) => ⟨m,some x⟩

/-- The main loop, for a number of rounds. -/
def mainLoop (overshift : Overshift) (ps : PowerSupplyInterface τ) (n : ℕ) (s : Server τ) :
    Server τ :=
  (waitAndHandleRequest overshift ps)^[n] s

end CyclotronPico.ModbusServer
