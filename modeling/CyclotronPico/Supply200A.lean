import CyclotronPico.BitFields
import CyclotronPico.FloatRounding
import CyclotronPico.SupplyInterface
import Mathlib.Tactic.IntervalCases

/-!
# The 200 A supply

The class that drives the supply over SPI: the frame to be sent, the last
frame received, the averaged current and the last current set. The bus is
part of the state: what the supply will answer to each frame, and every
frame clocked out so far, so that a law can be read off the wire.
-/

namespace CyclotronPico.Supply200A

open BitBuffer BitFields FloatRounding SupplyInterface

/-! ### Constants -/

/-- Full scale of the current, in ampere. -/
def psMaxCurrent : ℕ := 200

/-- Bytes received in one exchange. -/
def bufLenIn : ℕ := 6

/-- Bytes held to be sent. -/
def bufLenOut : ℕ := 4

/-- Samples averaged in one cycle. -/
def avrgComponentCount : ℕ := 5

/-- First bit of the measured current. -/
def psCurrentPos : ℕ := 8

/-- Bits of the measured current. -/
def psCurrentLen : ℕ := 12

/-- First bit of the measured voltage. -/
def psVoltagePos : ℕ := 8*3

/-- Bits of the measured voltage. -/
def psVoltageLen : ℕ := 12

/-- Collective error flag. -/
def psStatusErrorColectivePos : ℕ := 8*5

/-- External (cooling) error flag. -/
def psStatusErrorExternalPos : ℕ := 8*5+1

/-- Remote (1) or local (0) control. -/
def psStatusRemoteControlPos : ℕ := 8*5+2

/-- Power circuit on (1) or off (0). -/
def psStatusPowerCircuitPos : ℕ := 8*5+3

/-- First polarisation flag. -/
def psStatusPolarisation1Pos : ℕ := 8*5+4

/-- Second polarisation flag. -/
def psStatusPolarisation2Pos : ℕ := 8*5+5

/-- First bit of the current to be set. -/
def psOUTCurrentPos : ℕ := 0

/-- Bits of the current to be set. -/
def psOUTCurrentLen : ℕ := 16

/-- Power circuit on (1) or off (0), as a command. -/
def psOUTPowerCircuitPos : ℕ := 16+1

/-- Reset command. -/
def psOUTPsResetPos : ℕ := 16+2

/-- Electronic reset command. -/
def psOUTElectronicResetPos : ℕ := 16+4

/-- First bit that confirms a write of the current. -/
def psOUTConfirmCurrentWrite1Pos : ℕ := 16+5

/-- Second bit that confirms a write of the current. -/
def psOUTConfirmCurrentWrite2Pos : ℕ := 16+7

/-- Green LED. -/
def greenLed : ℕ := 24

/-- Red LED. -/
def redLed : ℕ := 24+1

/-! ### State -/

/-- The bus to the supply. -/
structure Spi where
  /-- What the supply answers to each frame, counted from power-up. -/
  reply : ℕ → Vector Byte 6
  /-- The frames clocked out so far, oldest first. -/
  sent : List (List Byte)

/-- The state of the driver. -/
structure PowerSupply200A where
  /-- The four bytes to be sent. -/
  psBufOut : Vector Byte 4
  /-- The last six bytes received. -/
  psBufIn : Vector Byte 6
  /-- The bus. -/
  psSpi : Spi
  /-- Average of the samples of the last cycle, in ampere. -/
  avrgCurrent : ℚ
  /-- The current last set over the server. -/
  currentSet : Word

/-- The constructor: both buffers zero, nothing set, nothing sent. -/
def PowerSupply200A.init (reply : ℕ → Vector Byte 6) : PowerSupply200A :=
  ⟨Vector.replicate 4 0#8,Vector.replicate 6 0#8,⟨reply,[]⟩,0,0#16⟩

variable (fp : FloatUnit)

/-! ### Reading the last frame -/

/-- Remote rather than local control. -/
def isRemote (p : PowerSupply200A) : Bool := getBit p.psBufIn psStatusRemoteControlPos

/-- The measured on/off state. -/
def isPowerCircuitOn (p : PowerSupply200A) : Bool := getBit p.psBufIn psStatusPowerCircuitPos

/-- The measured polarity: both polarisation flags. -/
def readPolarity (p : PowerSupply200A) : Bool :=
  getBit p.psBufIn psStatusPolarisation1Pos && getBit p.psBufIn psStatusPolarisation2Pos

/-- The supply reports no reset. -/
def readReset (_ : PowerSupply200A) : Bool := false

/-- The measured voltage. -/
def readVoltage (p : PowerSupply200A) : Word := readUint p.psBufIn psVoltagePos psVoltageLen

/-- The two error flags, external above collective. -/
def readErrors (p : PowerSupply200A) : Byte :=
  let err := BitVec.ofNat 8 (getBit p.psBufIn psStatusErrorExternalPos).toNat
  let err := err<<<1
  err+BitVec.ofNat 8 (getBit p.psBufIn psStatusErrorColectivePos).toNat

/-- The on/off state last set, a bit of the frame to be sent. -/
def getIsOnSet (p : PowerSupply200A) : Bool := getBit p.psBufOut psOUTPowerCircuitPos

/-- The supply has no polarity to set. -/
def getPolaritySet (_ : PowerSupply200A) : Bool := false

/-- The measured current of the last frame. -/
def readCurrentRaw (p : PowerSupply200A) : Word := readUint p.psBufIn psCurrentPos psCurrentLen

/-- The largest value of a field, as a float. -/
def maxPossibleValue (len : ℕ) : ℚ := fp.float.round (((1<<<len : ℕ) : ℤ)-1 : ℤ)

/-- The measured current in ampere: computed in double precision, returned
in single precision. -/
def freadCurrent (p : PowerSupply200A) : ℚ :=
  let product := fp.double.round (fp.double.round (1*psMaxCurrent)*(readCurrentRaw p).toNat)
  fp.float.round (fp.double.round (product/maxPossibleValue fp psCurrentLen))

/-- The averaged current in the unit of a field of `len` bits, before it is
converted to an integer. -/
def avrgCurrentScaled (p : PowerSupply200A) (len : ℕ) : ℚ :=
  fp.float.round (fp.float.round (p.avrgCurrent*maxPossibleValue fp len)/psMaxCurrent)

/-- The averaged current in the unit of the measurement. -/
def readCurrent (p : PowerSupply200A) : Word := toUint16 (avrgCurrentScaled fp p psCurrentLen)

/-- The current last set: under remote control the one set over the server,
under local control the averaged one in the unit of the set point. -/
def getLastSetCurrent (p : PowerSupply200A) : Word :=
  if isRemote p=true then p.currentSet else toUint16 (avrgCurrentScaled fp p psOUTCurrentLen)

/-! ### Writing the next frame -/

/-- Arm (1) or disarm (0) the write of the current. -/
def setCurrentWrite (p : PowerSupply200A) (st : Bool) : PowerSupply200A :=
  let out := setBit p.psBufOut psOUTConfirmCurrentWrite1Pos st
  {p with psBufOut := setBit out psOUTConfirmCurrentWrite2Pos st}

/-- Command a current. -/
def setCurrent (p : PowerSupply200A) (val : Word) : PowerSupply200A :=
  let p := setCurrentWrite p true
  {p with psBufOut := setUint p.psBufOut val psOUTCurrentPos psOUTCurrentLen true}

/-- Command the power circuit. -/
def setPowerCircuit (p : PowerSupply200A) (st : Bool) : PowerSupply200A :=
  let p := setCurrentWrite p true
  {p with psBufOut := setBit p.psBufOut psOUTPowerCircuitPos st}

/-- Command a reset. -/
def setReset (p : PowerSupply200A) (state : Bool) : PowerSupply200A :=
  let p := setCurrentWrite p true
  {p with psBufOut := setBit p.psBufOut psOUTPsResetPos state}

/-- Command an electronic reset. -/
def setElectronicReset (p : PowerSupply200A) (state : Bool) : PowerSupply200A :=
  let p := setCurrentWrite p true
  {p with psBufOut := setBit p.psBufOut psOUTElectronicResetPos state}

/-- Switch the green LED, without arming. -/
def setLedGreen (p : PowerSupply200A) (state : Bool) : PowerSupply200A :=
  {p with psBufOut := setBit p.psBufOut greenLed state}

/-- Switch the red LED, without arming. -/
def setLedRed (p : PowerSupply200A) (state : Bool) : PowerSupply200A :=
  {p with psBufOut := setBit p.psBufOut redLed state}

/-- Set a parameter: the power circuit or the current, nothing else. -/
def setStatus (dataType : Byte) (value : Word) (p : PowerSupply200A) : ℤ×PowerSupply200A :=
  match dataType.toNat with
  | 0 => (1,setPowerCircuit p (decide (value≠0#16)))
  | 3 => (1,setCurrent {p with currentSet := value} value)
  | _ => (-1,p)

/-! ### Exchanging frames -/

/-- One word of an exchange: a byte goes out, the first one repeated until
the buffers are level, and a byte comes in. -/
def exchangeWord (out : Vector Byte 4) (answer : Vector Byte 6)
    (state : Vector Byte 6×List Byte) (wordNr : ℕ) : Vector Byte 6×List Byte :=
  let outI := wordNr-(bufLenIn-bufLenOut)
  (state.1.setIfInBounds wordNr ((answer[wordNr]?).getD 0#8),
    state.2++[(out[outI]?).getD 0#8])

/-- Exchange one frame, then disarm the buffer. -/
def comunicateWithPS (p : PowerSupply200A) : PowerSupply200A :=
  let answer := p.psSpi.reply p.psSpi.sent.length
  let state := (List.range (max bufLenOut bufLenIn)).foldl
    (exchangeWord p.psBufOut answer) (p.psBufIn,[])
  setCurrentWrite
    {p with psBufIn := state.1, psSpi := {p.psSpi with sent := p.psSpi.sent++[state.2]}} false

/-- Exchange one frame and add its sample to the running sum. -/
def comunicateAndSample (p : PowerSupply200A) : PowerSupply200A :=
  let p := comunicateWithPS p
  {p with avrgCurrent := fp.float.round (p.avrgCurrent+freadCurrent fp p)}

/-- One communication cycle: five exchanges to average the current, and
under local control a sixth that mirrors the supply's own set point. -/
def safeCommunicationWithPS (p : PowerSupply200A) : PowerSupply200A :=
  let p := {p with avrgCurrent := 0}
  let p := comunicateAndSample fp p
  let p := comunicateAndSample fp p
  let p := (List.range' 2 (avrgComponentCount-2)).foldl (fun p _ => comunicateAndSample fp p) p
  let p := {p with avrgCurrent := fp.float.round (p.avrgCurrent/(max 2 avrgComponentCount : ℕ))}
  if isRemote p=true then p
  else
    let p := setPowerCircuit p (isPowerCircuitOn p)
    let p := setCurrent p (getLastSetCurrent fp p)
    comunicateWithPS p

/-- The 200 A supply behind the interface. -/
def powerSupply200A : PowerSupplyInterface PowerSupply200A where
  safeCommunicationWithPS := safeCommunicationWithPS fp
  readCurrent := readCurrent fp
  readVoltage := readVoltage
  isRemote := isRemote
  isPowerCircuitOn := isPowerCircuitOn
  readPolarity := readPolarity
  readReset := readReset
  readErrors := readErrors
  setStatus := setStatus
  getLastSetCurrent := getLastSetCurrent fp
  getIsOnSet := getIsOnSet
  getPolaritySet := getPolaritySet

end CyclotronPico.Supply200A
