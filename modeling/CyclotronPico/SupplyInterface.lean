import CyclotronPico.BitBuffer

/-!
# What the server asks of a power supply

The virtual methods of the interface as functions on the state of a supply,
with the field widths of the read registers.
-/

namespace CyclotronPico.SupplyInterface

open BitBuffer

/-- The methods of a supply with state `τ`. -/
structure PowerSupplyInterface (τ : Type) where
  /-- Exchange set points and readings with the supply. -/
  safeCommunicationWithPS : τ → τ
  /-- Measured current. -/
  readCurrent : τ → Word
  /-- Measured voltage. -/
  readVoltage : τ → Word
  /-- Remote rather than local control. -/
  isRemote : τ → Bool
  /-- Measured on/off state. -/
  isPowerCircuitOn : τ → Bool
  /-- Measured polarity. -/
  readPolarity : τ → Bool
  /-- Reset state. -/
  readReset : τ → Bool
  /-- Error flags. -/
  readErrors : τ → Byte
  /-- Set a parameter; a negative code refuses. -/
  setStatus : Byte → Word → τ → ℤ×τ
  /-- Last current set. -/
  getLastSetCurrent : τ → Word
  /-- Last on/off state set. -/
  getIsOnSet : τ → Bool
  /-- Last polarity set. -/
  getPolaritySet : τ → Bool

/-- Bits of the measured current in its register. -/
def currentReadBits : ℕ := 12

/-- Bits of the measured voltage in its register. -/
def voltageReadBits : ℕ := 12

/-- Bits of the error flags in their register. -/
def errorReadBits : ℕ := 2

end CyclotronPico.SupplyInterface
