import CyclotronPico.SupplyInterface

/-!
# The substitute supply

The class that stands in for a supply: it stores what is set and reports it
back as measured.
-/

namespace CyclotronPico.SubstituteSupply

open BitBuffer SupplyInterface

/-- The state of the substitute supply, with its initial values. -/
structure PowerSupply where
  /-- Reported current. -/
  current : Word := 100#16
  /-- Reported voltage. -/
  voltage : Word := 100#16
  /-- Reported control mode. -/
  remote : Bool := true
  /-- Reported on/off state. -/
  isOn : Bool := true
  /-- Reported polarity. -/
  polarity : Bool := false
  /-- Reported reset state. -/
  reset : Bool := false
  /-- Reported error flags. -/
  errors : Byte := 0#8
  /-- Last current set. -/
  currentSet : Word := 0#16
  /-- Last on/off state set. -/
  isOnSet : Bool := false
  /-- Last polarity set. -/
  polaritySet : Bool := false
  deriving DecidableEq

/-- The configured test switch that makes every setting fail. -/
def illegalDataValueLinuxTest : ℕ := 0

/-- A set current in units of 200/(2^16-1) A as a reading in units of
200/(2^12-1) A; the product is computed in `int`. -/
def convertCurrent (value : Word) : Word := BitVec.ofNat 16 (value.toNat*((2<<<11)-1)/65535)

/-- Set a parameter of the substitute supply. -/
def setStatus (dataType : Byte) (value : Word) (p : PowerSupply) : ℤ×PowerSupply :=
  if illegalDataValueLinuxTest≠0 then (-1,p)
  else match dataType.toNat with
    | 0 => (1,{p with isOnSet := decide (value≠0#16), isOn := decide (value≠0#16)})
    | 1 => (1,{p with polaritySet := decide (value≠0#16), polarity := decide (value≠0#16)})
    | 2 => (1,{p with reset := decide (value≠0#16)})
    | 3 => (1,{p with currentSet := value, current := convertCurrent value})
    | _ => (-1,p)

/-- A call sets one of four parameters, or declines and changes nothing. -/
theorem setStatus_cases (dataType : Byte) (value : Word) (p : PowerSupply) :
    (dataType.toNat=0 ∧ setStatus dataType value p=
      (1,{p with isOnSet := decide (value≠0#16), isOn := decide (value≠0#16)})) ∨
    (dataType.toNat=1 ∧ setStatus dataType value p=
      (1,{p with polaritySet := decide (value≠0#16), polarity := decide (value≠0#16)})) ∨
    (dataType.toNat=2 ∧ setStatus dataType value p=(1,{p with reset := decide (value≠0#16)})) ∨
    (dataType.toNat=3 ∧ setStatus dataType value p=
      (1,{p with currentSet := value, current := convertCurrent value})) ∨
    (3<dataType.toNat ∧ setStatus dataType value p=(-1,p)) := by
  have hswitch : ¬illegalDataValueLinuxTest≠0 := not_not.mpr rfl
  rw [setStatus,if_neg hswitch]
  generalize dataType.toNat=n
  match n with
  | 0 => exact .inl ⟨rfl,rfl⟩
  | 1 => exact .inr (.inl ⟨rfl,rfl⟩)
  | 2 => exact .inr (.inr (.inl ⟨rfl,rfl⟩))
  | 3 => exact .inr (.inr (.inr (.inl ⟨rfl,rfl⟩)))
  | n+4 => exact .inr (.inr (.inr (.inr ⟨by omega,rfl⟩)))

/-- The substitute supply behind the interface; it has nothing to exchange. -/
def powerSupply : PowerSupplyInterface PowerSupply where
  safeCommunicationWithPS p := p
  readCurrent p := p.current
  readVoltage p := p.voltage
  isRemote p := p.remote
  isPowerCircuitOn p := p.isOn
  readPolarity p := p.polarity
  readReset p := p.reset
  readErrors p := p.errors
  setStatus := setStatus
  getLastSetCurrent p := p.currentSet
  getIsOnSet p := p.isOnSet
  getPolaritySet p := p.polaritySet

end CyclotronPico.SubstituteSupply
