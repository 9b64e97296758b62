import CyclotronPico.SupplyCycle

/-!
# The frame of commands

The frame to be sent is at all times the image of a record of commands: a
current, a power switch, two resets, two LEDs and whether the commands are
armed. Every operation of the driver changes its own command and arms the
frame; a cycle disarms it, and under local control copies the supply's own
current and power switch.
-/

namespace CyclotronPico.CommandFrame

open BitBuffer BitFields FloatRounding Supply200A SupplyCycle

/-! ### The frames of a cycle -/

/-- What the supply answers to the next exchanges, counted from zero. -/
def answer (p : PowerSupply200A) (i : ℕ) : Vector Byte 6 := p.psSpi.reply (p.psSpi.sent.length+i)

/-- A frame is another one with its two confirmation bits cleared. -/
def Disarms (out disarmed : Vector Byte 4) : Prop :=
  ∀ q,q<32 → bitAt disarmed q=if q=21 ∨ q=23 then false else bitAt out q

/-- A frame is another one with the current and the power switch of the
supply, armed. -/
def Mirrors (value : Word) (on : Bool) (out mirror : Vector Byte 4) : Prop :=
  ∀ q,q<32 → bitAt mirror q=
    if q<16 then bitAt (setUint out value 0 16 true) q
    else if q=17 then on
    else if q=21 ∨ q=23 then true
    else bitAt out q

/-- Clearing the confirmation bits disarms. -/
theorem disarms_confirm (out : Vector Byte 4) : Disarms out (confirm false out) :=
  fun q _ => confirm_bit false out q

variable (fp : FloatUnit)

/-- The last frame of a cycle under local control mirrors the supply. -/
theorem mirrors_mirrored (p : PowerSupply200A) :
    Mirrors (copied fp p) (bitAt (answer p 4) 43) (confirm false p.psBufOut) (mirrored fp p) := by
  intro q hq
  rw [mirrored]
  by_cases hlow : q<16
  · rw [if_pos hlow]
    change bitAt (setUint _ _ 0 16 true) q=_
    rw [setUint_revarse_bit _ (by omega),setUint_revarse_bit _ (by omega)]
    by_cases h8 : 0≤q ∧ q<0+8
    · rw [if_pos h8,if_pos h8]
    · rw [if_neg h8,if_neg h8,if_pos (by omega),if_pos (by omega)]
  · rw [if_neg hlow,setUint_other _ _ (by omega),confirm_bit]
    by_cases h17 : q=17
    · subst h17
      rw [if_neg (by omega),if_pos rfl]
      change bitAt (setBit _ 17 _) 17=_
      rw [bitAt_setBit (by omega),Function.update_self]
      rfl
    · rw [if_neg h17]
      by_cases harm : q=21 ∨ q=23
      · rw [if_pos harm,if_pos harm]
      · rw [if_neg harm,if_neg harm]
        change bitAt (setBit _ 17 _) q=_
        rw [bitAt_setBit (by omega),Function.update_of_ne h17,confirm_bit,if_neg harm]

/-- One cycle, end to end: five frames, the first as it stands and the others
disarmed, and under local control a sixth that mirrors the supply. -/
theorem cycle_frames (p : PowerSupply200A) :
    ∃ disarmed,Disarms p.psBufOut disarmed ∧
      (safeCommunicationWithPS fp p).currentSet=p.currentSet ∧
      if bitAt (answer p 4) 42=true then
        (safeCommunicationWithPS fp p).psSpi.sent=
          p.psSpi.sent++[p.psBufOut,disarmed,disarmed,disarmed,disarmed].map wire ∧
        (safeCommunicationWithPS fp p).psBufOut=disarmed ∧
        (safeCommunicationWithPS fp p).psBufIn=answer p 4
      else ∃ mirror,
        Mirrors (getLastSetCurrent fp {p with
            psBufIn := answer p 4
            avrgCurrent := averaged fp p.psSpi.reply p.psSpi.sent.length})
          (bitAt (answer p 4) 43) disarmed mirror ∧
        (safeCommunicationWithPS fp p).psSpi.sent=
          p.psSpi.sent++[p.psBufOut,disarmed,disarmed,disarmed,disarmed,mirror].map wire ∧
        Disarms mirror (safeCommunicationWithPS fp p).psBufOut ∧
        (safeCommunicationWithPS fp p).psBufIn=answer p 5 := by
  refine ⟨confirm false p.psBufOut,disarms_confirm _,?_,?_⟩
  · rw [safeCommunicationWithPS_eq]
    split
    · rfl
    · rfl
  · have hremote : remoteFifth p=bitAt (answer p 4) 42 := rfl
    rw [safeCommunicationWithPS_eq,hremote]
    by_cases hr : bitAt (answer p 4) 42=true
    · rw [if_pos hr,if_pos hr]
      exact ⟨rfl,rfl,rfl⟩
    · rw [if_neg hr,if_neg hr]
      have hcopied : getLastSetCurrent fp {p with
          psBufIn := answer p 4
          avrgCurrent := averaged fp p.psSpi.reply p.psSpi.sent.length}=copied fp p := by
        have hlocal : ¬getBit (answer p 4) psStatusRemoteControlPos=true := by
          rw [getBit_eq]
          exact hr
        exact if_neg hlocal
      rw [hcopied]
      refine ⟨mirrored fp p,mirrors_mirrored fp p,?_,disarms_confirm _,rfl⟩
      exact List.append_assoc ..

/-! ### The record of commands -/

/-- What a frame commands. -/
structure Commands where
  /-- The current. -/
  current : Word
  /-- The power switch. -/
  powerCircuit : Bool
  /-- The reset. -/
  reset : Bool
  /-- The electronic reset. -/
  electronicReset : Bool
  /-- Both confirmation bits. -/
  armed : Bool
  /-- The green LED. -/
  ledGreen : Bool
  /-- The red LED. -/
  ledRed : Bool
  deriving DecidableEq

/-- Nothing is commanded. -/
def Commands.off : Commands := ⟨0#16,false,false,false,false,false,false⟩

/-- The bits of the frame that carries the commands. The two bytes of the
current travel with their top bits first. -/
def Commands.bit (r : Commands) (q : ℕ) : Bool :=
  if q<8 then r.current.getLsbD (7-q)
  else if q<16 then r.current.getLsbD (23-q)
  else if q=17 then r.powerCircuit
  else if q=18 then r.reset
  else if q=20 then r.electronicReset
  else if q=21 ∨ q=23 then r.armed
  else if q=24 then r.ledGreen
  else if q=25 then r.ledRed
  else false

/-- A frame is the image of a record of commands. -/
def Packs (r : Commands) (out : Vector Byte 4) : Prop := ∀ q,q<32 → bitAt out q=r.bit q

/-- The first byte of the current. -/
theorem bit_low (r : Commands) {q : ℕ} (h : q<8) : r.bit q=r.current.getLsbD (7-q) := if_pos h

/-- The second byte of the current. -/
theorem bit_high (r : Commands) {q : ℕ} (h8 : ¬q<8) (h : q<16) :
    r.bit q=r.current.getLsbD (23-q) := (if_neg h8).trans (if_pos h)

/-- The other bits do not depend on the current. -/
theorem bit_other (r : Commands) (val : Word) {q : ℕ} (h : ¬q<16) :
    {r with current := val}.bit q=r.bit q := by
  have h8 : ¬q<8 := by omega
  simp only [Commands.bit,if_neg h8,if_neg h]

/-- The bits that no command uses are clear. -/
theorem bit_unused (r : Commands) {q : ℕ} (h : q=16 ∨ q=19 ∨ q=22 ∨ 26≤q) : r.bit q=false := by
  rw [Commands.bit,if_neg (by omega),if_neg (by omega),if_neg (by omega),if_neg (by omega),
    if_neg (by omega),if_neg (by omega),if_neg (by omega),if_neg (by omega)]

/-- A record is determined by its frame. -/
theorem packs_unique {r r' : Commands} {out : Vector Byte 4} (h : Packs r out)
    (h' : Packs r' out) : r=r' := by
  have hbit : ∀ q,q<32 → r.bit q=r'.bit q := fun q hq => (h q hq).symm.trans (h' q hq)
  have hcurrent : r.current=r'.current := by
    apply BitVec.eq_of_getLsbD_eq
    intro i hi
    by_cases h8 : i<8
    · have hlow : 7-i<8 := by omega
      have hq := hbit (7-i) (by omega)
      rw [bit_low r hlow,bit_low r' hlow,Nat.sub_sub_self (by omega)] at hq
      exact hq
    · have hhigh : ¬23-i<8 := by omega
      have h16 : 23-i<16 := by omega
      have hq := hbit (23-i) (by omega)
      rw [bit_high r hhigh h16,bit_high r' hhigh h16,Nat.sub_sub_self (by omega)] at hq
      exact hq
  cases r
  cases r'
  obtain rfl := hcurrent
  exact (Commands.mk.injEq ..).mpr ⟨rfl,hbit 17 (by omega),hbit 18 (by omega),
    hbit 20 (by omega),hbit 21 (by omega),hbit 24 (by omega),hbit 25 (by omega)⟩

/-- The commands that take a single bit. -/
inductive Switch where
  /-- The power switch. -/
  | powerCircuit
  /-- The reset. -/
  | reset
  /-- The electronic reset. -/
  | electronicReset
  /-- The green LED. -/
  | ledGreen
  /-- The red LED. -/
  | ledRed

/-- The place of a command in the frame. -/
def Switch.place : Switch → ℕ
  | .powerCircuit => psOUTPowerCircuitPos
  | .reset => psOUTPsResetPos
  | .electronicReset => psOUTElectronicResetPos
  | .ledGreen => greenLed
  | .ledRed => redLed

/-- Command one bit. -/
def Commands.switch (r : Commands) (st : Bool) : Switch → Commands
  | .powerCircuit => {r with powerCircuit := st}
  | .reset => {r with reset := st}
  | .electronicReset => {r with electronicReset := st}
  | .ledGreen => {r with ledGreen := st}
  | .ledRed => {r with ledRed := st}

/-- Commanding one bit changes the bit at its place only. -/
theorem switch_bit (r : Commands) (st : Bool) (s : Switch) (q : ℕ) :
    (r.switch st s).bit q=if q=s.place then st else r.bit q := by
  by_cases h : q=s.place
  · rw [if_pos h,h]
    cases s <;> rfl
  · rw [if_neg h]
    cases s with
    | powerCircuit =>
      have hq : ¬q=17 := h
      simp only [Commands.bit,Commands.switch,if_neg hq]
    | reset =>
      have hq : ¬q=18 := h
      simp only [Commands.bit,Commands.switch,if_neg hq]
    | electronicReset =>
      have hq : ¬q=20 := h
      simp only [Commands.bit,Commands.switch,if_neg hq]
    | ledGreen =>
      have hq : ¬q=24 := h
      simp only [Commands.bit,Commands.switch,if_neg hq]
    | ledRed =>
      have hq : ¬q=25 := h
      simp only [Commands.bit,Commands.switch,if_neg hq]

/-- Writing one bit of a frame commands it. -/
theorem packs_setBit {r : Commands} {out : Vector Byte 4} (h : Packs r out) (st : Bool)
    (s : Switch) : Packs (r.switch st s) (setBit out s.place st) := by
  have hplace : s.place<8*4 := by cases s <;> decide
  intro q hq
  rw [bitAt_setBit hplace,switch_bit]
  by_cases hp : q=s.place
  · rw [if_pos hp,hp,Function.update_self]
  · rw [if_neg hp,Function.update_of_ne hp,h q hq]

/-- Writing the confirmation bits arms or disarms. -/
theorem packs_confirm {r : Commands} {out : Vector Byte 4} (h : Packs r out) (st : Bool) :
    Packs {r with armed := st} (confirm st out) := by
  intro q hq
  rw [confirm_bit]
  by_cases harm : q=21 ∨ q=23
  · rw [if_pos harm]
    rcases harm with rfl | rfl
    · rfl
    · rfl
  · rw [if_neg harm,h q hq]
    simp only [Commands.bit,if_neg harm]

/-- Writing the current. -/
theorem packs_setUint {r : Commands} {out : Vector Byte 4} (h : Packs r out) (val : Word) :
    Packs {r with current := val} (setUint out val psOUTCurrentPos psOUTCurrentLen true) := by
  intro q hq
  by_cases hlow : q<16
  · change bitAt (setUint out val 0 16 true) q=_
    rw [setUint_revarse_bit val (by omega)]
    by_cases h8 : q<8
    · rw [bit_low _ h8,if_pos (by omega),Nat.sub_zero]
    · have hshift : 15-(q-(0+8))=23-q := by omega
      rw [bit_high _ h8 hlow,if_neg (by omega),if_pos (by omega),hshift]
  · rw [setUint_other out val (by omega),h q hq,bit_other r val hlow]

/-! ### Runs of the driver -/

/-- The operations of the driver that reach its frame. -/
inductive Operation where
  /-- Command a current. -/
  | setCurrent (val : Word)
  /-- Command the power circuit. -/
  | setPowerCircuit (st : Bool)
  /-- Command a reset. -/
  | setReset (state : Bool)
  /-- Command an electronic reset. -/
  | setElectronicReset (state : Bool)
  /-- Switch the green LED. -/
  | setLedGreen (state : Bool)
  /-- Switch the red LED. -/
  | setLedRed (state : Bool)
  /-- Set a parameter. -/
  | setStatus (dataType : Byte) (value : Word)
  /-- Exchange frames with the supply. -/
  | safeCommunicationWithPS

/-- The driver after an operation. -/
def Operation.perform (p : PowerSupply200A) : Operation → PowerSupply200A
  | setCurrent val => Supply200A.setCurrent p val
  | setPowerCircuit st => Supply200A.setPowerCircuit p st
  | setReset state => Supply200A.setReset p state
  | setElectronicReset state => Supply200A.setElectronicReset p state
  | setLedGreen state => Supply200A.setLedGreen p state
  | setLedRed state => Supply200A.setLedRed p state
  | setStatus dataType value => (Supply200A.setStatus dataType value p).2
  | safeCommunicationWithPS => Supply200A.safeCommunicationWithPS fp p

/-- What an operation commands. A cycle only disarms, unless its fifth answer
reports local control. -/
def Operation.effect (p : PowerSupply200A) (r : Commands) : Operation → Commands
  | setCurrent val => {r with current := val, armed := true}
  | setPowerCircuit st => {r with powerCircuit := st, armed := true}
  | setReset state => {r with reset := state, armed := true}
  | setElectronicReset state => {r with electronicReset := state, armed := true}
  | setLedGreen state => {r with ledGreen := state}
  | setLedRed state => {r with ledRed := state}
  | setStatus dataType value =>
    if dataType.toNat=0 then {r with powerCircuit := decide (value≠0#16), armed := true}
    else if dataType.toNat=3 then {r with current := value, armed := true}
    else r
  | safeCommunicationWithPS =>
    if bitAt (answer p 4) 42=true then {r with armed := false}
    else {r with current := copied fp p, powerCircuit := bitAt (answer p 4) 43, armed := false}

/-- The driver after a sequence of operations. -/
def performAll (p : PowerSupply200A) (ops : List Operation) : PowerSupply200A :=
  ops.foldl (Operation.perform fp) p

/-- What a sequence of operations commands. -/
def effects (p : PowerSupply200A) (r : Commands) : List Operation → Commands
  | [] => r
  | op::ops => effects (op.perform fp p) (op.effect fp p r) ops

/-- Nothing is commanded after the constructor. -/
theorem packs_init (reply : ℕ → Vector Byte 6) :
    Packs Commands.off (PowerSupply200A.init reply).psBufOut := by
  intro q hq
  change bitAt (Vector.replicate 4 0#8) q=_
  have hi : q/8<4 := by omega
  rw [bitAt_of_lt hi,Vector.getElem_replicate,BitVec.getLsbD_zero]
  simp [Commands.bit,Commands.off]

/-- A cycle disarms the frame, and under local control copies the supply. -/
theorem packs_cycle {p : PowerSupply200A} {r : Commands} (h : Packs r p.psBufOut) :
    Packs (Operation.safeCommunicationWithPS.effect fp p r)
      (Supply200A.safeCommunicationWithPS fp p).psBufOut := by
  have hremote : remoteFifth p=bitAt (answer p 4) 42 := rfl
  rw [safeCommunicationWithPS_eq,hremote,Operation.effect]
  by_cases hr : bitAt (answer p 4) 42=true
  · rw [if_pos hr,if_pos hr]
    exact packs_confirm h false
  · rw [if_neg hr,if_neg hr]
    exact packs_confirm (packs_setUint (packs_confirm (packs_setBit (packs_confirm
      (packs_confirm h false) true) (bitAt (answer p 4) 43) .powerCircuit) true) (copied fp p)) false

/-- Every operation changes the commands as it should. -/
theorem packs_perform {p : PowerSupply200A} {r : Commands} (h : Packs r p.psBufOut)
    (op : Operation) : Packs (op.effect fp p r) (op.perform fp p).psBufOut := by
  have harmed := packs_confirm h true
  cases op with
  | setCurrent val => exact packs_setUint harmed val
  | setPowerCircuit st => exact packs_setBit harmed st .powerCircuit
  | setReset state => exact packs_setBit harmed state .reset
  | setElectronicReset state => exact packs_setBit harmed state .electronicReset
  | setLedGreen state => exact packs_setBit h state .ledGreen
  | setLedRed state => exact packs_setBit h state .ledRed
  | setStatus dataType value =>
    rw [Operation.effect,Operation.perform,Supply200A.setStatus]
    generalize dataType.toNat=n
    match n with
    | 0 => exact packs_setBit harmed (decide (value≠0#16)) .powerCircuit
    | 1 => exact h
    | 2 => exact h
    | 3 => exact packs_setUint harmed value
    | n+4 =>
      rw [if_neg (by omega),if_neg (by omega)]
      exact h
  | safeCommunicationWithPS => exact packs_cycle fp h

/-- After any sequence of operations the frame is the image of the commands,
and of no other record. -/
theorem frame_packs_commands (reply : ℕ → Vector Byte 6) (ops : List Operation) :
    Packs (effects fp (PowerSupply200A.init reply) Commands.off ops)
      (performAll fp (PowerSupply200A.init reply) ops).psBufOut ∧
    (∀ r,Packs r (performAll fp (PowerSupply200A.init reply) ops).psBufOut →
      r=effects fp (PowerSupply200A.init reply) Commands.off ops) ∧
    ∀ q,q<32 → q=16 ∨ q=19 ∨ q=22 ∨ 26≤q →
      bitAt (performAll fp (PowerSupply200A.init reply) ops).psBufOut q=false := by
  have hrun : ∀ {p : PowerSupply200A} {r : Commands},Packs r p.psBufOut →
      Packs (effects fp p r ops) (performAll fp p ops).psBufOut := by
    induction ops with
    | nil => exact fun h => h
    | cons op ops ih => exact fun h => ih (packs_perform fp h op)
  have hpacks := hrun (packs_init reply)
  refine ⟨hpacks,fun r hr => packs_unique hr hpacks,fun q hq hunused => ?_⟩
  rw [hpacks q hq]
  exact bit_unused _ hunused

end CyclotronPico.CommandFrame
