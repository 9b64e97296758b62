import CyclotronPico.SetPoints

/-!
# Agreement of the two supplies

The substitute supply keeps what is set in fields of its own, the 200 A supply
keeps the power switch as a bit of the frame it sends. Under remote control
the cycles disarm that frame and leave the rest of it alone, so the two
supplies answer every setting alike and report the same settings.
-/

namespace CyclotronPico.SupplyAgreement

open BitBuffer BitFields FloatRounding SupplyInterface SupplyCycle SetPoints
open Supply200A (PowerSupply200A powerSupply200A psOUTPowerCircuitPos psStatusRemoteControlPos)
open SubstituteSupply (PowerSupply powerSupply)

/-! ### Settings of any supply -/

section Issue

variable {τ : Type} (ps : PowerSupplyInterface τ)

/-- One setting and the communication after it: the code, and the supply. -/
def issue (call : Byte×Word) (p : τ) : ℤ×τ :=
  ((ps.setStatus call.1 call.2 p).1,ps.safeCommunicationWithPS (ps.setStatus call.1 call.2 p).2)

/-- A sequence of settings: their codes, and the supply. -/
def issueAll : List (Byte×Word) → τ → List ℤ×τ
  | [],p => ([],p)
  | call::calls,p =>
    let first := issue ps call p
    let rest := issueAll calls first.2
    (first.1::rest.1,rest.2)

end Issue

variable (fp : FloatUnit)

/-- Two supplies report the same settings. -/
structure Agree (q : PowerSupply) (p : PowerSupply200A) : Prop where
  /-- The current last set. -/
  current : powerSupply.getLastSetCurrent q=(powerSupply200A fp).getLastSetCurrent p
  /-- The on/off state last set. -/
  isOn : powerSupply.getIsOnSet q=(powerSupply200A fp).getIsOnSet p
  /-- The polarity last set. -/
  polarity : powerSupply.getPolaritySet q=(powerSupply200A fp).getPolaritySet p

/-- The settings of two supplies correspond, and the 200 A supply answers under
remote control. -/
structure Corresponds (q : PowerSupply) (p : PowerSupply200A) : Prop where
  /-- Every answer reports remote control. -/
  remote : ∀ k,bitAt (p.psSpi.reply k) psStatusRemoteControlPos=true
  /-- The current last set. -/
  current : q.currentSet=p.currentSet
  /-- The power switch is a bit of the frame. -/
  isOn : q.isOnSet=bitAt p.psBufOut psOUTPowerCircuitPos
  /-- No polarity is ever set. -/
  polarity : q.polaritySet=false

/-- Supplies that were just built correspond. -/
theorem corresponds_init {reply : ℕ → Vector Byte 6}
    (hremote : ∀ k,bitAt (reply k) psStatusRemoteControlPos=true) :
    Corresponds {} (PowerSupply200A.init reply) where
  remote := hremote
  current := rfl
  isOn := by
    change false=bitAt (Vector.replicate 4 0#8) 17
    decide
  polarity := rfl

/-- A setting is accepted by both supplies or by neither, and they still correspond. -/
theorem corresponds_setStatus {q : PowerSupply} {p : PowerSupply200A} (h : Corresponds q p)
    {dataType : Byte} (value : Word) (h1 : dataType.toNat≠1) (h2 : dataType.toNat≠2) :
    (powerSupply.setStatus dataType value q).1=
      ((powerSupply200A fp).setStatus dataType value p).1 ∧
    Corresponds (powerSupply.setStatus dataType value q).2
      ((powerSupply200A fp).setStatus dataType value p).2 := by
  change (SubstituteSupply.setStatus dataType value q).1=
      (Supply200A.setStatus dataType value p).1 ∧
    Corresponds (SubstituteSupply.setStatus dataType value q).2
      (Supply200A.setStatus dataType value p).2
  rcases SubstituteSupply.setStatus_cases dataType value q with
    ⟨ht,hq⟩ | ⟨ht,_⟩ | ⟨ht,_⟩ | ⟨ht,hq⟩ | ⟨ht,hq⟩
  · have hp : Supply200A.setStatus dataType value p=
        (1,Supply200A.setPowerCircuit p (decide (value≠0#16))) := by
      rw [Supply200A.setStatus,ht]
      rfl
    rw [hq,hp]
    refine ⟨rfl,h.remote,h.current,?_,h.polarity⟩
    change decide (value≠0#16)=bitAt (setBit (confirm true p.psBufOut) 17 (decide (value≠0#16))) 17
    rw [bitAt_setBit (by omega),Function.update_self]
  · exact absurd ht h1
  · exact absurd ht h2
  · have hp : Supply200A.setStatus dataType value p=
        (1,Supply200A.setCurrent {p with currentSet := value} value) := by
      rw [Supply200A.setStatus,ht]
      rfl
    rw [hq,hp]
    refine ⟨rfl,h.remote,rfl,?_,h.polarity⟩
    change q.isOnSet=bitAt (setUint (confirm true p.psBufOut) value
      Supply200A.psOUTCurrentPos Supply200A.psOUTCurrentLen true) 17
    rw [setUint_other _ _ (by omega),confirm_bit,if_neg (by omega),h.isOn]
    rfl
  · have hp : Supply200A.setStatus dataType value p=(-1,p) := by
      obtain ⟨n,hn⟩ := Nat.exists_eq_add_of_le' ht
      rw [Supply200A.setStatus,hn]
      rfl
    rw [hq,hp]
    exact ⟨rfl,h⟩

/-- A communication keeps the correspondence. -/
theorem corresponds_cycle {q : PowerSupply} {p : PowerSupply200A} (h : Corresponds q p) :
    Corresponds (powerSupply.safeCommunicationWithPS q)
      ((powerSupply200A fp).safeCommunicationWithPS p) := by
  obtain ⟨hout,hreply,_⟩ := Latch.cycle_remote fp h.remote
  change Corresponds q (Supply200A.safeCommunicationWithPS fp p)
  refine ⟨?_,h.current.trans (cycle_currentSet fp p).symm,?_,h.polarity⟩
  · rw [hreply]
    exact h.remote
  · rw [hout,confirm_bit,if_neg (by decide)]
    exact h.isOn

/-- After a communication supplies that correspond report the same settings. -/
theorem agree_cycle {q : PowerSupply} {p : PowerSupply200A} (h : Corresponds q p) :
    Agree fp (powerSupply.safeCommunicationWithPS q)
      ((powerSupply200A fp).safeCommunicationWithPS p) := by
  have hafter := corresponds_cycle fp h
  have hlast : Supply200A.isRemote (Supply200A.safeCommunicationWithPS fp p)=true := by
    have hfifth : remoteFifth p=true := h.remote _
    rw [cycle_isRemote,remoteLast,hfifth,Bool.true_or]
  refine ⟨hafter.current.trans (if_pos hlast).symm,?_,hafter.polarity⟩
  exact hafter.isOn.trans (getBit_eq _ _).symm

/-- Both supplies answer a sequence of settings with the same codes, and
report the same settings after it. -/
theorem run_agrees {calls : List (Byte×Word)}
    (hcalls : ∀ call∈calls,call.1.toNat≠1 ∧ call.1.toNat≠2) {q : PowerSupply}
    {p : PowerSupply200A} (h : Corresponds q p) (ha : Agree fp q p) :
    (issueAll powerSupply calls q).1=(issueAll (powerSupply200A fp) calls p).1 ∧
    Agree fp (issueAll powerSupply calls q).2 (issueAll (powerSupply200A fp) calls p).2 := by
  induction calls generalizing q p with
  | nil => exact ⟨rfl,ha⟩
  | cons call calls ih =>
    obtain ⟨h1,h2⟩ := hcalls call List.mem_cons_self
    obtain ⟨hcode,hset⟩ := corresponds_setStatus fp h call.2 h1 h2
    obtain ⟨hcodes,hagree⟩ := ih (fun c hc => hcalls c (List.mem_cons_of_mem _ hc))
      (corresponds_cycle fp hset) (agree_cycle fp hset)
    exact ⟨congrArg₂ List.cons hcode hcodes,hagree⟩

/-- From their constructors on, the two supplies answer every sequence of
settings of the power switch and the current alike, when the 200 A supply is
under remote control. -/
theorem supplies_agree {reply : ℕ → Vector Byte 6}
    (hremote : ∀ k,bitAt (reply k) psStatusRemoteControlPos=true) {calls : List (Byte×Word)}
    (hcalls : ∀ call∈calls,call.1.toNat≠1 ∧ call.1.toNat≠2) :
    (issueAll powerSupply calls {}).1=
      (issueAll (powerSupply200A fp) calls (PowerSupply200A.init reply)).1 ∧
    Agree fp (issueAll powerSupply calls {}).2
      (issueAll (powerSupply200A fp) calls (PowerSupply200A.init reply)).2 := by
  refine run_agrees fp hcalls (corresponds_init hremote) ⟨?_,?_,rfl⟩
  · have hcoherent : Supply200A.getLastSetCurrent fp (PowerSupply200A.init reply)=
        setPoint (Vector.replicate 4 0#8) := coherent_init fp reply []
    have hzero : setPoint (Vector.replicate 4 0#8)=0#16 := by decide
    exact (hcoherent.trans hzero).symm
  · exact (corresponds_init hremote).isOn.trans (getBit_eq _ _).symm

/-- A current is set, the power circuit is switched on, and an unknown
parameter is declined. -/
theorem supplies_agree_three :
    (issueAll powerSupply [(3#8,5#16),(0#8,1#16),(7#8,9#16)] {}).1=
      (issueAll (powerSupply200A exactUnit) [(3#8,5#16),(0#8,1#16),(7#8,9#16)]
        (PowerSupply200A.init fun _ => plainRemote)).1 ∧
    Agree exactUnit (issueAll powerSupply [(3#8,5#16),(0#8,1#16),(7#8,9#16)] {}).2
      (issueAll (powerSupply200A exactUnit) [(3#8,5#16),(0#8,1#16),(7#8,9#16)]
        (PowerSupply200A.init fun _ => plainRemote)).2 := by
  have hremote : bitAt plainRemote psStatusRemoteControlPos=true := by decide
  have hcalls : ∀ call∈[(3#8,5#16),(0#8,1#16),(7#8,9#16)],call.1.toNat≠1 ∧ call.1.toNat≠2 := by
    simp
  exact supplies_agree exactUnit (fun _ => hremote) hcalls

end CyclotronPico.SupplyAgreement
