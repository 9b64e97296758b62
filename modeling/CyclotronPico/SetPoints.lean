import CyclotronPico.Latch

/-!
# The three copies of the set point

The current last set over the server, the set point in the frame to be sent
and the average of the last cycle are kept apart. A cycle under local
control copies the supply's own current into the frame and nowhere else; the
copy and the current last set part until a current is accepted again.
-/

namespace CyclotronPico.SetPoints

open BitBuffer BitFields FloatRounding PicoController Nanomodbus Frames ServerAnswers
  SupplyInterface Handling Supply200A SupplyCycle Latch
open ModbusServer hiding setStatus

variable (overshift : Overshift) (fp : FloatUnit)

/-- The current that is reported is the set point that the frame holds. -/
def Coherent (p : PowerSupply200A) : Prop := getLastSetCurrent fp p=setPoint p.psBufOut

/-- The last answer of a cycle reports remote control. -/
def remoteLast (p : PowerSupply200A) : Bool :=
  remoteFifth p || bitAt (p.psSpi.reply (p.psSpi.sent.length+5)) psStatusRemoteControlPos

/-- Some of the calls sets a current and is accepted. -/
def AcceptsCurrent (calls : List SetStatusCall) : Prop :=
  ∃ call ∈ calls,call.dataType.toNat=3 ∧ ¬call.code<0

instance (calls : List SetStatusCall) : Decidable (AcceptsCurrent calls) :=
  inferInstanceAs (Decidable (∃ call ∈ calls,call.dataType.toNat=3 ∧ ¬call.code<0))

/-- The set point that a round leaves in the frame as a copy of the supply's
own current, given the one it found there: a cycle under local control makes
a copy, one under remote control keeps it unless a current was accepted. -/
def copyAfter (s t : Server PowerSupply200A) (copy : Option Word) : Option Word :=
  if framesSince s t=[] then copy
  else if remoteFifth s.machine.app.powerSupply=true then
    if AcceptsCurrent (t.machine.app.calls.drop s.machine.app.calls.length) then none else copy
  else some (copied fp s.machine.app.powerSupply)

/-- The copy in the frame after a number of rounds. -/
def copySince (s : Server PowerSupply200A) : ℕ → Option Word
  | 0 => none
  | k+1 => copyAfter fp (mainLoop overshift (powerSupply200A fp) k s)
      (mainLoop overshift (powerSupply200A fp) (k+1) s) (copySince s k)

/-- A round does not end a cycle under remote control with a copy in the frame
that differs from the current last accepted. -/
def Settled (s : Server PowerSupply200A) (k : ℕ) : Prop :=
  framesSince (mainLoop overshift (powerSupply200A fp) k s)
    (mainLoop overshift (powerSupply200A fp) (k+1) s)≠[] →
  remoteLast (mainLoop overshift (powerSupply200A fp) k s).machine.app.powerSupply=true →
  ∀ c ∈ copySince overshift fp s (k+1),
    c=(commanded (mainLoop overshift (powerSupply200A fp) (k+1) s).machine.app.calls).current

/-! ### One cycle -/

/-- A cycle keeps the current last set. -/
theorem cycle_currentSet (p : PowerSupply200A) :
    (safeCommunicationWithPS fp p).currentSet=p.currentSet := by
  rw [safeCommunicationWithPS_eq]
  split <;> rfl

/-- The set point after a cycle: the one before, or the copy. -/
theorem cycle_setPoint (p : PowerSupply200A) :
    setPoint (safeCommunicationWithPS fp p).psBufOut=
      if remoteFifth p=true then setPoint p.psBufOut else copied fp p := by
  rw [safeCommunicationWithPS_eq]
  split
  · exact setPoint_confirm false p.psBufOut
  · exact mirroredState_setPoint fp p

/-- The mode after a cycle is that of its last answer. -/
theorem cycle_isRemote (p : PowerSupply200A) :
    isRemote (safeCommunicationWithPS fp p)=remoteLast p := by
  rw [safeCommunicationWithPS_eq,remoteLast]
  split
  · rename_i hr
    rw [hr,Bool.true_or]
    exact (getBit_eq _ _).trans hr
  · rename_i hr
    rw [Bool.eq_false_of_not_eq_true hr,Bool.false_or]
    exact getBit_eq _ _

/-- After a cycle the reported current is the one last set, or under local
control the copy. -/
theorem cycle_coherent (p : PowerSupply200A) :
    Coherent fp (safeCommunicationWithPS fp p) ↔
      (remoteLast p=true → p.currentSet=setPoint (safeCommunicationWithPS fp p).psBufOut) := by
  unfold Coherent getLastSetCurrent
  rw [cycle_isRemote,cycle_currentSet]
  by_cases hr : remoteLast p=true
  · rw [if_pos hr]
    exact (imp_iff_right hr).symm
  · have hlocal : ¬remoteFifth p=true := by
      intro h
      rw [remoteLast] at hr
      rw [h,Bool.true_or] at hr
      exact hr rfl
    have hset : toUint16 (avrgCurrentScaled fp (safeCommunicationWithPS fp p) psOUTCurrentLen)=
        setPoint (safeCommunicationWithPS fp p).psBufOut := by
      rw [cycle_setPoint,if_neg hlocal,safeCommunicationWithPS_eq,if_neg hlocal]
      rfl
    rw [if_neg hr]
    exact iff_of_true hset (fun h => absurd h hr)

/-! ### One round -/

/-- The current last set is the one last accepted, and the frame holds the
copy or, without one, the current last accepted. -/
structure Copies (s : Server PowerSupply200A) (copy : Option Word) : Prop where
  /-- The current last set. -/
  current : s.machine.app.powerSupply.currentSet=(commanded s.machine.app.calls).current
  /-- The set point in the frame. -/
  frame : setPoint s.machine.app.powerSupply.psBufOut=
    copy.getD (commanded s.machine.app.calls).current

/-- A cycle has frames. -/
theorem cycleFrames_ne_nil (p : PowerSupply200A) : cycleFrames fp p≠[] := List.cons_ne_nil _ _

/-- Without further calls no current is accepted. -/
theorem acceptsCurrent_same (calls : List SetStatusCall) :
    ¬AcceptsCurrent (calls.drop calls.length) := by
  rw [List.drop_length]
  rintro ⟨call,hmem,_⟩
  cases hmem

/-- A current is accepted by a call when it is one that sets it. -/
theorem acceptsCurrent_append (calls : List SetStatusCall) {call : SetStatusCall}
    (hcode : ¬call.code<0) :
    AcceptsCurrent ((calls++[call]).drop calls.length) ↔ call.dataType.toNat=3 := by
  rw [List.drop_left]
  constructor
  · rintro ⟨c,hmem,hc,_⟩
    rw [List.mem_singleton.mp hmem] at hc
    exact hc
  · exact fun h => ⟨call,List.mem_singleton_self call,h,hcode⟩

/-- One more call is accepted. -/
theorem commanded_append (calls : List SetStatusCall) (call : SetStatusCall) :
    commanded (calls++[call])=(commanded calls).accept call := List.foldl_append

/-- The current after an accepted parameter: in the driver, in the frame, and
as it was accepted. -/
theorem setStatus_current {dataType : Byte} {value : Word} {p : PowerSupply200A}
    (hcode : ¬(setStatus dataType value p).1<0) (accepted : Setting) :
    (dataType.toNat=3 ∧ (setStatus dataType value p).2.currentSet=value ∧
      setPoint (setStatus dataType value p).2.psBufOut=value ∧
      (accepted.accept ⟨dataType,value,(setStatus dataType value p).1⟩).current=value) ∨
    (dataType.toNat≠3 ∧ (setStatus dataType value p).2.currentSet=p.currentSet ∧
      setPoint (setStatus dataType value p).2.psBufOut=setPoint p.psBufOut ∧
      (accepted.accept ⟨dataType,value,(setStatus dataType value p).1⟩).current=
        accepted.current) := by
  have hheld := congrArg Setting.current (setStatus_accepted hcode).2.2
  rcases setStatus_cases dataType value p with hs | ⟨ht,hs⟩ | ⟨ht,hs⟩
  · have hneg : (-1 : ℤ)<0 := by decide
    rw [hs] at hcode
    exact absurd hneg hcode
  · rw [accept_power _ _ _ ht hcode] at hheld
    rw [accept_power _ _ _ ht hcode]
    refine .inr ⟨by omega,?_,hheld,rfl⟩
    rw [hs]
    rfl
  · rw [accept_current _ _ _ ht hcode] at hheld
    rw [accept_current _ _ _ ht hcode]
    refine .inl ⟨ht,?_,hheld,rfl⟩
    rw [hs]
    rfl

/-- Setting a parameter does not change what a cycle will copy. -/
theorem copied_setStatus (dataType : Byte) (value : Word) (p : PowerSupply200A) :
    copied fp (setStatus dataType value p).2=copied fp p := by
  have hspi := setStatus_spi dataType value p
  unfold copied avrgCurrentScaled averagedState
  dsimp only
  rw [hspi]

/-- Every round keeps account of the copy. -/
theorem round_copies {s : Server PowerSupply200A} {copy : Option Word} (h : Copies s copy) :
    Copies (waitAndHandleRequest overshift (powerSupply200A fp) s)
      (copyAfter fp s (waitAndHandleRequest overshift (powerSupply200A fp) s) copy) := by
  have hround := round_cases overshift fp s
  generalize waitAndHandleRequest overshift (powerSupply200A fp) s=t at hround ⊢
  rw [copyAfter]
  cases hround with
  | quiet hps hframes hcalls =>
    rw [if_pos hframes]
    constructor
    · rw [hps,hcalls]
      exact h.current
    · rw [hps,hcalls]
      exact h.frame
  | cycle hps hframes hcalls =>
    rw [hframes,if_neg (cycleFrames_ne_nil fp _)]
    constructor
    · rw [hps,hcalls,cycle_currentSet]
      exact h.current
    · rw [hps,hcalls,cycle_setPoint]
      split
      · rw [if_neg (acceptsCurrent_same _)]
        exact h.frame
      · rfl
  | setting dataType value hcode hps hframes hcalls =>
    rw [hframes,if_neg (cycleFrames_ne_nil fp _),hcalls,
      if_congr (acceptsCurrent_append _ hcode) rfl rfl]
    rcases setStatus_current hcode (commanded s.machine.app.calls) with
      ⟨ht,hcurrent,hpoint,haccept⟩ | ⟨ht,hcurrent,hpoint,haccept⟩
    · constructor
      · rw [hps,hcalls,cycle_currentSet,commanded_append,hcurrent,haccept]
      · rw [hps,hcalls,cycle_setPoint,commanded_append,remoteFifth_setStatus,haccept,hpoint,
          copied_setStatus]
        split
        · rfl
        · rfl
    · constructor
      · rw [hps,hcalls,cycle_currentSet,commanded_append,hcurrent,haccept]
        exact h.current
      · rw [hps,hcalls,cycle_setPoint,commanded_append,remoteFifth_setStatus,haccept,hpoint,
          copied_setStatus]
        split
        · exact h.frame
        · rfl

/-- Setting a parameter does not change the mode in which a cycle ends. -/
theorem remoteLast_setStatus (dataType : Byte) (value : Word) (p : PowerSupply200A) :
    remoteLast (setStatus dataType value p).2=remoteLast p := by
  unfold remoteLast
  rw [remoteFifth_setStatus,setStatus_spi]

/-- After a round the copies agree when they did and nothing was exchanged, or
when no differing copy meets remote control. -/
theorem round_coherent {s t : Server PowerSupply200A} {copy : Option Word}
    (hround : Round fp s t) (h : Copies t copy) :
    Coherent fp t.machine.app.powerSupply ↔
      if framesSince s t=[] then Coherent fp s.machine.app.powerSupply
      else remoteLast s.machine.app.powerSupply=true →
        ∀ c ∈ copy,c=(commanded t.machine.app.calls).current := by
  have hagree : (commanded t.machine.app.calls).current=
      copy.getD (commanded t.machine.app.calls).current ↔
      ∀ c ∈ copy,c=(commanded t.machine.app.calls).current := by
    cases copy with
    | none => exact iff_of_true rfl (fun c hc => by cases hc)
    | some c => exact ⟨fun hc d hd => by cases hd; exact hc.symm,fun hc => (hc c rfl).symm⟩
  have hcycle : ∀ p,t.machine.app.powerSupply=safeCommunicationWithPS fp p →
      (Coherent fp t.machine.app.powerSupply ↔ (remoteLast p=true →
        ∀ c ∈ copy,c=(commanded t.machine.app.calls).current)) := by
    intro p hp
    have hc := cycle_coherent fp p
    rw [←cycle_currentSet fp p,←hp,h.current,h.frame,hagree] at hc
    exact hc
  cases hround with
  | quiet hps hframes hcalls => rw [if_pos hframes,hps]
  | cycle hps hframes hcalls =>
    rw [hframes,if_neg (cycleFrames_ne_nil fp _)]
    exact hcycle _ hps
  | setting dataType value hcode hps hframes hcalls =>
    rw [hframes,if_neg (cycleFrames_ne_nil fp _),←remoteLast_setStatus dataType value]
    exact hcycle _ hps

/-! ### Runs -/

/-- The account of the copy holds after every number of rounds. -/
theorem run_copies {s : Server PowerSupply200A} (h : Copies s none) (k : ℕ) :
    Copies (mainLoop overshift (powerSupply200A fp) k s) (copySince overshift fp s k) := by
  induction k with
  | zero => exact h
  | succ k ih =>
    rw [copySince,mainLoop_succ]
    exact round_copies overshift fp ih

/-- With the account of the copy, coherence passes from one round to the next
exactly when the round is settled. -/
theorem coherent_succ {s : Server PowerSupply200A} (h : Copies s none) (k : ℕ)
    (hk : Coherent fp (mainLoop overshift (powerSupply200A fp) k s).machine.app.powerSupply) :
    Coherent fp (mainLoop overshift (powerSupply200A fp) (k+1) s).machine.app.powerSupply ↔
      Settled overshift fp s k := by
  have hround := round_cases overshift fp (mainLoop overshift (powerSupply200A fp) k s)
  rw [←mainLoop_succ] at hround
  rw [round_coherent fp hround (run_copies overshift fp h (k+1))]
  rw [Settled]
  split
  · rename_i hnone
    exact iff_of_true hk (fun hne => absurd hnone hne)
  · rename_i hsome
    exact (imp_iff_right hsome).symm

/-- A server that was just built has made no copy. -/
theorem copies_init (reply : ℕ → Vector Byte 6) (rx : List (Option Byte)) :
    Copies (Server.init (PowerSupply200A.init reply) rx) none where
  current := rfl
  frame := by
    change setPoint (Vector.replicate 4 0#8)=0#16
    decide

/-- A server that was just built reports no current. -/
theorem coherent_init (reply : ℕ → Vector Byte 6) (rx : List (Option Byte)) :
    Coherent fp (Server.init (PowerSupply200A.init reply) rx).machine.app.powerSupply := by
  have hzero : fp.float.round 0=0 := by
    have h := fp.float.round_natCast (Nat.zero_le (2^24))
    rwa [Nat.cast_zero] at h
  have hscaled : avrgCurrentScaled fp (PowerSupply200A.init reply) psOUTCurrentLen=0 := by
    rw [avrgCurrentScaled,PowerSupply200A.init,zero_mul,hzero,zero_div,hzero]
  have hlocal : isRemote (PowerSupply200A.init reply)=false := by
    rw [isRemote,getBit_eq]
    change bitAt (Vector.replicate 6 0#8) psStatusRemoteControlPos=false
    decide
  have hpoint : setPoint (PowerSupply200A.init reply).psBufOut=0#16 := by
    change setPoint (Vector.replicate 4 0#8)=0#16
    decide
  have hset : toUint16 0=0#16 := toUint16_natCast 0
  change getLastSetCurrent fp (PowerSupply200A.init reply)=
    setPoint (PowerSupply200A.init reply).psBufOut
  rw [getLastSetCurrent,hlocal,if_neg Bool.false_ne_true,hscaled,hpoint]
  exact hset

/-- From a supply that was just built, the reported current is the set point
in the frame after each of the first rounds exactly when none of them ends
under remote control with a differing copy. -/
theorem coherent_iff_settled (reply : ℕ → Vector Byte 6) (rx : List (Option Byte)) (n : ℕ) :
    (∀ k,k≤n → Coherent fp (mainLoop overshift (powerSupply200A fp) k
      (Server.init (PowerSupply200A.init reply) rx)).machine.app.powerSupply) ↔
    ∀ k,k<n → Settled overshift fp (Server.init (PowerSupply200A.init reply) rx) k := by
  have hstep := fun k => coherent_succ overshift fp (copies_init reply rx) k
  constructor
  · intro h k hk
    exact (hstep k (h k (by omega))).mp (h (k+1) (by omega))
  · intro h k
    induction k with
    | zero => exact fun _ => coherent_init fp reply rx
    | succ k ih => exact fun hk => (hstep k (ih (by omega))).mpr (h k (by omega))

/-- An answer under local control with the current at full scale. -/
def fullScaleLocal : Vector Byte 6 := #v[0#8,255#8,15#8,0#8,0#8,0#8]

/-- An answer under remote control. -/
def plainRemote : Vector Byte 6 := #v[0#8,0#8,0#8,0#8,0#8,4#8]

/-- A supply that is under local control for one cycle, then under remote control. -/
def localThenRemote (k : ℕ) : Vector Byte 6 := if k<6 then fullScaleLocal else plainRemote

/-- The sample in an answer at full scale. -/
theorem measured_fullScale : measured exactUnit fullScaleLocal=200 := by
  have hraw : readCurrentRaw ⟨Vector.replicate 4 0#8,fullScaleLocal,⟨fun _ => fullScaleLocal,[]⟩,0,
      0#16⟩=4095#16 := by decide
  rw [measured,freadCurrent,psCurrentLen,psMaxCurrent,hraw,
    maxPossibleValue_eq exactUnit (by omega)]
  norm_num [exactUnit,exactRounding]

/-- What a cycle under local control at full scale copies: the full scale of
the set point. -/
theorem copied_fullScale :
    copied exactUnit (PowerSupply200A.init localThenRemote)=65535#16 := by
  have hsum : averaged exactUnit localThenRemote 0=200 := by
    simp only [averaged,summed,localThenRemote,Nat.zero_add,Nat.reduceLT,if_true,
      measured_fullScale]
    norm_num [exactUnit,exactRounding]
  have hscaled : avrgCurrentScaled exactUnit (averagedState exactUnit
      (PowerSupply200A.init localThenRemote)) psOUTCurrentLen=(65535 : ℕ) := by
    have havg : (averagedState exactUnit (PowerSupply200A.init localThenRemote)).avrgCurrent=200 :=
      hsum
    rw [avrgCurrentScaled,psOUTCurrentLen,psMaxCurrent,havg,
      maxPossibleValue_eq exactUnit (by omega)]
    norm_num [exactUnit,exactRounding]
  rw [copied,hscaled]
  exact toUint16_natCast 65535

/-- One cycle under local control at full scale, then one under remote
control: the frame keeps the copy, and the driver reports that nothing was set. -/
theorem incoherent_after_switch :
    ¬Coherent exactUnit (mainLoop (fun _ _ => 0#32) (powerSupply200A exactUnit) 2
      (Server.init (PowerSupply200A.init localThenRemote) [])).machine.app.powerSupply := by
  obtain ⟨t,ht,_,happ⟩ := silent_rounds (fun _ _ => 0#32) exactUnit
    (PowerSupply200A.init localThenRemote) 2
  have hfirst : safeCommunicationWithPS exactUnit (PowerSupply200A.init localThenRemote)=
      mirroredState exactUnit (PowerSupply200A.init localThenRemote) := by
    rw [safeCommunicationWithPS_eq,if_neg (by decide)]
  have hremote : remoteFifth (mirroredState exactUnit (PowerSupply200A.init localThenRemote))=
      true := by
    rw [mirroredState_remoteFifth]
    decide
  have hpoint := (mirroredState_setPoint exactUnit (PowerSupply200A.init localThenRemote)).trans
    copied_fullScale
  have hlast : remoteLast (mirroredState exactUnit (PowerSupply200A.init localThenRemote))=
      true := by
    rw [remoteLast,hremote,Bool.true_or]
  have htwo : ∀ p,(safeCommunicationWithPS exactUnit)^[2] p=
      safeCommunicationWithPS exactUnit (safeCommunicationWithPS exactUnit p) := fun _ => rfl
  rw [ht]
  dsimp only
  rw [happ,htwo]
  dsimp only
  rw [hfirst,cycle_coherent,cycle_setPoint,if_pos hremote,hpoint]
  intro h
  have hset : (0#16 : Word)=65535#16 := h hlast
  exact absurd hset (by decide)

end CyclotronPico.SetPoints
