import CyclotronPico.Handling
import CyclotronPico.SupplyCycle

/-!
# The supply as a latch

The supply takes a set point and the power switch from a frame whose two
confirmation bits are set, and from no other. Under remote control the latch
holds what was last accepted over the server; whether a round leaves the
supply with an unconfirmed frame depends on the fifth answer of its cycle.
-/

namespace CyclotronPico.Latch

open BitBuffer BitFields FloatRounding PicoController Nanomodbus Frames Reception Responses
  ServerAnswers Polls SupplyInterface Handling Supply200A SupplyCycle
open ModbusServer hiding setStatus

/-! ### Frames on the wire -/

/-- Both confirmation bits of a frame are clear. -/
def Unarmed (frame : List Byte) : Prop :=
  (byteAt frame 4).getLsbD 5=false ∧ (byteAt frame 4).getLsbD 7=false

instance (frame : List Byte) : Decidable (Unarmed frame) :=
  inferInstanceAs (Decidable ((byteAt frame 4).getLsbD 5=false ∧ (byteAt frame 4).getLsbD 7=false))

/-- Both confirmation bits of a frame are set. -/
def confirmed (frame : List Byte) : Bool :=
  (byteAt frame 4).getLsbD 5 && (byteAt frame 4).getLsbD 7

/-- What the supply holds. -/
@[ext] structure Setting where
  /-- The set point. -/
  current : Word
  /-- The power switch. -/
  power : Bool
  deriving DecidableEq

/-- A supply that was just switched on. -/
def Setting.off : Setting := ⟨0#16,false⟩

/-- What a frame does to the supply. -/
def Setting.take (held : Setting) (frame : List Byte) : Setting :=
  if confirmed frame=true then
    ⟨setPointOf (byteAt frame 2) (byteAt frame 3),(byteAt frame 4).getLsbD 1⟩
  else held

/-- What a call of `setStatus` is meant to do to the supply. -/
def Setting.accept (held : Setting) (call : SetStatusCall) : Setting :=
  if call.code<0 then held
  else match call.dataType.toNat with
    | 0 => {held with power := decide (call.value≠0#16)}
    | 3 => {held with current := call.value}
    | _ => held

/-- Accepting the power switch. -/
theorem accept_power (s : Setting) {dataType : Byte} (value : Word) (code : ℤ)
    (h : dataType.toNat=0) (hcode : ¬code<0) :
    s.accept ⟨dataType,value,code⟩={s with power := decide (value≠0#16)} := by
  rw [Setting.accept,if_neg hcode,h]
  rfl

/-- Accepting a current. -/
theorem accept_current (s : Setting) {dataType : Byte} (value : Word) (code : ℤ)
    (h : dataType.toNat=3) (hcode : ¬code<0) :
    s.accept ⟨dataType,value,code⟩={s with current := value} := by
  rw [Setting.accept,if_neg hcode,h]
  rfl

/-- What the supply holds after the frames. -/
def latched (frames : List (List Byte)) : Setting := frames.foldl Setting.take Setting.off

/-- What was last accepted in the calls. -/
def commanded (calls : List SetStatusCall) : Setting := calls.foldl Setting.accept Setting.off

/-- What a frame to be sent holds. -/
def held (out : Vector Byte 4) : Setting := ⟨setPoint out,bitAt out psOUTPowerCircuitPos⟩

/-- A bit of the fifth byte on the wire is a bit of the third byte of the frame. -/
theorem wire_bit (out : Vector Byte 4) {j : ℕ} (hj : j<8) :
    (byteAt (wire out) 4).getLsbD j=bitAt out (16+j) :=
  (bitAt_byte (i:=2) (by omega) hj).symm

/-- A frame is confirmed by its two bits. -/
theorem confirmed_wire (out : Vector Byte 4) :
    confirmed (wire out)=(bitAt out 21 && bitAt out 23) := by
  rw [confirmed,wire_bit out (by omega),wire_bit out (by omega)]

/-- A frame is unarmed by its two bits. -/
theorem unarmed_wire (out : Vector Byte 4) :
    Unarmed (wire out) ↔ bitAt out 21=false ∧ bitAt out 23=false := by
  rw [Unarmed,wire_bit out (by omega),wire_bit out (by omega)]

/-- A frame with both bits written. -/
theorem unarmed_confirm (st : Bool) (out : Vector Byte 4) :
    Unarmed (wire (confirm st out)) ↔ st=false := by
  rw [unarmed_wire,confirm_bit,confirm_bit,if_pos (by omega),if_pos (by omega),and_self_iff]

/-- The supply takes what an armed frame holds. -/
theorem take_armed (s : Setting) {out : Vector Byte 4} (h21 : bitAt out 21=true)
    (h23 : bitAt out 23=true) : s.take (wire out)=held out := by
  have hpower : (byteAt (wire out) 4).getLsbD 1=bitAt out psOUTPowerCircuitPos :=
    wire_bit out (by omega)
  rw [Setting.take,confirmed_wire,h21,h23,if_pos (by decide),hpower]
  rfl

/-- The supply ignores a frame that is not armed. -/
theorem take_unarmed (s : Setting) {out : Vector Byte 4} (h21 : bitAt out 21=false) :
    s.take (wire out)=s := by
  rw [Setting.take,confirmed_wire,h21,Bool.false_and,if_neg Bool.false_ne_true]

/-- The supply ignores disarmed frames, however many. -/
theorem take_disarmed (s : Setting) (out : Vector Byte 4) (k : ℕ) :
    (List.replicate k (wire (confirm false out))).foldl Setting.take s=s := by
  have h21 : bitAt (confirm false out) 21=false := by
    rw [confirm_bit,if_pos (by omega)]
  induction k with
  | zero => rfl
  | succ k ih => rw [List.replicate_succ,List.foldl_cons,take_unarmed s h21,ih]

/-! ### Settings of the driver -/

/-- Setting a parameter of the driver: it is declined and nothing happens, or
it is the power switch or the current. -/
theorem setStatus_cases (dataType : Byte) (value : Word) (p : PowerSupply200A) :
    (setStatus dataType value p=(-1,p)) ∨
    (dataType.toNat=0 ∧ setStatus dataType value p=(1,setPowerCircuit p (decide (value≠0#16)))) ∨
    (dataType.toNat=3 ∧ setStatus dataType value p=(1,setCurrent {p with currentSet := value}
      value)) := by
  rw [setStatus]
  generalize dataType.toNat=n
  split
  · exact .inr (.inl ⟨rfl,rfl⟩)
  · exact .inr (.inr ⟨rfl,rfl⟩)
  · exact .inl rfl

/-- Setting a parameter exchanges no frame. -/
theorem setStatus_spi (dataType : Byte) (value : Word) (p : PowerSupply200A) :
    (setStatus dataType value p).2.psSpi=p.psSpi := by
  rcases setStatus_cases dataType value p with h | ⟨_,h⟩ | ⟨_,h⟩ <;> rw [h] <;> rfl

/-- A declined parameter leaves the driver alone. -/
theorem setStatus_declined {dataType : Byte} {value : Word} {p : PowerSupply200A}
    (h : (setStatus dataType value p).1<0) : (setStatus dataType value p).2=p := by
  have hone : ¬(1 : ℤ)<0 := by decide
  rcases setStatus_cases dataType value p with hs | ⟨_,hs⟩ | ⟨_,hs⟩
  · rw [hs]
  · rw [hs] at h
    exact absurd h hone
  · rw [hs] at h
    exact absurd h hone

/-- Writing the power switch of an armed frame. -/
theorem held_power (out : Vector Byte 4) (st : Bool) :
    held (setBit (confirm true out) psOUTPowerCircuitPos st)={held out with power := st} := by
  have hbits : ∀ q,q<16 →
      bitAt (setBit (confirm true out) psOUTPowerCircuitPos st) q=bitAt out q := by
    intro q hq
    unfold psOUTPowerCircuitPos
    rw [bitAt_setBit (by omega),Function.update_of_ne (by omega),confirm_bit,if_neg (by omega)]
  unfold held
  rw [setPoint_congr hbits]
  rw [psOUTPowerCircuitPos,bitAt_setBit (by omega),Function.update_self]

/-- Writing the set point of an armed frame. -/
theorem held_current (out : Vector Byte 4) (value : Word) :
    held (setUint (confirm true out) value psOUTCurrentPos psOUTCurrentLen true)=
      {held out with current := value} := by
  unfold held
  rw [setPoint_setUint,setUint_other _ _ (by decide),confirm_bit,if_neg (by decide)]

/-- An accepted parameter arms the frame, which then holds the parameter and
nothing else that is new. -/
theorem setStatus_accepted {dataType : Byte} {value : Word} {p : PowerSupply200A}
    (h : ¬(setStatus dataType value p).1<0) :
    bitAt (setStatus dataType value p).2.psBufOut 21=true ∧
    bitAt (setStatus dataType value p).2.psBufOut 23=true ∧
    held (setStatus dataType value p).2.psBufOut=
      (held p.psBufOut).accept ⟨dataType,value,(setStatus dataType value p).1⟩ := by
  have harmed : ∀ q,q=21 ∨ q=23 → bitAt (confirm true p.psBufOut) q=true := by
    intro q hq
    rw [confirm_bit,if_pos hq]
  have hpower : ∀ st q,q=21 ∨ q=23 →
      bitAt (setBit (confirm true p.psBufOut) psOUTPowerCircuitPos st) q=true := by
    intro st q hq
    rw [psOUTPowerCircuitPos,bitAt_setBit (by omega),Function.update_of_ne (by omega),harmed q hq]
  have hcurrent : ∀ q,q=21 ∨ q=23 → bitAt (setUint (confirm true p.psBufOut) value
      psOUTCurrentPos psOUTCurrentLen true) q=true := by
    intro q hq
    rw [setUint_other _ _ (by omega),harmed q hq]
  rcases setStatus_cases dataType value p with hs | ⟨ht,hs⟩ | ⟨ht,hs⟩
  · have hneg : (-1 : ℤ)<0 := by decide
    rw [hs] at h
    exact absurd hneg h
  · rw [hs]
    exact ⟨hpower _ 21 (.inl rfl),hpower _ 23 (.inr rfl),
      (held_power _ _).trans (accept_power (held p.psBufOut) value 1 ht (by omega)).symm⟩
  · rw [hs]
    exact ⟨hcurrent 21 (.inl rfl),hcurrent 23 (.inr rfl),
      (held_current _ _).trans (accept_current (held p.psBufOut) value 1 ht (by omega)).symm⟩

/-- Disarming a frame keeps what it holds. -/
theorem held_confirm (st : Bool) (out : Vector Byte 4) : held (confirm st out)=held out := by
  unfold held
  rw [setPoint_confirm,confirm_bit,if_neg (by decide)]

/-! ### The frames of a cycle -/

variable (overshift : Overshift) (fp : FloatUnit)

/-- The frames of a cycle: the frame as it stands, then the disarmed one four
times, and under local control the one with the supply's own set point. -/
def cycleFrames (p : PowerSupply200A) : List (List Byte) :=
  wire p.psBufOut::List.replicate 4 (wire (confirm false p.psBufOut))++
    if remoteFifth p=true then [] else [wire (mirrored fp p)]

/-- A cycle sends its frames. -/
theorem cycle_sent (p : PowerSupply200A) :
    (safeCommunicationWithPS fp p).psSpi.sent=p.psSpi.sent++cycleFrames fp p := by
  rw [safeCommunicationWithPS_eq,cycleFrames]
  split
  · rw [List.append_nil]
    rfl
  · exact List.append_assoc ..

/-- The frame that copies the supply's own set point is armed. -/
theorem mirrored_armed (p : PowerSupply200A) : ¬Unarmed (wire (mirrored fp p)) := by
  rw [unarmed_wire,mirrored,psOUTPowerCircuitPos]
  rw [setUint_other _ _ (by omega),confirm_bit,if_pos (by omega)]
  exact fun h => absurd h.1 (by decide)

/-- The last frame of a cycle is unarmed exactly under remote control. -/
theorem cycle_last (p : PowerSupply200A) {frame : List Byte}
    (h : (cycleFrames fp p).getLast?=some frame) :
    Unarmed frame ↔ remoteFifth p=true := by
  rw [cycleFrames] at h
  by_cases hr : remoteFifth p=true
  · rw [if_pos hr,List.append_nil] at h
    obtain rfl : wire (confirm false p.psBufOut)=frame := Option.some.inj h
    exact iff_of_true ((unarmed_confirm _ _).mpr rfl) hr
  · rw [if_neg hr,List.getLast?_concat] at h
    obtain rfl : wire (mirrored fp p)=frame := Option.some.inj h
    exact iff_of_false (mirrored_armed fp p) hr

/-- The frames sent so far. -/
def framesOf (s : Server PowerSupply200A) : List (List Byte) :=
  s.machine.app.powerSupply.psSpi.sent

/-- The frames a later state of a server has sent since an earlier one. -/
def framesSince (s t : Server PowerSupply200A) : List (List Byte) :=
  (framesOf t).drop (framesOf s).length

/-- Setting a parameter does not change what the supply will answer. -/
theorem remoteFifth_setStatus (dataType : Byte) (value : Word) (p : PowerSupply200A) :
    remoteFifth (setStatus dataType value p).2=remoteFifth p := by
  unfold remoteFifth
  rw [setStatus_spi]

/-- A round of the server of the 200 A supply. -/
inductive Round (s t : Server PowerSupply200A) : Prop where
  /-- Nothing is exchanged and nothing is accepted. -/
  | quiet (hps : t.machine.app.powerSupply=s.machine.app.powerSupply)
      (hframes : framesSince s t=[])
      (hcalls : commanded t.machine.app.calls=commanded s.machine.app.calls)
  /-- One cycle. -/
  | cycle (hps : t.machine.app.powerSupply=safeCommunicationWithPS fp s.machine.app.powerSupply)
      (hframes : framesSince s t=cycleFrames fp s.machine.app.powerSupply)
      (hcalls : t.machine.app.calls=s.machine.app.calls)
  /-- An accepted parameter, then one cycle. -/
  | setting (dataType : Byte) (value : Word)
      (hcode : ¬(setStatus dataType value s.machine.app.powerSupply).1<0)
      (hps : t.machine.app.powerSupply=safeCommunicationWithPS fp
        (setStatus dataType value s.machine.app.powerSupply).2)
      (hframes : framesSince s t=
        cycleFrames fp (setStatus dataType value s.machine.app.powerSupply).2)
      (hcalls : t.machine.app.calls=s.machine.app.calls++[⟨dataType,value,
        (setStatus dataType value s.machine.app.powerSupply).1⟩])

/-- A declined call changes nothing that was accepted. -/
theorem commanded_declined (calls : List SetStatusCall) {call : SetStatusCall}
    (h : call.code<0) : commanded (calls++[call])=commanded calls := by
  rw [commanded,List.foldl_append,List.foldl_cons,List.foldl_nil]
  exact if_pos h

/-- Every round is one of the three. -/
theorem round_cases (s : Server PowerSupply200A) :
    Round fp s (waitAndHandleRequest overshift (powerSupply200A fp) s) := by
  have hcycle : ∀ {t : Server PowerSupply200A} (q : PowerSupply200A),
      t.machine.app.powerSupply=safeCommunicationWithPS fp q →
      q.psSpi=s.machine.app.powerSupply.psSpi → framesSince s t=cycleFrames fp q := by
    intro t q ht hq
    unfold framesSince framesOf
    rw [ht,cycle_sent,hq]
    exact List.drop_left
  have hnone : ∀ {t : Server PowerSupply200A},
      t.machine.app.powerSupply=s.machine.app.powerSupply → framesSince s t=[] := by
    intro t ht
    unfold framesSince framesOf
    rw [ht]
    exact List.drop_length
  have hround := wait_handled overshift (powerSupply200A fp) s
  generalize waitAndHandleRequest overshift (powerSupply200A fp) s=t at hround ⊢
  generalize happ : t.machine.app=app at hround
  cases hround with
  | idle =>
    have hps := congrArg App.powerSupply happ
    exact .quiet hps (hnone hps) (congrArg (fun a => commanded (App.calls a)) happ)
  | exchanged =>
    have hps := congrArg App.powerSupply happ
    have hcalls := congrArg App.calls happ
    exact .cycle hps (hcycle _ hps rfl) hcalls
  | declined dataType value hcode =>
    have hps := (congrArg App.powerSupply happ).trans (setStatus_declined hcode)
    refine .quiet hps (hnone hps) ?_
    rw [happ]
    exact commanded_declined _ hcode
  | written dataType value hcode =>
    have hps := congrArg App.powerSupply happ
    have hcalls := congrArg App.calls happ
    exact .setting dataType value hcode hps (hcycle _ hps (setStatus_spi dataType value _)) hcalls

/-- In every run, when a round has exchanged frames, the last of them is
unarmed exactly when the fifth answer of its cycle reports remote control. -/
theorem last_frame_unarmed (s : Server PowerSupply200A) (n : ℕ) {frame : List Byte}
    (h : (framesSince (mainLoop overshift (powerSupply200A fp) n s)
      (mainLoop overshift (powerSupply200A fp) (n+1) s)).getLast?=some frame) :
    Unarmed frame ↔
      remoteFifth (mainLoop overshift (powerSupply200A fp) n s).machine.app.powerSupply=true := by
  rw [mainLoop_succ] at h
  cases round_cases overshift fp (mainLoop overshift (powerSupply200A fp) n s) with
  | quiet hps hframes hcalls =>
    rw [hframes] at h
    cases h
  | cycle hps hframes hcalls =>
    rw [hframes] at h
    exact cycle_last fp _ h
  | setting dataType value hcode hps hframes hcalls =>
    rw [hframes] at h
    rw [←remoteFifth_setStatus dataType value]
    exact cycle_last fp _ h

/-- Rounds over a silent line are cycles. -/
theorem silent_rounds (p : PowerSupply200A) (k : ℕ) :
    ∃ t,mainLoop overshift (powerSupply200A fp) k (Server.init p [])=⟨t,none⟩ ∧ t.line.rx=[] ∧
      t.app=⟨(safeCommunicationWithPS fp)^[k] p,[]⟩ := by
  induction k with
  | zero => exact ⟨_,rfl,rfl,rfl⟩
  | succ k ih =>
    obtain ⟨t,ht,hrx,happ⟩ := ih
    have hshort : (arrivals t.line.rx).length<2 := by
      rw [hrx]
      exact Nat.zero_lt_two
    obtain ⟨u,hu,huapp,huline⟩ := wait_silent overshift (powerSupply200A fp) (s:=⟨t,none⟩) rfl hshort
    dsimp only at huapp huline
    refine ⟨u,?_,?_,?_⟩
    · rw [mainLoop_succ,ht,hu]
    · rw [huline,hrx]
      rfl
    · rw [huapp,happ,Function.iterate_succ_apply']
      rfl

/-- A round over a silent line exchanges the frames of one cycle. -/
theorem silent_frames (p : PowerSupply200A) :
    framesSince (Server.init p []) (mainLoop overshift (powerSupply200A fp) 1 (Server.init p []))=
      cycleFrames fp p := by
  obtain ⟨t,ht,_,happ⟩ := silent_rounds overshift fp p 1
  have hsent : framesOf ⟨t,none⟩=p.psSpi.sent++cycleFrames fp p := by
    rw [framesOf]
    dsimp only
    rw [happ]
    exact cycle_sent fp p
  rw [ht,framesSince]
  rw [hsent]
  exact List.drop_left

/-- Writes that switch the supply on and set a current, with a silence and a
refused write between them. -/
def commandLine : List (Option Byte) :=
  (sealed [1#8,15#8,0#8,0#8,0#8,3#8,1#8,4#8]).map some++none::
    (sealed [1#8,15#8,0#8,0#8,0#8,3#8,1#8,1#8]++
      sealed [1#8,15#8,0#8,0#8,0#8,18#8,3#8,7#8,0x55#8,2#8]).map some

/-- A server under remote control before this line. -/
def remoteServer : Server PowerSupply200A :=
  Server.init (PowerSupply200A.init fun _ => Vector.replicate 6 4#8) commandLine

/-- The first round switches the supply on with an armed frame and leaves it
with an unarmed one. -/
theorem last_frame_unarmed_switched :
    ∃ first last,(framesSince remoteServer
        (mainLoop (fun _ _ => 0#32) (powerSupply200A exactUnit) 1 remoteServer)).head?=some first ∧
      (framesSince remoteServer
        (mainLoop (fun _ _ => 0#32) (powerSupply200A exactUnit) 1 remoteServer)).getLast?=some last ∧
      ¬Unarmed first ∧ Unarmed last := by
  have hfirst : (framesSince remoteServer (mainLoop (fun _ _ => 0#32) (powerSupply200A exactUnit) 1
      remoteServer)).head?=some [0#8,0#8,0#8,0#8,0xA2#8,0#8] := by decide +kernel
  have hlast : (framesSince remoteServer (mainLoop (fun _ _ => 0#32) (powerSupply200A exactUnit) 1
      remoteServer)).getLast?=some [0#8,0#8,0#8,0#8,2#8,0#8] := by decide +kernel
  exact ⟨_,_,hfirst,hlast,by decide,
    (last_frame_unarmed (fun _ _ => 0#32) exactUnit remoteServer 0 hlast).mpr (by decide)⟩

/-- Under local control it is armed: nothing disarms the supply before the
round returns. -/
theorem last_frame_armed_local :
    ∃ frame,(framesSince (Server.init (PowerSupply200A.init fun _ => Vector.replicate 6 0#8) [])
      (mainLoop (fun _ _ => 0#32) (powerSupply200A exactUnit) 1
        (Server.init (PowerSupply200A.init fun _ => Vector.replicate 6 0#8) []))).getLast?=
          some frame ∧ ¬Unarmed frame := by
  have hlast := congrArg List.getLast? (silent_frames (fun _ _ => 0#32) exactUnit
    (PowerSupply200A.init fun _ => Vector.replicate 6 0#8))
  have hframe : (cycleFrames exactUnit
      (PowerSupply200A.init fun _ => Vector.replicate 6 0#8)).getLast?=
      some (wire (mirrored exactUnit (PowerSupply200A.init fun _ => Vector.replicate 6 0#8))) := by
    rw [cycleFrames,if_neg (by decide),List.getLast?_concat]
  exact ⟨_,hlast.trans hframe,mirrored_armed exactUnit _⟩

/-! ### Runs under remote control -/

/-- Under remote control the driver holds what the supply holds and what was
last accepted, and its frame is disarmed. -/
structure Refined (app : App PowerSupply200A) : Prop where
  /-- Every answer reports remote control. -/
  remote : ∀ k,bitAt (app.powerSupply.psSpi.reply k) psStatusRemoteControlPos=true
  /-- The frame to be sent is disarmed. -/
  disarmed : confirm false app.powerSupply.psBufOut=app.powerSupply.psBufOut
  /-- The frame to be sent holds what was last accepted. -/
  accepted : commanded app.calls=held app.powerSupply.psBufOut
  /-- The supply holds it too. -/
  latch : latched app.powerSupply.psSpi.sent=held app.powerSupply.psBufOut

/-- Under remote control a cycle disarms the frame and changes nothing else
that the server sets. -/
theorem cycle_remote {p : PowerSupply200A}
    (h : ∀ k,bitAt (p.psSpi.reply k) psStatusRemoteControlPos=true) :
    (safeCommunicationWithPS fp p).psBufOut=confirm false p.psBufOut ∧
    (safeCommunicationWithPS fp p).psSpi.reply=p.psSpi.reply ∧
    latched (safeCommunicationWithPS fp p).psSpi.sent=
      (latched p.psSpi.sent).take (wire p.psBufOut) := by
  have hr : remoteFifth p=true := h _
  refine ⟨?_,?_,?_⟩
  · rw [safeCommunicationWithPS_eq,if_pos hr]
    rfl
  · rw [safeCommunicationWithPS_eq,if_pos hr]
    rfl
  · rw [cycle_sent]
    unfold cycleFrames latched
    rw [if_pos hr,List.append_nil,List.foldl_append,List.foldl_cons,take_disarmed]

/-- A cycle keeps the relation. -/
theorem refined_communicate {app : App PowerSupply200A} (h : Refined app) :
    Refined (app.communicate (powerSupply200A fp)) := by
  obtain ⟨hout,hreply,hlatch⟩ := cycle_remote fp h.remote
  have h21 : bitAt app.powerSupply.psBufOut 21=false := by
    rw [←h.disarmed,confirm_bit,if_pos (by omega)]
  have hsame : (safeCommunicationWithPS fp app.powerSupply).psBufOut=app.powerSupply.psBufOut :=
    hout.trans h.disarmed
  rw [take_unarmed _ h21] at hlatch
  refine ⟨?_,?_,?_,?_⟩
  · intro k
    exact (congrArg (fun r : ℕ → Vector Byte 6 => bitAt (r k) psStatusRemoteControlPos) hreply).trans
      (h.remote k)
  · exact (congrArg (confirm false) hsame).trans (h.disarmed.trans hsame.symm)
  · exact h.accepted.trans (congrArg held hsame.symm)
  · exact hlatch.trans (h.latch.trans (congrArg held hsame.symm))

/-- An accepted parameter followed by a cycle keeps the relation: the first
frame of the cycle is armed and holds the parameter. -/
theorem refined_written {app : App PowerSupply200A} (h : Refined app) (dataType : Byte)
    (value : Word) (hcode : ¬(setStatus dataType value app.powerSupply).1<0) :
    Refined ((App.setStatus (powerSupply200A fp) dataType value app).communicate
      (powerSupply200A fp)) := by
  obtain ⟨h21,h23,hheld⟩ := setStatus_accepted hcode
  have hspi := setStatus_spi dataType value app.powerSupply
  obtain ⟨hout,hreply,hlatch⟩ := cycle_remote fp (p:=(setStatus dataType value app.powerSupply).2)
    (by rw [hspi]; exact h.remote)
  rw [take_armed _ h21 h23] at hlatch
  have hkept := (congrArg held hout).trans (held_confirm false _)
  refine ⟨?_,?_,?_,?_⟩
  · intro k
    rw [hspi] at hreply
    exact (congrArg (fun r : ℕ → Vector Byte 6 => bitAt (r k) psStatusRemoteControlPos) hreply).trans
      (h.remote k)
  · exact (congrArg (confirm false) hout).trans ((confirm_confirm _ _ _).trans hout.symm)
  · refine Eq.trans ?_ (hheld.symm.trans hkept.symm)
    rw [←h.accepted]
    rw [commanded]
    exact List.foldl_append
  · exact hlatch.trans hkept.symm

/-- Every round keeps the relation. -/
theorem refined_handled {app app' : App PowerSupply200A}
    (hround : Handled (powerSupply200A fp) app app') (h : Refined app) : Refined app' := by
  cases hround with
  | idle => exact h
  | exchanged => exact refined_communicate fp h
  | declined dataType value hcode =>
    have hsame := setStatus_declined hcode
    have hcalls : commanded (app.calls++[⟨dataType,value,
        (setStatus dataType value app.powerSupply).1⟩])=commanded app.calls :=
      commanded_declined _ hcode
    have happ : App.setStatus (powerSupply200A fp) dataType value app=
        ⟨app.powerSupply,app.calls++[⟨dataType,value,
          (setStatus dataType value app.powerSupply).1⟩]⟩ :=
      congrArg (fun p => (⟨p,_⟩ : App PowerSupply200A)) hsame
    rw [happ]
    exact ⟨h.remote,h.disarmed,hcalls.trans h.accepted,h.latch⟩
  | written dataType value hcode => exact refined_written fp h dataType value hcode

/-- A supply that was just switched on and a driver that was just built agree. -/
theorem refined_init {reply : ℕ → Vector Byte 6}
    (h : ∀ k,bitAt (reply k) psStatusRemoteControlPos=true) :
    Refined ⟨PowerSupply200A.init reply,[]⟩ where
  remote := h
  disarmed := by
    change confirm false (Vector.replicate 4 0#8)=Vector.replicate 4 0#8
    decide
  accepted := by
    change Setting.off=held (Vector.replicate 4 0#8)
    decide
  latch := by
    change Setting.off=held (Vector.replicate 4 0#8)
    decide

/-- While every answer reports remote control, the supply holds after every
round exactly what was last accepted over the server. -/
theorem latch_refines_commands (reply : ℕ → Vector Byte 6) (rx : List (Option Byte))
    (h : ∀ k,bitAt (reply k) psStatusRemoteControlPos=true) (n : ℕ) :
    latched (framesOf (mainLoop overshift (powerSupply200A fp) n
      (Server.init (PowerSupply200A.init reply) rx)))=
    commanded (mainLoop overshift (powerSupply200A fp) n
      (Server.init (PowerSupply200A.init reply) rx)).machine.app.calls := by
  have hrun := mainLoop_app overshift (powerSupply200A fp) (P:=Refined)
    (fun hround hr => refined_handled fp hround hr) (s:=Server.init (PowerSupply200A.init reply) rx)
    (refined_init h) n
  exact hrun.latch.trans hrun.accepted.symm

/-- The supply is on and holds the current that was set. -/
theorem latch_refines_commands_switched :
    latched (framesOf (mainLoop (fun _ _ => 0#32) (powerSupply200A exactUnit) 4
      (Server.init (PowerSupply200A.init fun _ => Vector.replicate 6 4#8) commandLine)))=
      commanded (mainLoop (fun _ _ => 0#32) (powerSupply200A exactUnit) 4
        (Server.init (PowerSupply200A.init fun _ => Vector.replicate 6 4#8)
          commandLine)).machine.app.calls ∧
    (mainLoop (fun _ _ => 0#32) (powerSupply200A exactUnit) 4
      (Server.init (PowerSupply200A.init fun _ => Vector.replicate 6 4#8)
        commandLine)).machine.app.calls=
      [⟨0#8,1#16,1⟩,⟨1#8,0#16,-1⟩,⟨3#8,33449#16,1⟩] :=
  ⟨latch_refines_commands (fun _ _ => 0#32) exactUnit (fun _ => Vector.replicate 6 4#8) commandLine
    (fun _ => by decide) 4,by decide +kernel⟩

end CyclotronPico.Latch
