import CyclotronPico.SetPoints

/-!
# What the supply is told

The frames that the supply takes, in every mode: an accepted parameter is
taken once, in the cycle that follows it, and a cycle under local control is
followed by the supply's own set point. Nothing else is taken, nothing twice,
and the driver and the supply hold the same after every round.
-/

namespace CyclotronPico.Orders

open BitBuffer BitFields FloatRounding PicoController Nanomodbus ServerAnswers SupplyInterface
  Handling Supply200A SupplyCycle Latch SetPoints
open ModbusServer hiding setStatus

variable (overshift : Overshift) (fp : FloatUnit)

/-! ### Orders -/

/-- What changes the setting of the supply. -/
inductive Order where
  /-- A parameter that was accepted over the server. -/
  | command (call : SetStatusCall)
  /-- The supply's own setting, copied under local control. -/
  | mirror (own : Setting)
  deriving DecidableEq

/-- What the supply holds once it has followed an order. -/
def follow (s : Setting) : Order → Setting
  | .command call => s.accept call
  | .mirror own => own

/-- The settings a supply goes through as it follows orders. -/
def settings (s : Setting) : List Order → List Setting
  | [] => []
  | order::orders => follow s order::settings (follow s order) orders

/-- The settings the supply takes from frames, in order. -/
def taken (frames : List (List Byte)) : List Setting :=
  (frames.filter confirmed).map (Setting.take Setting.off)

/-- More orders go through more settings. -/
theorem settings_append (s : Setting) (first second : List Order) :
    settings s (first++second)=settings s first++settings (first.foldl follow s) second := by
  induction first generalizing s with
  | nil => rfl
  | cons order orders ih =>
    rw [List.cons_append,settings,settings,ih,List.foldl_cons,List.cons_append]

/-- More frames are taken after the others. -/
theorem taken_append (first second : List (List Byte)) :
    taken (first++second)=taken first++taken second := by
  rw [taken,List.filter_append,List.map_append]
  rfl

/-- The last setting is what the supply holds. -/
theorem settings_last (s : Setting) (orders : List Order) :
    (settings s orders).getLastD s=orders.foldl follow s := by
  induction orders generalizing s with
  | nil => rfl
  | cons order orders ih =>
    rw [settings,List.getLastD_cons,ih,List.foldl_cons]

/-- A confirmed frame overrides whatever the supply holds. -/
theorem take_confirmed (s : Setting) {frame : List Byte} (h : confirmed frame=true) :
    s.take frame=Setting.off.take frame := by
  rw [Setting.take,Setting.take,if_pos h,if_pos h]

/-- A confirmed frame is taken. -/
theorem taken_cons_confirmed {frame : List Byte} (h : confirmed frame=true)
    (frames : List (List Byte)) : taken (frame::frames)=Setting.off.take frame::taken frames := by
  rw [taken,List.filter_cons_of_pos h,List.map_cons]
  rfl

/-- Another frame is not. -/
theorem taken_cons_other {frame : List Byte} (h : ¬confirmed frame=true)
    (frames : List (List Byte)) : taken (frame::frames)=taken frames := by
  rw [taken,List.filter_cons_of_neg h]
  rfl

/-- The supply holds the last setting it took. -/
theorem take_last (s : Setting) (frames : List (List Byte)) :
    frames.foldl Setting.take s=(taken frames).getLastD s := by
  induction frames generalizing s with
  | nil => rfl
  | cons frame frames ih =>
    rw [List.foldl_cons,ih]
    by_cases h : confirmed frame=true
    · rw [taken_cons_confirmed h,List.getLastD_cons,take_confirmed s h]
    · rw [taken_cons_other h,Setting.take,if_neg h]

/-! ### The frames of a cycle -/

/-- The setting that a cycle under local control copies from the supply. -/
def ownSetting (p : PowerSupply200A) : Setting :=
  ⟨copied fp p,bitAt (p.psSpi.reply (p.psSpi.sent.length+4)) psStatusPowerCircuitPos⟩

/-- The frame that a cycle under local control sends last holds the copy. -/
theorem held_mirrored (p : PowerSupply200A) : held (mirrored fp p)=ownSetting fp p := by
  unfold held mirrored
  rw [setPoint_setUint,setUint_other _ _ (by decide),confirm_bit,if_neg (by decide)]
  unfold psOUTPowerCircuitPos
  rw [bitAt_setBit (by omega),Function.update_self]
  rfl

/-- That frame is taken. -/
theorem taken_mirrored (p : PowerSupply200A) :
    taken [wire (mirrored fp p)]=[ownSetting fp p] := by
  have hbit : ∀ q,q=21 ∨ q=23 → bitAt (mirrored fp p) q=true := by
    intro q hq
    rw [mirrored,setUint_other _ _ (by omega),confirm_bit,if_pos hq]
  have h21 := hbit 21 (.inl rfl)
  have h23 := hbit 23 (.inr rfl)
  have hconf : confirmed (wire (mirrored fp p))=true := by
    rw [confirmed_wire,h21,h23]
    rfl
  rw [taken_cons_confirmed hconf,take_armed _ h21 h23,held_mirrored]
  rfl

/-- Frames of a disarmed buffer are not taken. -/
theorem taken_disarmed (out : Vector Byte 4) (k : ℕ) (h21 : bitAt out 21=false) :
    taken (List.replicate k (wire out))=[] := by
  have hconf : ¬confirmed (wire out)=true := by
    rw [confirmed_wire,h21,Bool.false_and]
    exact Bool.false_ne_true
  rw [taken,List.filter_replicate_of_neg hconf]
  rfl

/-- What is taken from a cycle: the buffer if it was armed, then the copy. -/
theorem taken_cycle (p : PowerSupply200A) :
    taken (cycleFrames fp p)=taken [wire p.psBufOut]++
      if remoteFifth p=true then [] else [ownSetting fp p] := by
  have h21 : bitAt (confirm false p.psBufOut) 21=false := by
    rw [confirm_bit,if_pos (by omega)]
  have hhead : wire p.psBufOut::List.replicate 4 (wire (confirm false p.psBufOut))=
      [wire p.psBufOut]++List.replicate 4 (wire (confirm false p.psBufOut)) := rfl
  rw [cycleFrames,hhead,taken_append,taken_append,taken_disarmed _ _ h21,List.append_nil]
  split
  · rfl
  · rw [taken_mirrored]

/-- What the buffer holds after a cycle. -/
theorem held_cycle (p : PowerSupply200A) :
    held (safeCommunicationWithPS fp p).psBufOut=
      if remoteFifth p=true then held p.psBufOut else ownSetting fp p := by
  rw [safeCommunicationWithPS_eq]
  split
  · exact held_confirm false p.psBufOut
  · exact (held_confirm false (mirrored fp p)).trans (held_mirrored fp p)

/-- A cycle leaves the buffer disarmed. -/
theorem disarmed_cycle (p : PowerSupply200A) :
    bitAt (safeCommunicationWithPS fp p).psBufOut 21=false := by
  rw [safeCommunicationWithPS_eq]
  split
  · exact (confirm_bit false p.psBufOut 21).trans (if_pos (by omega))
  · exact (confirm_bit false (mirrored fp p) 21).trans (if_pos (by omega))

/-! ### The orders of a round -/

/-- Frames were exchanged between two states. -/
def Exchanged (app app' : App PowerSupply200A) : Prop :=
  app.powerSupply.psSpi.sent.length<app'.powerSupply.psSpi.sent.length

instance (app app' : App PowerSupply200A) : Decidable (Exchanged app app') :=
  inferInstanceAs (Decidable (_<_))

/-- The calls between two states that were accepted. -/
def acceptedCalls (app app' : App PowerSupply200A) : List SetStatusCall :=
  (app'.calls.drop app.calls.length).filter fun call => decide (¬call.code<0)

/-- The orders of a round: what it accepted, then the copy of a cycle under
local control. -/
def ordersOf (app app' : App PowerSupply200A) : List Order :=
  (acceptedCalls app app').map Order.command++
    if Exchanged app app' ∧ remoteFifth app.powerSupply=false then
      [.mirror (ownSetting fp app.powerSupply)] else []

/-- The orders of a number of rounds. -/
def ordersUntil (s : Server PowerSupply200A) (n : ℕ) : List Order :=
  (List.range n).flatMap fun k =>
    ordersOf fp (mainLoop overshift (powerSupply200A fp) k s).machine.app
      (mainLoop overshift (powerSupply200A fp) (k+1) s).machine.app

/-- The driver is disarmed and, like the supply, has followed the orders. -/
structure Followed (app : App PowerSupply200A) (orders : List Order) : Prop where
  /-- The buffer is disarmed. -/
  disarmed : bitAt app.powerSupply.psBufOut 21=false
  /-- The buffer holds what the orders leave. -/
  held : Latch.held app.powerSupply.psBufOut=orders.foldl follow Setting.off
  /-- The supply took the settings of the orders and no others. -/
  taken : Orders.taken app.powerSupply.psSpi.sent=settings Setting.off orders

/-- What is taken from a buffer that is not armed. -/
theorem taken_unarmed {out : Vector Byte 4} (h21 : bitAt out 21=false) :
    taken [wire out]=[] := taken_disarmed out 1 h21

/-- What is taken from an armed buffer. -/
theorem taken_armed {out : Vector Byte 4} (h21 : bitAt out 21=true) (h23 : bitAt out 23=true) :
    taken [wire out]=[Latch.held out] := by
  have hconf : confirmed (wire out)=true := by
    rw [confirmed_wire,h21,h23]
    rfl
  rw [taken_cons_confirmed hconf,take_armed _ h21 h23]
  rfl

/-- A cycle sends frames. -/
theorem sent_cycle (p : PowerSupply200A) :
    p.psSpi.sent.length<(safeCommunicationWithPS fp p).psSpi.sent.length := by
  rw [cycle_sent,List.length_append]
  have h := List.length_pos_of_ne_nil (cycleFrames_ne_nil fp p)
  omega

/-- A cycle that follows an order in an armed buffer, or none in a disarmed
one, is followed by the orders of its mode. -/
theorem followed_cycle {p : PowerSupply200A} (orders more : List Order)
    (hheld : Latch.held p.psBufOut=(orders++more).foldl follow Setting.off)
    (hsent : taken p.psSpi.sent=settings Setting.off orders)
    (hbuffer : taken [wire p.psBufOut]=settings (orders.foldl follow Setting.off) more)
    (calls : List SetStatusCall) :
    Followed ⟨safeCommunicationWithPS fp p,calls⟩ (orders++(more++
      if remoteFifth p=true then [] else [.mirror (ownSetting fp p)])) := by
  refine ⟨disarmed_cycle fp p,?_,?_⟩
  · refine (held_cycle fp p).trans ?_
    rw [←List.append_assoc,List.foldl_append,←hheld]
    split <;> rfl
  · have hcycle := cycle_sent fp p
    refine (congrArg taken hcycle).trans ?_
    rw [taken_append,taken_cycle,hsent,hbuffer,settings_append,settings_append]
    split <;> rfl

/-- Without a new frame and without an accepted call there is no order. -/
theorem ordersOf_idle (app : App PowerSupply200A) (more : List SetStatusCall)
    (hmore : ∀ call ∈ more,call.code<0) :
    ordersOf fp app ⟨app.powerSupply,app.calls++more⟩=[] := by
  have hnone : acceptedCalls app ⟨app.powerSupply,app.calls++more⟩=[] := by
    rw [acceptedCalls,List.drop_left,List.filter_eq_nil_iff]
    intro call hcall
    rw [decide_eq_true_eq,not_not]
    exact hmore call hcall
  have hstay : ¬(Exchanged app ⟨app.powerSupply,app.calls++more⟩ ∧
      remoteFifth app.powerSupply=false) := fun h => Nat.lt_irrefl _ h.1
  rw [ordersOf,hnone,if_neg hstay]
  rfl

/-- The orders of a round that exchanged frames. -/
theorem ordersOf_cycle (app : App PowerSupply200A) (q : PowerSupply200A)
    (hspi : q.psSpi=app.powerSupply.psSpi) (more : List SetStatusCall)
    (hmore : ∀ call ∈ more,¬call.code<0) :
    ordersOf fp app ⟨safeCommunicationWithPS fp q,app.calls++more⟩=more.map Order.command++
      if remoteFifth app.powerSupply=true then [] else [.mirror (ownSetting fp app.powerSupply)] := by
  have hall : acceptedCalls app ⟨safeCommunicationWithPS fp q,app.calls++more⟩=more := by
    rw [acceptedCalls,List.drop_left,List.filter_eq_self]
    intro call hcall
    exact decide_eq_true (hmore call hcall)
  have hsent : Exchanged app ⟨safeCommunicationWithPS fp q,app.calls++more⟩ := by
    have h := sent_cycle fp q
    rw [hspi] at h
    exact h
  rw [ordersOf,hall]
  by_cases hr : remoteFifth app.powerSupply=true
  · rw [if_pos hr,if_neg (by rw [hr]; exact fun h => Bool.noConfusion h.2)]
  · rw [if_neg hr,if_pos ⟨hsent,Bool.eq_false_of_not_eq_true hr⟩]

/-- Setting a parameter does not change the setting that a cycle copies. -/
theorem ownSetting_setStatus (dataType : Byte) (value : Word) (p : PowerSupply200A) :
    ownSetting fp (setStatus dataType value p).2=ownSetting fp p := by
  unfold ownSetting
  rw [copied_setStatus,setStatus_spi]

/-- Every round is followed. -/
theorem followed_handled {app app' : App PowerSupply200A} {orders : List Order}
    (hround : Handled (powerSupply200A fp) app app') (h : Followed app orders) :
    Followed app' (orders++ordersOf fp app app') := by
  have hnil : ∀ q : PowerSupply200A,bitAt q.psBufOut 21=false →
      taken [wire q.psBufOut]=settings (orders.foldl follow Setting.off) [] :=
    fun _ hq => taken_unarmed hq
  cases hround with
  | idle =>
    have hnone := ordersOf_idle fp app [] (fun _ hc => absurd hc List.not_mem_nil)
    rw [List.append_nil] at hnone
    rw [show ordersOf fp app app=[] from hnone,List.append_nil]
    exact h
  | exchanged =>
    have hnext := ordersOf_cycle fp app app.powerSupply rfl []
      (fun _ hc => absurd hc List.not_mem_nil)
    rw [List.append_nil] at hnext
    have hfollow := followed_cycle fp (p:=app.powerSupply) orders []
      (by rw [List.append_nil]; exact h.held) h.taken (hnil _ h.disarmed) app.calls
    rw [show ordersOf fp app (app.communicate (powerSupply200A fp))=_ from hnext]
    exact hfollow
  | declined dataType value hcode =>
    have hsame := setStatus_declined hcode
    have hidle := ordersOf_idle fp app [⟨dataType,value,(setStatus dataType value
      app.powerSupply).1⟩] (fun c hc => by rw [List.mem_singleton.mp hc]; exact hcode)
    have happ : App.setStatus (powerSupply200A fp) dataType value app=
        ⟨app.powerSupply,app.calls++[⟨dataType,value,
          (setStatus dataType value app.powerSupply).1⟩]⟩ :=
      congrArg (fun p => (⟨p,_⟩ : App PowerSupply200A)) hsame
    rw [happ,hidle,List.append_nil]
    exact ⟨h.disarmed,h.held,h.taken⟩
  | written dataType value hcode =>
    obtain ⟨h21,h23,hheld⟩ := setStatus_accepted hcode
    have hspi := setStatus_spi dataType value app.powerSupply
    have hnext := ordersOf_cycle fp app (setStatus dataType value app.powerSupply).2 hspi
      [⟨dataType,value,(setStatus dataType value app.powerSupply).1⟩]
      (fun c hc => by rw [List.mem_singleton.mp hc]; exact hcode)
    have hbuf : Latch.held (setStatus dataType value app.powerSupply).2.psBufOut=
        (orders++[Order.command ⟨dataType,value,(setStatus dataType value app.powerSupply).1⟩]).foldl
          follow Setting.off := by
      rw [List.foldl_append,←h.held]
      exact hheld
    have hone : taken [wire (setStatus dataType value app.powerSupply).2.psBufOut]=
        settings (orders.foldl follow Setting.off)
          [Order.command ⟨dataType,value,(setStatus dataType value app.powerSupply).1⟩] := by
      rw [taken_armed h21 h23,hheld,h.held]
      rfl
    have hfollow := followed_cycle fp _ _ hbuf (by rw [hspi]; exact h.taken) hone
      (app.calls++[⟨dataType,value,(setStatus dataType value app.powerSupply).1⟩])
    rw [remoteFifth_setStatus,ownSetting_setStatus] at hfollow
    rw [show ordersOf fp app ((App.setStatus (powerSupply200A fp) dataType value app).communicate
      (powerSupply200A fp))=_ from hnext]
    exact hfollow

/-! ### Runs -/

/-- A server that was just built has followed no order. -/
theorem followed_init (reply : ℕ → Vector Byte 6) (rx : List (Option Byte)) :
    Followed (Server.init (PowerSupply200A.init reply) rx).machine.app [] where
  disarmed := by
    change bitAt (Vector.replicate 4 0#8) 21=false
    decide
  held := by
    change Latch.held (Vector.replicate 4 0#8)=Setting.off
    decide
  taken := rfl

/-- After every number of rounds the orders have been followed. -/
theorem followed_run (reply : ℕ → Vector Byte 6) (rx : List (Option Byte)) (n : ℕ) :
    Followed (mainLoop overshift (powerSupply200A fp) n
      (Server.init (PowerSupply200A.init reply) rx)).machine.app
      (ordersUntil overshift fp (Server.init (PowerSupply200A.init reply) rx) n) := by
  induction n with
  | zero => exact followed_init reply rx
  | succ n ih =>
    rw [ordersUntil,List.range_succ,List.flatMap_append,List.flatMap_singleton]
    have hround := wait_handled overshift (powerSupply200A fp) (mainLoop overshift
      (powerSupply200A fp) n (Server.init (PowerSupply200A.init reply) rx))
    rw [←mainLoop_succ] at hround
    exact followed_handled fp hround ih

/-- In every run, in either mode, the supply takes exactly the settings of
the orders: each accepted parameter once and in order, after each cycle under
local control its own setting, and nothing else. -/
theorem supply_takes_orders (reply : ℕ → Vector Byte 6) (rx : List (Option Byte)) (n : ℕ) :
    taken (framesOf (mainLoop overshift (powerSupply200A fp) n
      (Server.init (PowerSupply200A.init reply) rx)))=
    settings Setting.off
      (ordersUntil overshift fp (Server.init (PowerSupply200A.init reply) rx) n) :=
  (followed_run overshift fp reply rx n).taken

/-! ### What is reported -/

/-- Under local control the driver reports the set point of its buffer. -/
def LocalCoherent (app : App PowerSupply200A) : Prop :=
  isRemote app.powerSupply=false → Coherent fp app.powerSupply

/-- Every round keeps this. -/
theorem localCoherent_handled {app app' : App PowerSupply200A}
    (hround : Handled (powerSupply200A fp) app app') (h : LocalCoherent fp app) :
    LocalCoherent fp app' := by
  have hcycle : ∀ q calls,LocalCoherent fp ⟨safeCommunicationWithPS fp q,calls⟩ := by
    intro q calls hlocal
    refine (cycle_coherent fp q).mpr (fun hr => ?_)
    rw [←cycle_isRemote fp q] at hr
    exact Bool.noConfusion (hr.symm.trans hlocal)
  cases hround with
  | idle => exact h
  | exchanged => exact hcycle _ _
  | declined dataType value hcode =>
    have hsame : (App.setStatus (powerSupply200A fp) dataType value app).powerSupply=
        app.powerSupply := setStatus_declined hcode
    rw [LocalCoherent,hsame]
    exact h
  | written dataType value hcode => exact hcycle _ _

/-- In every run, in either mode, the supply holds after every round what the
buffer of the driver holds; the power switch that is reported is the one the
supply holds, and so is the current under local control. -/
theorem supply_holds_buffer (reply : ℕ → Vector Byte 6) (rx : List (Option Byte)) (n : ℕ) :
    let app := (mainLoop overshift (powerSupply200A fp) n
      (Server.init (PowerSupply200A.init reply) rx)).machine.app
    latched app.powerSupply.psSpi.sent=
      ⟨setPoint app.powerSupply.psBufOut,getIsOnSet app.powerSupply⟩ ∧
    (isRemote app.powerSupply=false →
      getLastSetCurrent fp app.powerSupply=(latched app.powerSupply.psSpi.sent).current) := by
  dsimp only
  have hfollowed := followed_run overshift fp reply rx n
  have hlocal := mainLoop_app overshift (powerSupply200A fp) (P:=LocalCoherent fp)
    (fun hround hr => localCoherent_handled fp hround hr)
    (s:=Server.init (PowerSupply200A.init reply) rx) (fun _ => coherent_init fp reply rx) n
  generalize (mainLoop overshift (powerSupply200A fp) n
    (Server.init (PowerSupply200A.init reply) rx)).machine.app=app at hfollowed hlocal ⊢
  have hlatch : latched app.powerSupply.psSpi.sent=Latch.held app.powerSupply.psBufOut := by
    rw [latched,take_last,hfollowed.taken,settings_last,hfollowed.held]
  have hon : getIsOnSet app.powerSupply=bitAt app.powerSupply.psBufOut psOUTPowerCircuitPos :=
    getBit_eq _ _
  refine ⟨?_,fun h => ?_⟩
  · rw [hlatch,hon]
    rfl
  · rw [hlatch]
    exact hlocal h

end CyclotronPico.Orders
