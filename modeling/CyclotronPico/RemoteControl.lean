import CyclotronPico.LineErrors
import CyclotronPico.Retries
import CyclotronPico.SupplyAgreement
import CyclotronPico.SupplyService
import CyclotronPico.WriteEncoding

/-!
# Remote control of a supply

A master sends commands over a noisy line and repeats each until one attempt
has arrived. Because a command that is carried out twice does no more than
once, the supply ends with what was commanded last, and a read reports it:
for both supplies, with requests that were hit or cut short, traffic of
other units and reads in between.
-/

namespace CyclotronPico.RemoteControl

open BitBuffer Effects FloatRounding PicoController Nanomodbus NanomodbusServer Frames Requests
  Answers ServerAnswers SupplyInterface ModbusServer Handling Latch SetPoints ReadRegisters
  Service Sessions LineErrors WriteEncoding SupplyService
open Supply200A (PowerSupply200A powerSupply200A psStatusRemoteControlPos)
open SubstituteSupply (PowerSupply powerSupply)

variable (overshift : Overshift)

/-! ### What is meant -/

/-- A setting with a parameter written. -/
def written (s : Setting) (dataType : Byte) (value : Word) : Setting :=
  match dataType.toNat with
  | 0 => {s with power := decide (value≠0#16)}
  | 3 => {s with current := value}
  | _ => s

/-- What an item of a session means: a write of a parameter sets it, nothing
else sets anything. -/
def meant (s : Setting) : Item → Setting
  | .request r _ _ =>
    if IsWrite r.fc r.frame then
      written s (writtenType r.frame) (writtenValue overshift r.frame)
    else s
  | _ => s

/-- What arrives means what its item means; a request that was hit means nothing. -/
def arrived (s : Setting) : Passage → Setting
  | .clear item => meant overshift s item
  | .hit _ _ _ | .astray _ _ _ => s

/-- What a command means. -/
def commandedBy (c : Command) (s : Setting) : Setting := written s c.parameter.number c.value

/-- Writing a parameter twice is writing it once. -/
theorem written_written (s : Setting) (dataType : Byte) (value : Word) :
    written (written s dataType value) dataType value=written s dataType value := by
  unfold written
  generalize dataType.toNat=n
  match n with
  | 0 | 1 | 2 | 3 => rfl
  | n+4 => rfl

/-- The request of a command has no file records. -/
theorem command_records (c : Command) (h : c.request.fc.toNat=21) : c.request.walk≠.leaves := by
  cases h

/-- The request of a command is for this server. -/
theorem command_unit (c : Command) : c.request.unit=0#8 ∨ c.request.unit=1#8 := .inr rfl

/-- A command as an item of a session. -/
def commandItem (c : Command) : Item := .request c.request (command_unit c) (command_records c)

/-- The item of a command means the command. -/
theorem meant_command (c : Command) (s : Setting) :
    meant overshift s (commandItem c)=commandedBy c s := by
  have hwrite : IsWrite c.request.fc c.request.frame :=
    (WriteFrames.writeFrame_received (c.fields (.inr rfl)) []).2.2
  have htype : writtenType c.request.frame=c.parameter.number := c.decoded_type (.inr rfl)
  have hvalue : writtenValue overshift c.request.frame=c.value :=
    c.decoded_value overshift (.inr rfl)
  rw [commandItem,meant,if_pos hwrite,htype,hvalue,commandedBy]

/-- What arrives that means nothing. -/
def Idle : Passage → Prop
  | .clear (.request r _ _) => ¬IsWrite r.fc r.frame
  | _ => True

/-- It means nothing. -/
theorem idle_arrived {p : Passage} (h : Idle p) (s : Setting) : arrived overshift s p=s := by
  cases p with
  | clear item =>
    cases item with
    | request r hown hrecords => exact if_neg h
    | exchange | garbled | unknown | lost => rfl
  | hit | astray => rfl

/-- What arrives until a command was carried out: the command at least once,
and anything that means nothing. -/
structure Tries (c : Command) (tries : List Passage) : Prop where
  /-- The command, or what means nothing. -/
  each : ∀ p∈tries,p=.clear (commandItem c) ∨ Idle p
  /-- The command arrives. -/
  once : .clear (commandItem c)∈tries

/-- These are attempts at the command. -/
theorem tries_attempts {c : Command} {tries : List Passage} (h : Tries c tries) :
    Retries.Attempts (arrived overshift) (commandedBy c) tries where
  each p hp := by
    rcases h.each p hp with rfl | hidle
    · exact .inl fun s => meant_command overshift c s
    · exact .inr fun s => idle_arrived overshift hidle s
  once := ⟨_,h.once,fun s => meant_command overshift c s⟩

/-! ### Supplies that report what they accepted -/

variable {τ : Type} {ps : PowerSupplyInterface τ} {P : App τ → Prop}

/-- In every state of a run the supply reports the switch and the current
that it accepted last, and its readings fit their fields. -/
structure Faithful (ps : PowerSupplyInterface τ) (P : App τ → Prop) : Prop where
  /-- Handling a request keeps the states of the run. -/
  handled : ∀ {app app'},Handled ps app app' → P app → P app'
  /-- The switch and the current are never declined. -/
  accepts : ∀ {app} (dataType : Byte) (value : Word),P app →
    dataType.toNat=0 ∨ dataType.toNat=3 → ¬(ps.setStatus dataType value app.powerSupply).1<0
  /-- The current last accepted is reported. -/
  current : ∀ {app},P app → ps.getLastSetCurrent app.powerSupply=(commanded app.calls).current
  /-- The switch last accepted is reported. -/
  power : ∀ {app},P app → ps.getIsOnSet app.powerSupply=(commanded app.calls).power
  /-- The readings fit. -/
  bounded : ∀ {app},P app → Bounded ps app.powerSupply

/-- Accepting a call writes its parameter, if the switch and the current are
never declined. -/
theorem accept_written (s : Setting) (dataType : Byte) (value : Word) {code : ℤ}
    (h : dataType.toNat=0 ∨ dataType.toNat=3 → ¬code<0) :
    s.accept ⟨dataType,value,code⟩=written s dataType value := by
  unfold Setting.accept written
  generalize dataType.toNat=n at h ⊢
  match n,h with
  | 0,h => exact if_neg (h (.inl rfl))
  | 3,h => exact if_neg (h (.inr rfl))
  | 1,_ | 2,_ | n+4,_ => exact ite_self s

/-- The calls that serving a request adds to the log: one for a write. -/
theorem serve_calls (walk : Walk) (toAll : Bool) (u : Byte) {fc : Byte} {frame : List Byte}
    {lay : Layout} (hl : requestLayout fc=some lay) (app : App τ) :
    (serve (supplyHandlers overshift ps) walk toAll u fc frame app).2.calls=
      if IsWrite fc frame then
        app.calls++[⟨writtenType frame,writtenValue overshift frame,
          writtenCode overshift ps frame app⟩]
      else app.calls := by
  by_cases hw : IsWrite fc frame
  · rw [serve_write overshift ps walk toAll u hw,if_pos hw]
    split <;> rfl
  · rw [if_neg hw]
    by_cases hr : IsRead fc frame
    · rw [serve_read overshift ps walk toAll u hr]
      rfl
    · rw [serve_refused overshift ps walk toAll u hl hr hw]

/-- What is accepted after an item is what the item means. -/
theorem handle_meant (hf : Faithful ps P) {app : App τ} (hP : P app) (tx : List (List Byte))
    (item : Item) : commanded (item.handle overshift ps (app,tx)).1.calls=
      meant overshift (commanded app.calls) item := by
  cases item with
  | request r hown hrecords =>
    have hcalls : (serve (supplyHandlers overshift ps) r.walk (decide (r.unit=0#8)) r.unit r.fc
        r.frame app).2.calls=if IsWrite r.fc r.frame then
          app.calls++[⟨writtenType r.frame,writtenValue overshift r.frame,
            writtenCode overshift ps r.frame app⟩]
        else app.calls := serve_calls overshift r.walk _ r.unit r.known app
    by_cases hw : IsWrite r.fc r.frame
    · rw [if_pos hw] at hcalls
      rw [meant,if_pos hw,←accept_written (commanded app.calls) _ _
        (hf.accepts (writtenType r.frame) (writtenValue overshift r.frame) hP),←commanded_append]
      exact congrArg commanded hcalls
    · rw [if_neg hw] at hcalls
      rw [meant,if_neg hw]
      exact congrArg commanded hcalls
  | exchange | garbled | unknown | lost => rfl

/-- Handling an item is handling a request or nothing. -/
theorem handle_handled (app : App τ) (tx : List (List Byte)) (item : Item) :
    Handled ps app (item.handle overshift ps (app,tx)).1 := by
  -- the round over a line that holds the item and nothing else
  obtain ⟨t,ht,_,hstate⟩ := wait_item overshift ps
    ⟨⟨Vector.replicate 260 0#8,0,0#8,0#8,false,false⟩,⟨item.line,tx,false⟩,app⟩ item
    (List.append_nil _).symm
  have hround := wait_handled overshift ps
    ⟨⟨⟨Vector.replicate 260 0#8,0,0#8,0#8,false,false⟩,⟨item.line,tx,false⟩,app⟩,none⟩
  rw [ht] at hround
  rw [←hstate]
  exact hround

/-- What is accepted after a session is what arrived. -/
theorem passages_arrived (hf : Faithful ps P) (passages : List Passage) {app : App τ}
    (hP : P app) (tx : List (List Byte)) :
    P (passages.foldl (Passage.handle overshift ps) (app,tx)).1 ∧
      commanded (passages.foldl (Passage.handle overshift ps) (app,tx)).1.calls=
        passages.foldl (arrived overshift) (commanded app.calls) := by
  induction passages generalizing app tx with
  | nil => exact ⟨hP,rfl⟩
  | cons p passages ih =>
    have hstep : P (p.handle overshift ps (app,tx)).1 ∧
        commanded (p.handle overshift ps (app,tx)).1.calls=
          arrived overshift (commanded app.calls) p := by
      cases p with
      | clear item =>
        exact ⟨hf.handled (handle_handled overshift app tx item) hP,
          handle_meant overshift hf hP tx item⟩
      | hit | astray => exact ⟨hf.handled .exchanged hP,rfl⟩
    rw [List.foldl_cons,List.foldl_cons,←hstep.2]
    exact ih hstep.1 _

/-! ### Commands over a noisy line -/

/-! ### The two supplies -/

/-- What the substitute supply keeps of what it accepted. -/
structure SubstituteKeeps (app : App PowerSupply) : Prop where
  /-- The current. -/
  current : app.powerSupply.currentSet=(commanded app.calls).current
  /-- The switch. -/
  power : app.powerSupply.isOnSet=(commanded app.calls).power
  /-- The readings fit. -/
  bounds : SubstituteBounds app.powerSupply

/-- A substitute supply that was just built. -/
theorem substituteKeeps_init : SubstituteKeeps ⟨{},[]⟩ :=
  ⟨rfl,rfl,⟨Nat.le_of_ble_eq_true rfl,rfl,rfl⟩⟩

/-- A call of the substitute supply is kept. -/
theorem substituteKeeps_set {app : App PowerSupply} (h : SubstituteKeeps app) (dataType : Byte)
    (value : Word) : SubstituteKeeps (App.setStatus powerSupply dataType value app) := by
  have hbounds := substituteBounds_set h.bounds dataType value
  have hpos : ¬(1 : ℤ)<0 := by decide
  have haccept := commanded_append app.calls
    ⟨dataType,value,(SubstituteSupply.setStatus dataType value app.powerSupply).1⟩
  have hother : dataType.toNat≠0 → dataType.toNat≠3 →
      (commanded app.calls).accept
        ⟨dataType,value,(SubstituteSupply.setStatus dataType value app.powerSupply).1⟩=
      commanded app.calls := by
    intro h0 h3
    rw [accept_written _ _ _ (fun hc => absurd hc (not_or.mpr ⟨h0,h3⟩)),written]
    generalize dataType.toNat=n at h0 h3 ⊢
    match n,h0,h3 with
    | 1,_,_ | 2,_,_ | n+4,_,_ => rfl
  change SubstituteKeeps ⟨(SubstituteSupply.setStatus dataType value app.powerSupply).2,
    app.calls++[⟨dataType,value,(SubstituteSupply.setStatus dataType value app.powerSupply).1⟩]⟩
  suffices hkeep : (SubstituteSupply.setStatus dataType value app.powerSupply).2.currentSet=
        ((commanded app.calls).accept ⟨dataType,value,
          (SubstituteSupply.setStatus dataType value app.powerSupply).1⟩).current ∧
      (SubstituteSupply.setStatus dataType value app.powerSupply).2.isOnSet=
        ((commanded app.calls).accept ⟨dataType,value,
          (SubstituteSupply.setStatus dataType value app.powerSupply).1⟩).power by
    rw [←haccept] at hkeep
    exact ⟨hkeep.1,hkeep.2,hbounds⟩
  rcases SubstituteSupply.setStatus_cases dataType value app.powerSupply with
    ⟨ht,hs⟩ | ⟨ht,hs⟩ | ⟨ht,hs⟩ | ⟨ht,hs⟩ | ⟨ht,hs⟩
  · rw [hs,accept_power _ _ _ ht hpos]
    exact ⟨h.current,rfl⟩
  · rw [hother (by omega) (by omega),hs]
    exact ⟨h.current,h.power⟩
  · rw [hother (by omega) (by omega),hs]
    exact ⟨h.current,h.power⟩
  · rw [hs,accept_current _ _ _ ht hpos]
    exact ⟨rfl,h.power⟩
  · rw [hother (by omega) (by omega),hs]
    exact ⟨h.current,h.power⟩

/-- The substitute supply reports what it accepted. -/
theorem faithful_substitute : Faithful powerSupply SubstituteKeeps where
  handled hround h := by
    cases hround with
    | idle => exact h
    | exchanged => exact h
    | declined dataType value _ => exact substituteKeeps_set h dataType value
    | written dataType value _ => exact substituteKeeps_set h dataType value
  accepts {app} dataType value _ ht := by
    change ¬(SubstituteSupply.setStatus dataType value app.powerSupply).1<0
    have hpos : ¬(1 : ℤ)<0 := by decide
    rcases SubstituteSupply.setStatus_cases dataType value app.powerSupply with
      ⟨_,hs⟩ | ⟨_,hs⟩ | ⟨_,hs⟩ | ⟨_,hs⟩ | ⟨h4,_⟩
    · rwa [hs]
    · rwa [hs]
    · rwa [hs]
    · rwa [hs]
    · omega
  current h := h.current
  power h := h.power
  bounded h := substitute_bounded h.bounds

variable (fp : FloatUnit)

/-- What the 200 A supply keeps of what it accepted under remote control. -/
structure SupplyKeeps (app : App PowerSupply200A) : Prop where
  /-- The supply holds what was accepted. -/
  refined : Refined app
  /-- The driver keeps the current. -/
  kept : app.powerSupply.currentSet=(commanded app.calls).current
  /-- The driver reports the current. -/
  reported : Supply200A.getLastSetCurrent fp app.powerSupply=(commanded app.calls).current
  /-- The average is in range. -/
  bounds : AverageBounds app.powerSupply

/-- A driver that was just built. -/
theorem supplyKeeps_init {reply : ℕ → Vector Byte 6}
    (hremote : ∀ k,bitAt (reply k) psStatusRemoteControlPos=true) :
    SupplyKeeps fp ⟨PowerSupply200A.init reply,[]⟩ where
  refined := refined_init hremote
  kept := rfl
  reported := by
    have hcoherent : Supply200A.getLastSetCurrent fp (PowerSupply200A.init reply)=
      SupplyCycle.setPoint (Vector.replicate 4 0#8) := coherent_init fp reply []
    have hzero : SupplyCycle.setPoint (Vector.replicate 4 0#8)=0#16 := by decide
    exact hcoherent.trans hzero
  bounds := ⟨le_rfl,Nat.cast_nonneg 200⟩

/-- A parameter that is accepted is kept. -/
theorem kept_setStatus {app : App PowerSupply200A} {dataType : Byte} {value : Word}
    (hkept : app.powerSupply.currentSet=(commanded app.calls).current)
    (hcode : ¬(Supply200A.setStatus dataType value app.powerSupply).1<0) :
    (App.setStatus (powerSupply200A fp) dataType value app).powerSupply.currentSet=
      (commanded (App.setStatus (powerSupply200A fp) dataType value app).calls).current := by
  have hcalls := commanded_append app.calls ⟨dataType,value,
    (Supply200A.setStatus dataType value app.powerSupply).1⟩
  change (Supply200A.setStatus dataType value app.powerSupply).2.currentSet=
    (commanded (app.calls++[⟨dataType,value,
      (Supply200A.setStatus dataType value app.powerSupply).1⟩])).current
  rw [hcalls]
  rcases setStatus_current hcode (commanded app.calls) with
    ⟨_,hset,_,haccept⟩ | ⟨_,hset,_,haccept⟩
  · exact hset.trans haccept.symm
  · exact hset.trans (hkept.trans haccept.symm)

/-- After a cycle under remote control the driver reports the current that it keeps. -/
theorem supplyKeeps_cycle {app : App PowerSupply200A}
    (hrefined : Refined (app.communicate (powerSupply200A fp)))
    (hremote : ∀ k,bitAt (app.powerSupply.psSpi.reply k) psStatusRemoteControlPos=true)
    (hkept : app.powerSupply.currentSet=(commanded app.calls).current) :
    SupplyKeeps fp (app.communicate (powerSupply200A fp)) where
  refined := hrefined
  kept := (cycle_currentSet fp app.powerSupply).trans hkept
  reported := by
    have hlast : Supply200A.isRemote (Supply200A.safeCommunicationWithPS fp app.powerSupply)=
        true := by
      have hfifth : SupplyCycle.remoteFifth app.powerSupply=true := hremote _
      rw [cycle_isRemote,remoteLast,hfifth,Bool.true_or]
    exact (if_pos hlast).trans ((cycle_currentSet fp app.powerSupply).trans hkept)
  bounds := by
    have haverage := SupplyCycle.safeCommunicationWithPS_eq fp app.powerSupply
    have hmem := averaged_mem fp app.powerSupply.psSpi.reply app.powerSupply.psSpi.sent.length
    change AverageBounds (Supply200A.safeCommunicationWithPS fp app.powerSupply)
    rw [haverage]
    split <;> exact hmem

/-- Under remote control the 200 A supply reports what it accepted. -/
theorem faithful_supply200A : Faithful (powerSupply200A fp) (SupplyKeeps fp) where
  handled {app app'} hround h := by
    have hrefined := refined_handled fp hround h.refined
    cases hround with
    | idle => exact h
    | exchanged => exact supplyKeeps_cycle fp hrefined h.refined.remote h.kept
    | declined dataType value hcode =>
      have hsame := setStatus_declined hcode
      have hcalls : commanded (app.calls++[⟨dataType,value,
          (Supply200A.setStatus dataType value app.powerSupply).1⟩])=commanded app.calls :=
        commanded_declined _ hcode
      have happ : App.setStatus (powerSupply200A fp) dataType value app=
          ⟨app.powerSupply,app.calls++[⟨dataType,value,
            (Supply200A.setStatus dataType value app.powerSupply).1⟩]⟩ :=
        congrArg (fun p => (⟨p,_⟩ : App PowerSupply200A)) hsame
      rw [happ] at hrefined ⊢
      exact ⟨hrefined,h.kept.trans (congrArg Setting.current hcalls).symm,
        h.reported.trans (congrArg Setting.current hcalls).symm,h.bounds⟩
    | written dataType value hcode =>
      refine supplyKeeps_cycle fp hrefined (fun k => ?_) (kept_setStatus fp h.kept hcode)
      exact (congrArg (fun spi : Supply200A.Spi => bitAt (spi.reply k) psStatusRemoteControlPos)
        (setStatus_spi dataType value app.powerSupply)).trans (h.refined.remote k)
  accepts {app} dataType value _ ht := by
    change ¬(Supply200A.setStatus dataType value app.powerSupply).1<0
    have hpos : ¬(1 : ℤ)<0 := by decide
    rw [Supply200A.setStatus]
    rcases ht with ht | ht
    · rw [ht]
      exact hpos
    · rw [ht]
      exact hpos
  current h := h.reported
  power {app} h := (BitFields.getBit_eq app.powerSupply.psBufOut _).trans
    (congrArg Setting.power h.refined.accepted).symm
  bounded h := supply200A_bounded fp h.bounds

/-! ### What the supply holds and what is read back -/

/-- What commands come to. -/
def settled (s : Setting) (commands : List Command) : Setting :=
  commands.foldl (fun s c => commandedBy c s) s

/-- A command for the current. -/
def setCurrentCommand : Command := ⟨.current,41137#16,16,Nat.le_of_ble_eq_true rfl,le_rfl,
  Nat.lt_of_lt_of_le (BitVec.isLt 41137#16) le_rfl⟩

/-- The command comes twice, after a read that was hit. -/
def setCurrentTries : List Passage :=
  [.hit readThree hitRead hitRead_home,.clear (commandItem setCurrentCommand),
    .clear (commandItem setCurrentCommand)]

/-- The command arrives, and the read means nothing. -/
theorem setCurrentTries_spec : Tries setCurrentCommand setCurrentTries where
  each p hp := by
    rcases List.mem_cons.mp hp with rfl | hp
    · exact .inr trivial
    · rcases List.mem_cons.mp hp with rfl | hp
      · exact .inl rfl
      · exact .inl (List.mem_singleton.mp hp)
  once := List.mem_cons_of_mem _ List.mem_cons_self

/-- The content of an answer with three registers. -/
theorem wordsBody_three (registers : Vector Word 125) : wordsBody 3#16 registers=
    [6#8]++wordBytes (registerAt registers 0)++wordBytes (registerAt registers 1)++
      wordBytes (registerAt registers 2) := by
  have hlen : registers.toList.length=125 := Vector.length_toList
  rw [wordsBody,registerAt,registerAt,registerAt]
  generalize registers.toList=words at hlen ⊢
  rcases words with _ | ⟨a,_ | ⟨b,_ | ⟨c,words⟩⟩⟩
  · cases hlen
  · cases hlen
  · cases hlen
  · rfl

/-- A read of the three registers, as an item of a session. -/
def readItem : Item := .request readThree readThree_own readThree_records

example : settled Setting.off [setCurrentCommand]=⟨41137#16,false⟩ := by decide

end CyclotronPico.RemoteControl
