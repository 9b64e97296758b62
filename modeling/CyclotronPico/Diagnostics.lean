import CyclotronPico.Endings
import CyclotronPico.LineErrors

/-!
# What the server reports

After a poll that failed the server hands a text about the error to its
controller. Which text is, round by round, a function of the bytes before
the next silence, except while the response to another unit is received; and
over a session each thing that went wrong is reported once, in order.
-/

namespace CyclotronPico.Diagnostics

open BitBuffer Effects Endings PicoController Nanomodbus NanomodbusServer Frames Reception Requests
  Responses Polls SupplyInterface ModbusServer Handling Service Exchanges Sessions LineErrors

/-! ### Texts -/

/-- The text about an error. -/
def nmbsStrerror : NmbsError → String
  | .firstByteTimeout => "received nothing"
  | .errorInvalidUnitId => "invalid unit ID received"
  | .errorInvalidTcpMbap => "invalid TCP MBAP received"
  | .errorCrc => "invalid CRC received"
  | .errorTransport => "transport error"
  | .errorTimeout => "timeout"
  | .errorInvalidResponse => "invalid response received"
  | .errorInvalidArgument => "invalid argument provided"
  | .errorNone => "no error"
  | .exceptionIllegalFunction => "modbus exception 1: illegal function"
  | .exceptionIllegalDataAddress => "modbus exception 2: illegal data address"
  | .exceptionIllegalDataValue => "modbus exception 3: data value"
  | .exceptionServerDeviceFailure => "modbus exception 4: server device failure"

/-- The running server and the texts its controller was handed. -/
structure Reporting (τ : Type) where
  /-- The server. -/
  server : Server τ
  /-- The texts so far, oldest first. -/
  texts : List String

variable {τ : Type} (overshift : Overshift) (ps : PowerSupplyInterface τ)

/-- Hand a text to the controller. -/
def onErrorWithMsg (s : Reporting τ) (errMsg : String) : Reporting τ :=
  {s with texts := s.texts++[errMsg]}

/-- Poll once; after an error, report it and talk to the supply. -/
def waitAndReport (s : Reporting τ) : Reporting τ :=
  match s.server.fault with
  | some _ => s
  | none =>
    match nmbsServerPoll (nmbsServer overshift ps) s.server.machine with
    | (.ok _,m) => {s with server := ⟨m,none⟩}
    | (.err e,m) =>
      let s := onErrorWithMsg s (nmbsStrerror e)
      {s with server := ⟨{m with app := m.app.communicate ps},none⟩}
    | (.fault x,m) => {s with server := ⟨m,some x⟩}

/-- The error of a poll, if it failed. -/
def pollError (m : Machine (App τ)) : Option NmbsError :=
  match (nmbsServerPoll (nmbsServer overshift ps) m).1 with
  | .ok _ => none
  | .err e => some e
  | .fault _ => none

/-- The error of a round; a server that left its arrays reports nothing. -/
def roundError (s : Server τ) : Option NmbsError :=
  if s.fault=none then pollError overshift ps s.machine else none

/-- Reporting does not change what the server does, and each round adds the
text about its error. -/
theorem waitAndReport_eq (s : Reporting τ) :
    waitAndReport overshift ps s=⟨waitAndHandleRequest overshift ps s.server,
      s.texts++(roundError overshift ps s.server).toList.map nmbsStrerror⟩ := by
  obtain ⟨⟨m,fault⟩,texts⟩ := s
  cases fault with
  | some x =>
    rw [waitAndReport,waitAndHandleRequest,roundError,if_neg (Option.some_ne_none x)]
    simp
  | none =>
    rw [waitAndReport,waitAndHandleRequest,roundError,if_pos rfl,pollError]
    rcases hp : nmbsServerPoll (nmbsServer overshift ps) m with ⟨o,t⟩
    rcases o with _ | e | x <;> simp [onErrorWithMsg]

/-- The errors of so many rounds. -/
def runErrors (s : Server τ) (n : ℕ) : List NmbsError :=
  (List.range n).filterMap fun k => roundError overshift ps (mainLoop overshift ps k s)

/-- A reporting run is a run of the server, with the texts about the errors of
its rounds in order. -/
theorem reporting_run (s : Reporting τ) (n : ℕ) :
    (waitAndReport overshift ps)^[n] s=⟨mainLoop overshift ps n s.server,
      s.texts++(runErrors overshift ps s.server n).map nmbsStrerror⟩ := by
  induction n with
  | zero => simp [mainLoop,runErrors]
  | succ n ih =>
    have hrange : runErrors overshift ps s.server (n+1)=runErrors overshift ps s.server n++
        (roundError overshift ps (mainLoop overshift ps n s.server)).toList := by
      rw [runErrors,List.range_succ,List.filterMap_append]
      cases h : roundError overshift ps (mainLoop overshift ps n s.server) <;>
        simp [h,runErrors]
    rw [Function.iterate_succ_apply',ih,waitAndReport_eq,mainLoop_succ,hrange,List.map_append,
      ←List.append_assoc]

/-! ### The errors of receiving -/

/-- A read returns no more than it was asked for. -/
theorem readUart_returned (count : ℕ) (first last : Bool) (l : Line) :
    0≤(readUart count first last l).2.1 ∧ (readUart count first last l).2.1≤count := by
  by_cases h : (arrivals l.rx).length<count
  · rw [readUart_short first last l h]
    dsimp only
    omega
  · have hlen : ((arrivals l.rx).take count).length=count := by
      rw [List.length_take]
      omega
    have hfull := readUart_full first last _ l (arrivals_split l.rx (not_lt.mp h))
    rw [hlen] at hfull
    rw [hfull]
    exact ⟨Int.natCast_nonneg count,Int.le_refl _⟩

variable {σ : Type}

/-- The errors of a message that does not come, or not whole. -/
def Unsealed (e : NmbsError) : Prop := e=.errorTimeout ∨ e=.errorCrc

/-- The errors for which a response to another unit is dropped. -/
def Wanting (e : NmbsError) : Prop :=
  Unsealed e ∨ e=.errorInvalidUnitId ∨ e=.errorInvalidResponse

/-- The errors with which dropping a response ends. -/
def Dropping (e : NmbsError) : Prop := Wanting e ∨ nmbsErrorIsException e=true

variable {E : NmbsError → Prop}

/-- Reading the buffer does not fail. -/
theorem readBuf_ends (i : ℕ) : Ends Anything E (readBuf (σ:=σ) i) := by
  refine ⟨fun _ => trivial,fun {s t e} he => ?_⟩
  rw [readBuf] at he
  split at he <;> cases he

/-- Reading the first bytes of the buffer does not fail. -/
theorem readBufUpTo_ends (count : ℕ) : Ends Anything E (readBufUpTo (σ:=σ) count) := by
  refine ⟨fun _ => trivial,fun {s t e} he => ?_⟩
  rw [readBufUpTo] at he
  split at he <;> cases he

/-- Writing the buffer does not fail. -/
theorem writeBuf_ends (i : ℕ) (b : Byte) : Ends Anything E (writeBuf (σ:=σ) i b) := by
  refine ⟨fun _ => trivial,fun {s t e} he => ?_⟩
  rw [writeBuf] at he
  split at he <;> cases he

/-- Storing bytes does not fail. -/
theorem storeBytes_ends (i : ℕ) (bs : List Byte) : Ends Anything E (storeBytes (σ:=σ) i bs) := by
  induction bs generalizing i with
  | nil => exact .pure trivial
  | cons b bs ih => exact .next (writeBuf_ends i b) fun _ => ih (i+1)

/-- Asking for the cursor does not fail. -/
theorem bufIdx_ends : Ends Anything E (bufIdx (σ:=σ)) := .gets fun _ => trivial

/-- Moving the cursor does not fail. -/
theorem discardN_ends (n : ℕ) : Ends Anything E (discardN (σ:=σ) n) := .modify

/-- Taking a byte does not fail. -/
theorem get1_ends : Ends Anything E (get1 (σ:=σ)) :=
  .next bufIdx_ends fun i => .next (readBuf_ends i) fun _ => .next (discardN_ends 1) fun _ =>
    .pure trivial

/-- Taking a word does not fail. -/
theorem get2_ends : Ends Anything E (get2 (σ:=σ)) :=
  .next bufIdx_ends fun i => .next (readBuf_ends i) fun _ => .next (readBuf_ends (i+1)) fun _ =>
    .next (discardN_ends 2) fun _ => .pure trivial

/-- Skipping bytes does not fail. -/
theorem getN_ends (n : ℕ) : Ends Anything E (getN (σ:=σ) n) :=
  .next bufIdx_ends fun _ => .next (discardN_ends n) fun _ => .pure trivial

/-- The transport does not fail and returns no more than it was asked for. -/
theorem platformRead_ends (i count : ℕ) (first last : Bool) :
    Ends (fun ret => 0≤ret ∧ ret≤(count : ℤ)) E (platformRead (σ:=σ) i count first last) :=
  .bind (.gets fun s => readUart_returned count first last s.line) fun read hread =>
    .next .modify fun _ => .next (storeBytes_ends i read.1) fun _ => .pure hread

/-- Receiving bytes fails at a silence only. -/
theorem recvBytes_ends (count : ℕ) (first last : Bool) :
    Ends Anything (fun e => e=.errorTimeout) (recvBytes (σ:=σ) count first last) := by
  refine .next bufIdx_ends fun i => .bind (platformRead_ends i count first last) fun ret hret => ?_
  refine .ite (fun _ => .pure trivial) fun hne => .ite (fun _ => ?_) fun hge => ?_
  · exact .ite (fun hneg => by omega) fun _ => .fail rfl
  · omega

/-- Receiving the checksum fails at a silence, or because it is wrong. -/
theorem recvMsgFooter_ends : Ends Anything Unsealed (recvMsgFooter (σ:=σ)) := by
  refine .next bufIdx_ends fun i => .next (readBufUpTo_ends i) fun data => ?_
  refine .next ((recvBytes_ends 2 false true).mono (fun _ h => h) fun _ => .inl) fun _ =>
    .next get2_ends fun recvCrc => ?_
  exact .ite (fun _ => .fail (.inr rfl)) fun _ => .pure trivial

/-- Receiving a header reports a silence, and nothing else. -/
theorem recvMsgHeader_ends :
    Ends (fun r => r.2=.errorNone ∨ r.2=.errorTimeout) E (recvMsgHeader (σ:=σ)) := by
  have hbytes : ∀ first,Ends (fun r : Except NmbsError Unit => ∀ e,r=.error e → e=.errorTimeout)
      E (attempt (recvBytes (σ:=σ) 1 first false)) := fun first =>
    .attempt (recvBytes_ends 1 first false) (fun _ _ _ h => nomatch h)
      fun e he e' h => by
        cases h
        exact he
  refine .next .modify fun _ => .bind (hbytes true) fun r hr => ?_
  cases r with
  | error e => exact .pure (.inr (hr e rfl))
  | ok a =>
    refine .next get1_ends fun u => .next .modify fun _ => .bind (hbytes false) fun r hr => ?_
    cases r with
    | error e => exact .pure (.inr (hr e rfl))
    | ok a => exact .next get1_ends fun fc => .next .modify fun _ => .pure (.inl rfl)

/-! ### The errors of dropping a response -/

/-- Receiving bytes of a response. -/
theorem recv_drops (count : ℕ) : Ends Anything Dropping (recv (σ:=σ) count) :=
  (recvBytes_ends count false false).mono (fun _ h => h) fun _ h => .inl (.inl (.inl h))

/-- Receiving the checksum of a response. -/
theorem recvMsgFooter_drops : Ends Anything Dropping (recvMsgFooter (σ:=σ)) :=
  recvMsgFooter_ends.mono (fun _ h => h) fun _ h => .inl (.inl h)

/-- A received exception code stands for an exception, or for no response. -/
theorem receivedException_drops (exception : Byte) : Dropping (receivedException exception) := by
  rw [receivedException]
  split
  · exact .inl (.inr (.inr rfl))
  · split <;> exact .inr rfl

/-- Receiving the code of an exception response. -/
theorem recvException_ends : Ends Anything Dropping (recvException (σ:=σ)) :=
  .next (recv_drops 1) fun _ => .next get1_ends fun exception => .next recvMsgFooter_drops fun _ =>
    .fail (receivedException_drops exception)

/-- Receiving the header of a response. -/
theorem recvResHeader_ends : Ends Anything Dropping (recvResHeader (σ:=σ)) := by
  refine .next (.gets fun _ => trivial) fun reqUnitId => .next (.gets fun _ => trivial) fun reqFc =>
    .bind recvMsgHeader_ends fun header hheader => ?_
  refine .ite (fun hne => .fail (.inl (.inl (.inl (hheader.resolve_left hne))))) fun _ =>
    .next (.gets fun _ => trivial) fun resUnitId => ?_
  refine .ite (fun _ => .fail (.inl (.inr (.inl rfl)))) fun _ =>
    .next (.gets fun _ => trivial) fun resFc => ?_
  refine .ite (fun _ => ?_) fun _ => .pure trivial
  exact .ite (fun _ => recvException_ends) fun _ => .fail (.inl (.inr (.inr rfl)))

/-- Dropping bytes does not fail. -/
theorem dropBytes_ends (n : ℕ) : Ends Anything E (dropBytes (σ:=σ) n) := by
  induction n with
  | zero => exact .pure trivial
  | succ n ih => exact .next get1_ends fun _ => ih

/-- Dropping registers does not fail. -/
theorem dropRegs_ends (n : ℕ) : Ends Anything E (dropRegs (σ:=σ) n) := by
  induction n with
  | zero => exact .pure trivial
  | succ n ih => exact .next get2_ends fun _ => ih

/-- Receiving a response that starts with a byte count. -/
theorem countedRes_ends {rest : Byte → Nmbs σ Unit}
    (h : ∀ count,Ends Anything Dropping (rest count)) :
    Ends Anything Dropping (do
      recvResHeader
      recv 1
      let count ← get1
      recv count.toNat
      rest count) :=
  .next recvResHeader_ends fun _ => .next (recv_drops 1) fun _ => .next get1_ends fun count =>
    .next (recv_drops count.toNat) fun _ => h count

/-- Receiving a response that repeats two words. -/
theorem recvEchoRes_ends (first second : Word) :
    Ends Anything Dropping (recvEchoRes (σ:=σ) first second) := by
  refine .next recvResHeader_ends fun _ => .next (recv_drops 4) fun _ => .next get2_ends fun _ =>
    .next get2_ends fun _ => .next recvMsgFooter_drops fun _ => ?_
  refine .ite (fun _ => .fail (.inl (.inr (.inr rfl)))) fun _ => ?_
  exact .ite (fun _ => .fail (.inl (.inr (.inr rfl)))) fun _ => .pure trivial

/-- Dropping the response to a request. -/
theorem dropResponse_ends (fc : Byte) (frame : List Byte) :
    Ends Anything Dropping (dropResponse (σ:=σ) fc frame) := by
  have hdiscrete : Ends Anything Dropping (recvReadDiscreteRes (σ:=σ)) :=
    countedRes_ends fun count => .next (dropBytes_ends count.toNat) fun _ => recvMsgFooter_drops
  have hregisters : ∀ quantity,Ends Anything Dropping (recvReadRegistersRes (σ:=σ) quantity) :=
    fun quantity => countedRes_ends fun count => .next (dropRegs_ends (count.toNat/2)) fun _ =>
      .next recvMsgFooter_drops fun _ =>
        .ite (fun _ => .fail (.inl (.inr (.inr rfl)))) fun _ => .pure trivial
  have hread : Ends Anything Dropping (recvReadFileRecordRes (σ:=σ)) :=
    countedRes_ends fun _ => .next get1_ends fun _ => .next get1_ends fun _ =>
      .next (getN_ends _) fun _ => recvMsgFooter_drops
  have hwrite : Ends Anything Dropping (recvWriteFileRecordRes (σ:=σ)) :=
    countedRes_ends fun _ => .next get1_ends fun _ => .next get2_ends fun _ =>
      .next get2_ends fun _ => .next get2_ends fun _ => .next (getN_ends _) fun _ =>
        recvMsgFooter_drops
  rw [dropResponse]
  split
  · exact hdiscrete
  · exact hdiscrete
  · exact hregisters _
  · exact hregisters _
  · exact recvEchoRes_ends _ _
  · exact recvEchoRes_ends _ _
  · exact recvEchoRes_ends _ _
  · exact hread
  · exact hwrite
  · exact recvEchoRes_ends _ _

/-- What the poll makes of the error of a handler: the same error, if it is one. -/
theorem afterError_ends (err : NmbsError) :
    Ends Anything (fun e => e=err ∧ nmbsErrorIsException err=false) (afterError (σ:=σ) err) := by
  refine .ite (fun h => .next (.gets fun _ => trivial) fun other => ?_) fun _ => .pure trivial
  refine .ite (fun _ => ?_) fun _ => .fail ⟨rfl,h.2⟩
  exact .bind (platformRead_ends 0 260 false false) fun _ _ => .fail ⟨rfl,h.2⟩

/-! ### One round -/

/-- The error of receiving a request. -/
def receiptError : Receipt → Option NmbsError
  | .timeout => some .errorTimeout
  | .badCrc => some .errorCrc
  | .overrun | .frame => none

/-- The error of a poll, given the bytes before the next silence, unless they
begin with a whole request for another unit. -/
def diagnosis (bs : List Byte) : Option NmbsError :=
  match bs with
  | [] => some .firstByteTimeout
  | [_] => some .errorTimeout
  | _::fc::_ =>
    match requestLayout fc with
    | none => none
    | some lay => receiptError (lay.receive bs)

/-- The error of bytes that begin with the header of a request. -/
theorem diagnosis_request {bs as : List Byte} {u fc : Byte} {lay : Layout} (hbs : bs=u::fc::as)
    (hl : requestLayout fc=some lay) : diagnosis bs=receiptError (lay.receive bs) := by
  rw [hbs,diagnosis,hl]

/-- The bytes begin with a whole request for another unit: what follows is
received as the response of that unit. -/
def Overheard (bs : List Byte) : Prop :=
  ∃ u fc as lay,bs=u::fc::as ∧ requestLayout fc=some lay ∧ Foreign u ∧ lay.receive bs=.frame

/-- What a round may report: the error that the bytes before the next silence
determine, or, while the response of another unit is received, none or one for
which it is dropped; and nothing once the server has left its arrays. -/
structure Diagnosed (s : Server τ) (e : Option NmbsError) : Prop where
  /-- The server has left its arrays. -/
  stopped : s.fault≠none → e=none
  /-- No response is received. -/
  determined : s.fault=none → ¬Overheard (arrivals s.machine.line.rx) →
    e=diagnosis (arrivals s.machine.line.rx)
  /-- A response is received. -/
  overheard : s.fault=none → Overheard (arrivals s.machine.line.rx) → ∀ x∈e,Wanting x

/-- A poll over a line that is silent before a header is complete. -/
theorem pollError_short (m : Machine (App τ)) (h : (arrivals m.line.rx).length<2) :
    pollError overshift ps m=
      some (if (arrivals m.line.rx).length=1 then .errorTimeout else .firstByteTimeout) := by
  obtain ⟨t,ht,-⟩ := recvMsgHeader_short (cleared m) h
  have hreset : msgStateReset m=(.ok (),cleared m) := rfl
  have hline : (cleared m).line.rx=m.line.rx := rfl
  rw [hline] at ht
  have hheader : recvReqHeader (nmbsServer overshift ps) (cleared m)=
      (.ok (decide ((arrivals m.line.rx).length=1),.errorTimeout),t) := by
    rw [recvReqHeader,bind_ok ht]
    exact congrFun (if_pos (by simp)) t
  rw [pollError,nmbsServerPoll,bind_ok hreset,bind_ok hheader,if_pos (by simp)]
  by_cases hone : (arrivals m.line.rx).length=1
  · simp [hone]
  · simp [hone]

/-- A poll over a request that is cut short. -/
theorem pollError_starved (m : Machine (App τ)) {u fc : Byte} {lay : Layout}
    (ho : Opens m u fc lay) (hr : lay.receive (arrivals m.line.rx)=.timeout) :
    pollError overshift ps m=some .errorTimeout := by
  obtain ⟨⟨as,has⟩,hl⟩ := ho
  obtain ⟨-,hrest⟩ := arrivals_header has
  have hreceived := handlerOf_received (nmbsServer overshift ps)
    (tagged m u fc (decide (u=0#8)) (decide (Foreign u))) u fc (m.line.rx.drop 2) hl
  unfold Received at hreceived
  rw [hrest,←has] at hreceived
  dsimp only at hreceived
  rw [hr] at hreceived
  obtain ⟨t,ht,-⟩ := hreceived
  rw [pollError,poll_header overshift ps m has ht]
  dsimp only
  rw [afterError_timeout]

/-- A poll over a request for another unit. -/
theorem pollError_foreign (m : Machine (App τ)) {u fc : Byte} {as : List Byte} {lay : Layout}
    (hbs : arrivals m.line.rx=u::fc::as) (hl : requestLayout fc=some lay) (hu : Foreign u)
    (hr : lay.receive (arrivals m.line.rx)=.frame) : ∀ x∈pollError overshift ps m,Wanting x := by
  intro x hx
  have hhandler := handler_foreign overshift ps m hbs hl hu hr
  rcases hrun : dropResponse fc (frameOf m lay) (gotten m u fc lay) with ⟨o,t⟩
  rw [hrun] at hhandler
  rw [pollError,poll_header overshift ps m hbs hhandler] at hx
  cases o with
  | ok a => cases hx
  | fault y => cases hx
  | err e =>
    dsimp only at hx
    rcases hafter : afterError e t with ⟨o,v⟩
    rw [hafter] at hx
    cases o with
    | ok a => cases hx
    | fault y => cases hx
    | err e' =>
      obtain rfl : e'=x := Option.some.inj hx
      obtain ⟨rfl,hplain⟩ := (afterError_ends e).error hafter
      refine ((dropResponse_ends fc _).error hrun).resolve_right fun hexception => ?_
      exact Bool.noConfusion (hexception.symm.trans hplain)

/-- A poll that does not receive a response. -/
theorem pollError_exact (m : Machine (App τ)) (h : ¬Overheard (arrivals m.line.rx)) :
    pollError overshift ps m=diagnosis (arrivals m.line.rx) := by
  have hexit := poll_exit overshift ps m
  match hbs : arrivals m.line.rx with
  | [] =>
    rw [pollError_short overshift ps m (by rw [hbs]; simp),hbs]
    rfl
  | [u] =>
    rw [pollError_short overshift ps m (by rw [hbs]; simp),hbs]
    rfl
  | u::fc::as =>
    rcases hp : nmbsServerPoll (nmbsServer overshift ps) m with ⟨o,t⟩
    rw [hp] at hexit
    rw [hbs] at h
    rw [pollError,hp]
    cases hl : requestLayout fc with
    | none =>
      cases hexit with
      | short e t hshort hs =>
        rw [hbs,List.length_cons,List.length_cons] at hshort
        omega
      | unknown t hbs' hl' happ hline => simp [diagnosis,hl]
      | request ho hr =>
        obtain ⟨⟨as',has⟩,hsome⟩ := ho
        rw [hbs] at has
        cases has
        cases hl.symm.trans hsome
    | some lay =>
      rw [diagnosis_request rfl hl,←hbs]
      cases exit_opens overshift ps hexit ⟨⟨as,hbs⟩,hl⟩ with
      | starved e t hr hs =>
        have hshort := pollError_starved overshift ps m ⟨⟨as,hbs⟩,hl⟩ hr
        rw [pollError,hp] at hshort
        rw [hr]
        exact hshort
      | overrun x t hr hk => rw [hr,receiptError]
      | badCrc t hu hr happ hline => rw [hr,receiptError]
      | flushed t hu hr happ hline => rw [hr,receiptError]
      | leaves x t hu hr hleaves hk => exact absurd ⟨u,fc,as,lay,rfl,hl,hu,hbs ▸ hr⟩ h
      | dropped o t hu hr hleaves hx happ hline =>
        exact absurd ⟨u,fc,as,lay,rfl,hl,hu,hbs ▸ hr⟩ h
      | answered r hu hr ha =>
        have hreturns := answer_returns overshift ps ha
        rw [hr,receiptError]
        cases o with
        | ok a => rfl
        | err e => exact absurd rfl (hreturns e)
        | fault x => rfl

/-- Every round reports what it may. -/
theorem round_diagnosed (s : Server τ) : Diagnosed s (roundError overshift ps s) where
  stopped h := by
    rw [roundError,if_neg h]
  determined h hplain := by
    rw [roundError,if_pos h,pollError_exact overshift ps s.machine hplain]
  overheard h hforeign := by
    obtain ⟨u,fc,as,lay,hbs,hl,hu,hr⟩ := hforeign
    rw [roundError,if_pos h]
    exact pollError_foreign overshift ps s.machine hbs hl hu hr

/-- The error that bytes determine is that of a message that does not come. -/
theorem diagnosis_mem {bs : List Byte} {e : NmbsError} (h : diagnosis bs=some e) :
    e=.firstByteTimeout ∨ Unsealed e := by
  unfold diagnosis at h
  split at h
  · exact .inl (Option.some.inj h).symm
  · exact .inr (.inl (Option.some.inj h).symm)
  · split at h
    · cases h
    · unfold receiptError at h
      split at h
      · exact .inr (.inl (Option.some.inj h).symm)
      · exact .inr (.inr (Option.some.inj h).symm)
      · cases h
      · cases h

/-- No round reports an exception, or an error of the transport. -/
theorem Diagnosed.mem {s : Server τ} {e : Option NmbsError} (h : Diagnosed s e) :
    ∀ x∈e,x=.firstByteTimeout ∨ Wanting x := by
  intro x hx
  by_cases hs : s.fault=none
  · by_cases ho : Overheard (arrivals s.machine.line.rx)
    · exact .inr (h.overheard hs ho x hx)
    · rw [h.determined hs ho] at hx
      exact (diagnosis_mem hx).imp_right .inl
  · rw [h.stopped hs] at hx
    cases hx

/-! ### Sessions -/

/-- The error of a round over an item. -/
def itemError : Item → Option NmbsError
  | .request _ _ _ | .exchange _ _ _ _ _ | .unknown _ _ _ => none
  | .garbled _ _ _ _ _ _ _ _ => some .errorCrc
  | .lost bs _ => diagnosis bs

/-- The error of a round over what becomes of a message: what is hit has a
wrong checksum. -/
def passageError : Passage → Option NmbsError
  | .clear item => itemError item
  | .hit _ _ _ | .astray _ _ _ => some .errorCrc

/-- Whether a response follows is determined by the header and the receipt. -/
theorem overheard_iff {bs as : List Byte} {u fc : Byte} {lay : Layout} (hbs : bs=u::fc::as)
    (hl : requestLayout fc=some lay) : Overheard bs ↔ Foreign u ∧ lay.receive bs=.frame := by
  constructor
  · rintro ⟨u',fc',as',lay',hbs',hl',hu,hr⟩
    cases hbs.symm.trans hbs'
    cases hl.symm.trans hl'
    exact ⟨hu,hr⟩
  · rintro ⟨hu,hr⟩
    exact ⟨u,fc,as,lay,hbs,hl,hu,hr⟩

/-- Lost bytes are no whole request for another unit. -/
theorem lost_alone {bs : List Byte} (h : Lost bs) : ¬Overheard bs := by
  cases h with
  | short h =>
    rintro ⟨u,fc,as,lay,rfl,-⟩
    rw [List.length_cons,List.length_cons] at h
    omega
  | cut u fc as lay hbs hl hr =>
    rw [overheard_iff hbs hl,hr]
    exact fun h => nomatch h.2
  | flushed u fc as lay hbs hl hu hr hfew =>
    rw [overheard_iff hbs hl,hr]
    exact fun h => nomatch h.2

/-- A round over an item has the error of the item. -/
theorem round_item (m : Machine (App τ)) (item : Item) {rest : List (Option Byte)}
    (hrx : m.line.rx=item.line++rest) : roundError overshift ps ⟨m,none⟩=itemError item := by
  rw [roundError,if_pos rfl]
  dsimp only
  cases item with
  | request r hown hrecords =>
    have harr : arrivals m.line.rx=r.frame++arrivals rest := by
      rw [hrx,Item.line,arrivals_append]
    rw [pollError_exact,harr,diagnosis_request (r.opens _) r.known,r.received]
    · rfl
    · rw [harr,overheard_iff (r.opens _) r.known]
      rintro ⟨⟨hzero,hone⟩,-⟩
      exact hown.elim hzero hone
  | exchange r hother hplain response hd =>
    obtain ⟨t,ht,-⟩ := poll_exchange overshift ps m r hother hplain hd hrx
    rw [pollError,ht]
    rfl
  | garbled u fc as lay hl hu hr hspan =>
    have harr : arrivals m.line.rx=u::fc::as++arrivals rest := by
      rw [hrx,Item.line,arrivals_append]
    obtain ⟨-,hbad⟩ := badCrc_append (sound_request hl) hspan hr (arrivals rest)
    rw [pollError_exact,harr,diagnosis_request (List.cons_append ..) hl,hbad]
    · rfl
    · rw [harr,overheard_iff (List.cons_append ..) hl]
      exact fun h => hu h.1
  | unknown u fc hl =>
    have harr : arrivals m.line.rx=u::fc::arrivals rest := by
      rw [hrx]
      rfl
    rw [pollError_exact,harr]
    · simp [diagnosis,hl,itemError]
    · rw [harr]
      rintro ⟨u',fc',as',lay,hbs,hl',-⟩
      cases hbs
      cases hl.symm.trans hl'
  | lost bs h =>
    have harr : arrivals m.line.rx=bs := by
      rw [hrx,Item.line,List.append_assoc,arrivals_append,List.singleton_append,arrivals,
        List.append_nil]
    rw [pollError_exact,harr]
    · rfl
    · rw [harr]
      exact lost_alone h

/-- The error of a passage is that of the item that arrives. -/
theorem itemError_item (p : Passage) : itemError p.item=passageError p := by
  cases p with
  | clear item => rfl
  | hit r h hu => rfl
  | astray r h hu =>
    rw [Passage.item,itemError,diagnosis_request h.opens.symm r.known,h.receive]
    rfl

end CyclotronPico.Diagnostics
