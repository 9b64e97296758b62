import CyclotronPico.Responses
import CyclotronPico.ServerAnswers

/-!
# How a poll ends

One poll of the server, from any state and over any line, ends in one of
nine ways. Which one, and what it takes from the line, is a function of the
bytes before the next silence, except that a response to another unit may be
checked against old bytes of the buffer.
-/

namespace CyclotronPico.Polls

open BitBuffer Effects PicoController Nanomodbus NanomodbusServer Frames Reception Requests
  Answers ServerAnswers Responses SupplyInterface ModbusServer

variable {τ : Type} (overshift : Overshift) (ps : PowerSupplyInterface τ)

/-- The line opens with the header of a request that has a layout. -/
def Opens (s : Machine (App τ)) (u fc : Byte) (lay : Layout) : Prop :=
  (∃ as,arrivals s.line.rx=u::fc::as) ∧ requestLayout fc=some lay

/-- A request goes to another unit. -/
def Foreign (u : Byte) : Prop := u≠0#8 ∧ u≠1#8

instance (u : Byte) : Decidable (Foreign u) := inferInstanceAs (Decidable (u≠0#8 ∧ u≠1#8))

/-- The library with a request received. -/
def gotten (s : Machine (App τ)) (u fc : Byte) (lay : Layout) : Machine (App τ) :=
  reading (tagged s u fc (decide (u=0#8)) (decide (Foreign u))) (lay.kept (arrivals s.line.rx)) []
    (s.line.rx.drop (lay.span (arrivals s.line.rx))) false

/-- The bytes of the request that was received. -/
def frameOf (s : Machine (App τ)) (lay : Layout) : List Byte :=
  (arrivals s.line.rx).take (lay.span (arrivals s.line.rx))

/-- The buffer with a request in it. -/
theorem gotten_buf (s : Machine (App τ)) (u fc : Byte) (lay : Layout) :
    (gotten s u fc lay).msg.buf=overlay s.msg.buf (lay.kept (arrivals s.line.rx)) :=
  congrArg (overlay s.msg.buf) (List.append_nil _)

/-- The size of the file records in a request. -/
theorem frameOf_size (s : Machine (App τ)) :
    byteAt (frameOf s recordsLayout) 2=byteAt (arrivals s.line.rx) 2 := by
  have hspan : 2 < recordsLayout.span (arrivals s.line.rx) := by
    have hhead : recordsLayout.head=3 := rfl
    rw [Layout.span]
    omega
  rw [byteAt,byteAt,frameOf,List.getD_eq_getElem?_getD,List.getD_eq_getElem?_getD,
    List.getElem?_take_of_lt hspan]

/-- Whether the file records of a request lead out of the buffer. -/
theorem recordsLeave_gotten {s : Machine (App τ)} {u fc : Byte} {lay : Layout}
    (hl : requestLayout fc=some lay) (hfc : fc.toNat=21) :
    RecordsLeave (gotten s u fc lay).msg.buf (byteAt (frameOf s lay) 2) ↔
      RecordsLeave (overlay s.msg.buf (lay.kept (arrivals s.line.rx)))
        (byteAt (arrivals s.line.rx) 2) := by
  obtain rfl := Option.some.inj (hl.symm.trans (records_layout (.inr hfc)))
  rw [gotten_buf,frameOf_size]

/-- The bytes that flushing takes from a line on which `n` more arrive. -/
def flushTaken (n : ℕ) : Option ℕ := if n<260 then none else some 260

/-- The bytes that a poll takes from the line, given those before the next
silence; none when the poll meets the silence. -/
def pollTaken (bs : List Byte) : Option ℕ :=
  match bs with
  | u::fc::_ =>
    match requestLayout fc with
    | none => some 2
    | some lay =>
      match lay.receive bs with
      | .timeout | .overrun => none
      | .badCrc =>
        if Foreign u then
          (flushTaken (bs.drop (lay.span bs)).length).map fun n => lay.span bs+n
        else some (lay.span bs)
      | .frame =>
        if Foreign u then
          (responseTaken (responseLayout fc) u fc (bs.drop (lay.span bs))).map fun n =>
            lay.span bs+n
        else some (lay.span bs)
  | _ => none

/-- How a poll ends whose line opens with the header of a request. -/
inductive RequestExit (s : Machine (App τ)) (u fc : Byte) (lay : Layout) :
    Outcome NmbsError Fault Unit×Machine (App τ) → Prop where
  /-- A silence comes before the request is complete. -/
  | starved (e : NmbsError) (t : Machine (App τ))
      (hr : lay.receive (arrivals s.line.rx)=.timeout) (hs : Starved s s.line.rx t) :
      RequestExit s u fc lay (.err e,t)
  /-- The request leaves the arrays. -/
  | overrun (x : Fault) (t : Machine (App τ))
      (hr : lay.receive (arrivals s.line.rx)=.overrun) (hk : Kept s t) :
      RequestExit s u fc lay (.fault x,t)
  /-- The checksum of a request for this server is wrong. -/
  | badCrc (t : Machine (App τ)) (hu : ¬Foreign u)
      (hr : lay.receive (arrivals s.line.rx)=.badCrc) (happ : t.app=s.app)
      (hline : t.line=⟨s.line.rx.drop (lay.span (arrivals s.line.rx)),s.line.tx,false⟩) :
      RequestExit s u fc lay (.err .errorCrc,t)
  /-- The checksum of a request for another unit is wrong: the line is flushed. -/
  | flushed (t : Machine (App τ)) (hu : Foreign u)
      (hr : lay.receive (arrivals s.line.rx)=.badCrc) (happ : t.app=s.app)
      (hline : t.line=⟨lineAfter (s.line.rx.drop (lay.span (arrivals s.line.rx)))
        (flushTaken (arrivals (s.line.rx.drop (lay.span (arrivals s.line.rx)))).length),
        s.line.tx,false⟩) : RequestExit s u fc lay (.err .errorCrc,t)
  /-- The response to a request for another unit leaves the buffer. -/
  | leaves (x : Fault) (t : Machine (App τ)) (hu : Foreign u)
      (hr : lay.receive (arrivals s.line.rx)=.frame) (hleaves : Leaves (gotten s u fc lay))
      (hk : Kept s t) : RequestExit s u fc lay (.fault x,t)
  /-- The response to a request for another unit is dropped. -/
  | dropped (o : Outcome NmbsError Fault Unit) (t : Machine (App τ)) (hu : Foreign u)
      (hr : lay.receive (arrivals s.line.rx)=.frame) (hleaves : ¬Leaves (gotten s u fc lay))
      (hx : ∀ x,o≠.fault x) (happ : t.app=s.app)
      (hline : t.line=⟨lineAfter (gotten s u fc lay).line.rx (responseTaken (responseLayout fc) u fc
          (arrivals (gotten s u fc lay).line.rx)),s.line.tx,
        decide (responseTaken (responseLayout fc) u fc
          (arrivals (gotten s u fc lay).line.rx)=some 2)⟩) : RequestExit s u fc lay (o,t)
  /-- A request for this server is answered. -/
  | answered (r : Outcome NmbsError Fault Unit×Machine (App τ)) (hu : ¬Foreign u)
      (hr : lay.receive (arrivals s.line.rx)=.frame)
      (ha : Answer overshift ps fc (frameOf s lay) (gotten s u fc lay) r) :
      RequestExit s u fc lay r

/-- How a poll ends. -/
inductive Exit (s : Machine (App τ)) : Outcome NmbsError Fault Unit×Machine (App τ) → Prop where
  /-- A silence comes before a header is complete. -/
  | short (e : NmbsError) (t : Machine (App τ)) (h : (arrivals s.line.rx).length<2)
      (hs : Starved s s.line.rx t) : Exit s (.err e,t)
  /-- The function code has no handler: nothing follows the header. -/
  | unknown {u fc : Byte} {as : List Byte} (t : Machine (App τ))
      (hbs : arrivals s.line.rx=u::fc::as) (hl : requestLayout fc=none) (happ : t.app=s.app)
      (hline : t.line=⟨s.line.rx.drop 2,s.line.tx,true⟩) : Exit s (.ok (),t)
  /-- A request is received, or not. -/
  | request {u fc : Byte} {lay : Layout} {r : Outcome NmbsError Fault Unit×Machine (App τ)}
      (ho : Opens s u fc lay) (h : RequestExit overshift ps s u fc lay r) : Exit s r

/-! ### The header -/

/-- The state in which a poll starts to receive. -/
def cleared (s : Machine (App τ)) : Machine (App τ) :=
  {tagged s 0#8 0#8 false false with msg.bufIdx := 0}

/-- A request's header that comes says whom the request is for. -/
theorem recvReqHeader_full (s : Machine (App τ)) {u fc : Byte} {as : List Byte}
    (h : arrivals s.line.rx=u::fc::as) :
    recvReqHeader (nmbsServer overshift ps) (cleared s)=(.ok (true,.errorNone),
      reading (tagged s u fc (decide (u=0#8)) (decide (Foreign u))) [u,fc] []
        (s.line.rx.drop 2) true) := by
  have hheader : recvMsgHeader (cleared s)=(.ok (true,.errorNone),
      reading (tagged s u fc false false) [u,fc] [] (s.line.rx.drop 2) true) :=
    recvMsgHeader_full (cleared s) h
  have hunit : unitId (reading (tagged s u fc false false) [u,fc] [] (s.line.rx.drop 2) true)=
      (.ok u,reading (tagged s u fc false false) [u,fc] [] (s.line.rx.drop 2) true) := rfl
  rw [recvReqHeader,bind_ok hheader,if_neg (not_not.mpr rfl)]
  refine (bind_ok hunit).trans ?_
  by_cases hu : u=0#8
  · have hf : decide (Foreign u)=false := decide_eq_false (fun hf => hf.1 hu)
    rw [hf,decide_eq_true hu]
    exact congrFun (if_pos (hu : u=nmbsBroadcastAddress)) _
  · have hf : decide (Foreign u)=decide (u≠1#8) := decide_eq_decide.mpr (and_iff_right hu)
    rw [hf,decide_eq_false hu]
    exact congrFun (if_neg (hu : ¬u=nmbsBroadcastAddress)) _

/-- A header cut short ends the poll. -/
theorem poll_short (s : Machine (App τ)) (h : (arrivals s.line.rx).length<2) :
    ∃ e t,nmbsServerPoll (nmbsServer overshift ps) s=(.err e,t) ∧ Starved s s.line.rx t := by
  obtain ⟨t,ht,hs⟩ := recvMsgHeader_short (cleared s) h
  have hreset : msgStateReset s=(.ok (),cleared s) := rfl
  have hheader : recvReqHeader (nmbsServer overshift ps) (cleared s)=
      (.ok (decide ((arrivals s.line.rx).length=1),.errorTimeout),t) := by
    rw [recvReqHeader,bind_ok ht]
    exact congrFun (if_pos (by simp)) t
  rw [nmbsServerPoll,bind_ok hreset,bind_ok hheader,if_pos (by simp)]
  split
  · exact ⟨_,t,rfl,hs⟩
  · exact ⟨_,t,rfl,hs⟩

/-- With its header received, a poll is a call of the handler. -/
theorem poll_header (s : Machine (App τ)) {u fc : Byte} {as : List Byte}
    (h : arrivals s.line.rx=u::fc::as) {o : Outcome NmbsError Fault Unit}
    {t : Machine (App τ)}
    (hh : handlerOf (nmbsServer overshift ps) fc.toNat
      (reading (tagged s u fc (decide (u=0#8)) (decide (Foreign u))) [u,fc] []
        (s.line.rx.drop 2) true)=(o,t)) :
    nmbsServerPoll (nmbsServer overshift ps) s=
      match o with
      | .ok () => (.ok (),t)
      | .err e => afterError e t
      | .fault x => (.fault x,t) := by
  have hreset : msgStateReset s=(.ok (),cleared s) := rfl
  have hfc : handleReqFc (nmbsServer overshift ps)
      (reading (tagged s u fc (decide (u=0#8)) (decide (Foreign u))) [u,fc] []
        (s.line.rx.drop 2) true)=(o,t) := hh
  rw [nmbsServerPoll,bind_ok hreset,bind_ok (recvReqHeader_full overshift ps s h),
    if_neg (not_not.mpr rfl)]
  cases o with
  | ok a => exact bind_ok (attempt_ok hfc)
  | err e => exact bind_ok (attempt_err hfc)
  | fault x => exact bind_fault (attempt_fault hfc)

/-! ### After the handler -/

/-- Bytes that fit the buffer are stored; nothing else is touched. -/
theorem storeBytes_inside (s : Machine (App τ)) {i : ℕ} (zs : List Byte) (h : i+zs.length≤260) :
    ∃ t,storeBytes i zs s=(.ok (),t) ∧ t.app=s.app ∧ t.line=s.line := by
  induction zs generalizing i s with
  | nil => exact ⟨s,rfl,rfl,rfl⟩
  | cons b zs ih =>
    rw [List.length_cons] at h
    have hi : i<260 := by omega
    have hw : writeBuf i b s=(.ok (),{s with msg.buf := s.msg.buf.set i b}) := dif_pos hi
    obtain ⟨t,ht,happ,hline⟩ := ih {s with msg.buf := s.msg.buf.set i b} (i:=i+1) (by omega)
    exact ⟨t,(bind_ok hw).trans ht,happ,hline⟩

/-- Flushing takes up to 260 bytes, or what comes before a silence. -/
theorem flush_run (s : Machine (App τ)) (hled : s.line.led=false) :
    ∃ n t,platformRead 0 260 false false s=(.ok n,t) ∧ t.app=s.app ∧
      t.line=⟨lineAfter s.line.rx (flushTaken (arrivals s.line.rx).length),s.line.tx,false⟩ := by
  rw [platformRead,flushTaken]
  rw [gets_bind,modify_bind]
  by_cases h : (arrivals s.line.rx).length<260
  · rw [readUart_short false false s.line h,if_pos h]
    obtain ⟨t,ht,happ,hline⟩ := storeBytes_inside {s with line :=
      {s.line with rx := afterSilence s.line.rx, led := false}} (i:=0) (arrivals s.line.rx)
      (by omega)
    exact ⟨_,t,bind_ok ht,happ,hline⟩
  · have hlen : ((arrivals s.line.rx).take 260).length=260 := by
      rw [List.length_take,Nat.min_eq_left (not_lt.mp h)]
    have hread := readUart_full false false ((arrivals s.line.rx).take 260) s.line
      (arrivals_split s.line.rx (not_lt.mp h))
    rw [hlen] at hread
    rw [hread,if_neg h]
    obtain ⟨t,ht,happ,hline⟩ := storeBytes_inside {s with line :=
      {s.line with rx := s.line.rx.drop 260, led := false}} (i:=0)
      ((arrivals s.line.rx).take 260) (by omega)
    have hdark : (!false && litBy false ((arrivals s.line.rx).take 260) s.line.led)=false := by
      simp only [litBy,Bool.false_eq_true,false_and,if_false,hled,Bool.and_false]
    rw [hdark]
    exact ⟨_,t,bind_ok ht,happ,hline⟩

/-- Without a request for another unit, or after a silence, an error is the
error of the poll, unless it is none or an exception. -/
theorem afterError_kept (e : NmbsError) (s : Machine (App τ))
    (h : s.msg.ignored=false ∨ e=.errorTimeout) :
    ∃ o,(∀ x,o≠.fault x) ∧ afterError e s=(o,s) := by
  rw [afterError]
  split
  · have hother : ignored s=(.ok s.msg.ignored,s) := rfl
    rw [bind_ok hother,if_neg]
    · exact ⟨.err e,fun _ => nofun,rfl⟩
    · rintro ⟨he,hi⟩
      rcases h with h | h
      · rw [h] at hi
        cases hi
      · exact he h
  · exact ⟨.ok (),fun _ => nofun,rfl⟩

/-- A silence in a request is the error of the poll. -/
theorem afterError_timeout (s : Machine (App τ)) :
    afterError .errorTimeout s=(.err .errorTimeout,s) := by
  have hother : ignored s=(.ok s.msg.ignored,s) := rfl
  rw [afterError,if_pos (by decide),bind_ok hother,if_neg (by simp)]
  rfl

/-- A wrong checksum in a request for this server is the error of the poll. -/
theorem afterError_badCrc (s : Machine (App τ)) (h : s.msg.ignored=false) :
    afterError .errorCrc s=(.err .errorCrc,s) := by
  have hother : ignored s=(.ok s.msg.ignored,s) := rfl
  rw [afterError,if_pos (by decide),bind_ok hother,if_neg (by simp [h])]
  rfl

/-- A wrong checksum in a request for another unit flushes the line. -/
theorem afterError_flushed (s : Machine (App τ)) (h : s.msg.ignored=true)
    (hled : s.line.led=false) :
    ∃ t,afterError .errorCrc s=(.err .errorCrc,t) ∧ t.app=s.app ∧
      t.line=⟨lineAfter s.line.rx (flushTaken (arrivals s.line.rx).length),s.line.tx,false⟩ := by
  obtain ⟨n,t,ht,happ,hline⟩ := flush_run s hled
  have hother : ignored s=(.ok s.msg.ignored,s) := rfl
  refine ⟨t,?_,happ,hline⟩
  rw [afterError,if_pos (by decide),bind_ok hother,if_pos ⟨by decide,h⟩,bind_ok ht]
  rfl

/-! ### The whole poll -/

/-- An answer is no error of the poll. -/
theorem answer_returns {fc : Byte} {frame : List Byte} {s : Machine (App τ)}
    {r : Outcome NmbsError Fault Unit×Machine (App τ)} (h : Answer overshift ps fc frame s r)
    (e : NmbsError) : r.1≠.err e := by
  cases h <;> exact nofun

/-- What the handler of a received request goes on with. -/
def proceed (s : Machine (App τ)) (u fc : Byte) (lay : Layout) :
    Outcome NmbsError Fault Unit×Machine (App τ) :=
  answerOrDrop (answerRequest (nmbsServer overshift ps) fc (frameOf s lay))
    (dropResponse fc (frameOf s lay)) (gotten s u fc lay)

/-- A poll that receives a request for another unit drops the response to it. -/
theorem poll_foreign (s : Machine (App τ)) {u fc : Byte} {lay : Layout} (ho : Opens s u fc lay)
    (hu : Foreign u) (hreceive : lay.receive (arrivals s.line.rx)=.frame)
    (hr : handlerOf (nmbsServer overshift ps) fc.toNat
      (reading (tagged s u fc (decide (u=0#8)) (decide (Foreign u))) [u,fc] []
        (s.line.rx.drop 2) true)=proceed overshift ps s u fc lay) :
    RequestExit overshift ps s u fc lay (nmbsServerPoll (nmbsServer overshift ps) s) := by
  obtain ⟨⟨as,has⟩,hl⟩ := ho
  have hignored : ignored (gotten s u fc lay)=(.ok (decide (Foreign u)),gotten s u fc lay) := rfl
  have hdrop : proceed overshift ps s u fc lay=
      dropResponse fc (frameOf s lay) (gotten s u fc lay) := by
    rw [proceed,answerOrDrop,bind_ok hignored,decide_eq_true hu]
    rfl
  have hh := hr.trans hdrop
  obtain ⟨hleft,hdropped⟩ := dropResponse_run (gotten s u fc lay) (frameOf s lay) hl
  have hfc : (gotten s u fc lay).msg.fc=fc := rfl
  rw [hfc] at hleft hdropped
  rcases hres : dropResponse fc (frameOf s lay) (gotten s u fc lay) with ⟨o,t⟩
  rw [hres] at hh hleft hdropped
  rw [poll_header overshift ps s has hh]
  by_cases hleaves : Leaves (gotten s u fc lay)
  · obtain ⟨⟨x,hx⟩,hk⟩ := hleft hleaves
    obtain rfl : o=.fault x := hx
    exact .leaves x t hu hreceive hleaves hk
  · obtain ⟨happ,hdline,hfault,hig⟩ := hdropped hleaves
    cases o with
    | ok a => exact .dropped _ t hu hreceive hleaves hfault happ hdline
    | err e =>
      have hkeep : t.msg.ignored=false ∨ e=.errorTimeout :=
        hig.imp id (fun h => Outcome.err.inj h)
      obtain ⟨o,hox,he⟩ := afterError_kept e t hkeep
      dsimp only
      rw [he]
      exact .dropped o t hu hreceive hleaves hox happ hdline
    | fault x => exact absurd rfl (hfault x)

/-- A poll that receives a request for this server answers it. -/
theorem poll_own (s : Machine (App τ)) {u fc : Byte} {lay : Layout} (ho : Opens s u fc lay)
    (hu : ¬Foreign u) (hreceive : lay.receive (arrivals s.line.rx)=.frame)
    (hr : handlerOf (nmbsServer overshift ps) fc.toNat
      (reading (tagged s u fc (decide (u=0#8)) (decide (Foreign u))) [u,fc] []
        (s.line.rx.drop 2) true)=proceed overshift ps s u fc lay) :
    RequestExit overshift ps s u fc lay (nmbsServerPoll (nmbsServer overshift ps) s) := by
  obtain ⟨⟨as,has⟩,hl⟩ := ho
  have hignored : ignored (gotten s u fc lay)=(.ok (decide (Foreign u)),gotten s u fc lay) := rfl
  have hanswer : proceed overshift ps s u fc lay=
      answerRequest (nmbsServer overshift ps) fc (frameOf s lay) (gotten s u fc lay) := by
    rw [proceed,answerOrDrop,bind_ok hignored,decide_eq_false hu]
    rfl
  have hh := hr.trans hanswer
  have ha := answerRequest_answer overshift ps hl (frameOf s lay) (gotten s u fc lay)
  rcases hres : answerRequest (nmbsServer overshift ps) fc (frameOf s lay)
    (gotten s u fc lay) with ⟨o,t⟩
  rw [hres] at hh ha
  rw [poll_header overshift ps s has hh]
  cases o with
  | ok a => exact .answered _ hu hreceive ha
  | err e => exact absurd rfl (answer_returns overshift ps ha e)
  | fault x => exact .answered _ hu hreceive ha

/-- A poll whose request has a layout. -/
theorem poll_request (s : Machine (App τ)) {u fc : Byte} {lay : Layout} (ho : Opens s u fc lay) :
    RequestExit overshift ps s u fc lay (nmbsServerPoll (nmbsServer overshift ps) s) := by
  obtain ⟨⟨as,has⟩,hl⟩ := ho
  obtain ⟨h2,hrest⟩ := arrivals_header has
  have hr := handlerOf_received (nmbsServer overshift ps)
    (tagged s u fc (decide (u=0#8)) (decide (Foreign u))) u fc (s.line.rx.drop 2) hl
  have hspan : 2≤lay.span (arrivals s.line.rx) := by
    rw [Layout.span]
    omega
  have hline : (s.line.rx.drop 2).drop (lay.span (arrivals s.line.rx)-2)=
      s.line.rx.drop (lay.span (arrivals s.line.rx)) := by
    rw [List.drop_drop,Nat.add_sub_cancel' hspan]
  unfold Received at hr
  rw [hrest,←has] at hr
  dsimp only at hr
  rw [hline] at hr
  cases hreceive : lay.receive (arrivals s.line.rx) with
  | timeout =>
    rw [hreceive] at hr
    obtain ⟨t,ht,hs⟩ := hr
    rw [poll_header overshift ps s has ht]
    dsimp only
    rw [afterError_timeout]
    exact .starved _ t hreceive (starved_drop h2 hs)
  | overrun =>
    rw [hreceive] at hr
    obtain ⟨x,t,ht,hk⟩ := hr
    rw [poll_header overshift ps s has ht]
    exact .overrun x t hreceive hk
  | badCrc =>
    rw [hreceive] at hr
    rw [poll_header overshift ps s has hr]
    dsimp only
    by_cases hu : Foreign u
    · obtain ⟨t,ht,happ,hline⟩ := afterError_flushed (gotten s u fc lay)
        (decide_eq_true hu) rfl
      have hflush : RequestExit overshift ps s u fc lay (.err .errorCrc,t) :=
        .flushed t hu hreceive happ hline
      rw [←ht] at hflush
      exact hflush
    · have hkeep := afterError_badCrc (gotten s u fc lay) (decide_eq_false hu)
      have hbad : RequestExit overshift ps s u fc lay (.err .errorCrc,gotten s u fc lay) :=
        .badCrc _ hu hreceive rfl rfl
      rw [←hkeep] at hbad
      exact hbad
  | frame =>
    rw [hreceive] at hr
    dsimp only at hr
    by_cases hu : Foreign u
    · exact poll_foreign overshift ps s ⟨⟨as,has⟩,hl⟩ hu hreceive hr
    · exact poll_own overshift ps s ⟨⟨as,has⟩,hl⟩ hu hreceive hr

/-- Every poll ends in one of these ways. -/
theorem poll_exit (s : Machine (App τ)) :
    Exit overshift ps s (nmbsServerPoll (nmbsServer overshift ps) s) := by
  match hbs : arrivals s.line.rx with
  | [] =>
    have hshort : (arrivals s.line.rx).length<2 := by rw [hbs]; simp
    obtain ⟨e,t,ht,hs⟩ := poll_short overshift ps s hshort
    rw [ht]
    exact .short e t hshort hs
  | [u] =>
    have hshort : (arrivals s.line.rx).length<2 := by rw [hbs]; simp
    obtain ⟨e,t,ht,hs⟩ := poll_short overshift ps s hshort
    rw [ht]
    exact .short e t hshort hs
  | u::fc::as =>
    cases hl : requestLayout fc with
    | some lay => exact .request ⟨⟨as,hbs⟩,hl⟩ (poll_request overshift ps s ⟨⟨as,hbs⟩,hl⟩)
    | none =>
      have hh : handlerOf (nmbsServer overshift ps) fc.toNat
          (reading (tagged s u fc (decide (u=0#8)) (decide (Foreign u))) [u,fc] []
            (s.line.rx.drop 2) true)=(.err .exceptionIllegalFunction,_) :=
        congrFun (handlerOf_none (nmbsServer overshift ps) hl) _
      rw [poll_header overshift ps s hbs hh]
      exact .unknown _ hbs hl rfl rfl

/-! ### Reading an exit back -/

/-- The header that a line opens with, and its layout, are determined. -/
theorem opens_unique {s : Machine (App τ)} {u u' fc fc' : Byte} {lay lay' : Layout}
    (h : Opens s u fc lay) (h' : Opens s u' fc' lay') : u=u' ∧ fc=fc' ∧ lay=lay' := by
  obtain ⟨⟨as,has⟩,hl⟩ := h
  obtain ⟨⟨as',has'⟩,hl'⟩ := h'
  obtain ⟨rfl,hrest⟩ := List.cons.inj (has.symm.trans has')
  obtain ⟨rfl,_⟩ := List.cons.inj hrest
  exact ⟨rfl,rfl,Option.some.inj (hl.symm.trans hl')⟩

/-- A poll whose line opens with a request ends as that request does. -/
theorem exit_opens {s : Machine (App τ)} {u fc : Byte} {lay : Layout}
    {r : Outcome NmbsError Fault Unit×Machine (App τ)} (he : Exit overshift ps s r)
    (h : Opens s u fc lay) : RequestExit overshift ps s u fc lay r := by
  cases he with
  | short e t hshort hs =>
    obtain ⟨⟨as,has⟩,_⟩ := h
    rw [has,List.length_cons,List.length_cons] at hshort
    omega
  | unknown t hbs hl happ hline =>
    obtain ⟨⟨as',has⟩,hl'⟩ := h
    obtain ⟨rfl,hrest⟩ := List.cons.inj (has.symm.trans hbs)
    obtain ⟨rfl,_⟩ := List.cons.inj hrest
    rw [hl] at hl'
    cases hl'
  | request ho h' =>
    obtain ⟨rfl,rfl,rfl⟩ := opens_unique h ho
    exact h'

/-- A request that is received for this server is answered. -/
theorem exit_answered {s : Machine (App τ)} {u fc : Byte} {lay : Layout}
    {r : Outcome NmbsError Fault Unit×Machine (App τ)}
    (he : RequestExit overshift ps s u fc lay r) (hu : ¬Foreign u)
    (hr : lay.receive (arrivals s.line.rx)=.frame) :
    Answer overshift ps fc (frameOf s lay) (gotten s u fc lay) r := by
  cases he with
  | starved e t hr' hs => cases hr.symm.trans hr'
  | overrun x t hr' hk => cases hr.symm.trans hr'
  | badCrc t hu' hr' happ hline => cases hr.symm.trans hr'
  | flushed t hu' hr' happ hline => cases hr.symm.trans hr'
  | leaves x t hu' hr' hleaves hk => exact absurd hu' hu
  | dropped o t hu' hr' hleaves hx happ hline => exact absurd hu' hu
  | answered r hu' hr' ha => exact ha

/-- A poll receives a request for this server and answers it, or it changes
nothing but what is left of the line. -/
theorem exit_cases {s : Machine (App τ)} {r : Outcome NmbsError Fault Unit×Machine (App τ)}
    (he : Exit overshift ps s r) :
    (∃ u fc lay,Opens s u fc lay ∧ ¬Foreign u ∧ lay.receive (arrivals s.line.rx)=.frame ∧
      Answer overshift ps fc (frameOf s lay) (gotten s u fc lay) r) ∨ Kept s r.2 := by
  cases he with
  | short e t hshort hs => exact .inr ⟨hs.1,(congrArg Line.tx hs.2).trans rfl⟩
  | unknown t hbs hl happ hline => exact .inr ⟨happ,(congrArg Line.tx hline).trans rfl⟩
  | @request u fc lay r ho hexit =>
    cases hexit with
    | starved e t hr hs => exact .inr ⟨hs.1,(congrArg Line.tx hs.2).trans rfl⟩
    | overrun x t hr hk => exact .inr hk
    | badCrc t hu hr happ hline => exact .inr ⟨happ,(congrArg Line.tx hline).trans rfl⟩
    | flushed t hu hr happ hline => exact .inr ⟨happ,(congrArg Line.tx hline).trans rfl⟩
    | leaves x t hu hr hleaves hk => exact .inr hk
    | dropped o t hu hr hleaves hx happ hline =>
      exact .inr ⟨happ,(congrArg Line.tx hline).trans rfl⟩
    | answered r hu hr ha => exact .inl ⟨u,fc,lay,ho,hu,hr,ha⟩

/-- The bytes of a response that is taken have come. -/
theorem responseTaken_le {lay : Layout} {u fc : Byte} {bs : List Byte} {n : ℕ}
    (h : responseTaken lay u fc bs=some n) : n≤bs.length := by
  have htaken : ∀ {lay : Layout},lay.taken bs=some n → n≤bs.length := by
    intro lay h
    rw [Layout.taken] at h
    split at h
    · cases h
    · rename_i hcome
      rw [←Option.some.inj h]
      omega
  cases bs with
  | nil => cases h
  | cons u' bs =>
    cases bs with
    | nil => cases h
    | cons fc' as =>
      rw [responseTaken] at h
      have htwo : 2≤(u'::fc'::as).length := by
        rw [List.length_cons,List.length_cons]
        omega
      split at h
      · exact (Option.some.inj h).ge.trans htwo
      · split at h
        · exact htaken h
        · split at h
          · exact htaken h
          · exact (Option.some.inj h).ge.trans htwo

/-- A poll takes at least a header, and only bytes that came. -/
theorem pollTaken_bounds {bs : List Byte} {n : ℕ} (h : pollTaken bs=some n) :
    2≤n ∧ n≤bs.length := by
  match bs with
  | u::fc::as =>
    have htwo : 2≤(u::fc::as).length := by
      rw [List.length_cons,List.length_cons]
      omega
    rw [pollTaken] at h
    cases hl : requestLayout fc with
    | none =>
      rw [hl] at h
      obtain rfl := Option.some.inj h
      exact ⟨le_rfl,htwo⟩
    | some lay =>
      have hspan : 2≤lay.span (u::fc::as) := by
        rw [Layout.span]
        omega
      rw [hl] at h
      dsimp only at h
      cases hr : lay.receive (u::fc::as) with
      | timeout =>
        rw [hr] at h
        cases h
      | overrun =>
        rw [hr] at h
        cases h
      | badCrc =>
        have hcome := lay.receive_whole (.inl hr)
        rw [hr] at h
        dsimp only at h
        split at h
        · obtain ⟨k,hk,rfl⟩ := Option.map_eq_some_iff.mp h
          have hflush : k≤((u::fc::as).drop (lay.span (u::fc::as))).length := by
            rw [flushTaken] at hk
            split at hk
            · cases hk
            · rw [←Option.some.inj hk]
              omega
          rw [List.length_drop] at hflush
          omega
        · obtain rfl := Option.some.inj h
          exact ⟨hspan,hcome⟩
      | frame =>
        have hcome := lay.receive_whole (.inr hr)
        rw [hr] at h
        dsimp only at h
        split at h
        · obtain ⟨k,hk,rfl⟩ := Option.map_eq_some_iff.mp h
          have hres := responseTaken_le hk
          rw [List.length_drop] at hres
          omega
        · obtain rfl := Option.some.inj h
          exact ⟨hspan,hcome⟩
  | [] => cases h
  | [_] => cases h

/-- What a poll takes of a request for this server. -/
theorem pollTaken_own {u fc : Byte} {as : List Byte} {lay : Layout}
    (hl : requestLayout fc=some lay) (hu : ¬Foreign u) :
    pollTaken (u::fc::as)=
      if lay.receive (u::fc::as)=.badCrc ∨ lay.receive (u::fc::as)=.frame then
        some (lay.span (u::fc::as))
      else none := by
  rw [pollTaken,hl]
  dsimp only
  cases lay.receive (u::fc::as) with
  | timeout => rfl
  | overrun => rfl
  | badCrc => exact if_neg hu
  | frame => exact if_neg hu

/-- What taking a message and then something else leaves of a line. -/
theorem lineAfter_drop (rx : List (Option Byte)) {k : ℕ} (h : k≤(arrivals rx).length)
    (n : Option ℕ) : lineAfter (rx.drop k) n=lineAfter rx (n.map fun n => k+n) := by
  cases n with
  | none => exact afterSilence_drop rx h
  | some n => exact List.drop_drop

/-- An answer keeps the line or transmits one message, and takes nothing from it. -/
theorem answer_line_cases {fc : Byte} {frame : List Byte} {s : Machine (App τ)}
    {r : Outcome NmbsError Fault Unit×Machine (App τ)} (h : Answer overshift ps fc frame s r)
    (hx : ∀ x,r.1≠.fault x) :
    r.2.line=s.line ∨ ∃ message,r.2.line=⟨s.line.rx,s.line.tx++[message],false⟩ := by
  have hanswered : ∀ {message : List Byte} {t : Machine (App τ)},Answered s message t →
      t.line=s.line ∨ ∃ message,t.line=⟨s.line.rx,s.line.tx++[message],false⟩ := by
    intro message t hline
    rw [Answered] at hline
    split at hline
    · exact .inl hline
    · exact .inr ⟨message,hline⟩
  cases h with
  | left x t hfc hleave hk => exact absurd rfl (hx x)
  | refused e t hread hw hleave hexc hsent => exact .inr ⟨_,hsent.2⟩
  | read t hread happ hline => exact hanswered hline
  | declined t hw hcode happ hline => exact .inr ⟨_,hline⟩
  | written t hw hcode happ hline => exact hanswered hline

/-- The line after a poll that does not leave the arrays. -/
theorem exit_line {s : Machine (App τ)} {r : Outcome NmbsError Fault Unit×Machine (App τ)}
    (he : Exit overshift ps s r) (hx : ∀ x,r.1≠.fault x) :
    r.2.line.rx=lineAfter s.line.rx (pollTaken (arrivals s.line.rx)) := by
  cases he with
  | short e t hshort hs =>
    have htaken : pollTaken (arrivals s.line.rx)=none := by
      match arrivals s.line.rx,hshort with
      | [],_ => rfl
      | [_],_ => rfl
    rw [hs.2,htaken]
    rfl
  | unknown t hbs hl happ hline =>
    rw [hline,hbs,pollTaken,hl]
    rfl
  | @request u fc lay r ho h =>
    obtain ⟨⟨as,has⟩,hl⟩ := ho
    have htaken : pollTaken (arrivals s.line.rx)=
        match lay.receive (arrivals s.line.rx) with
        | .timeout | .overrun => none
        | .badCrc =>
          if Foreign u then
            (flushTaken ((arrivals s.line.rx).drop (lay.span (arrivals s.line.rx))).length).map
              fun n => lay.span (arrivals s.line.rx)+n
          else some (lay.span (arrivals s.line.rx))
        | .frame =>
          if Foreign u then
            (responseTaken (responseLayout fc) u fc
              ((arrivals s.line.rx).drop (lay.span (arrivals s.line.rx)))).map
              fun n => lay.span (arrivals s.line.rx)+n
          else some (lay.span (arrivals s.line.rx)) := by
      rw [has,pollTaken,hl]
    cases h with
    | starved e t hr hs =>
      rw [hs.2,htaken,hr]
      rfl
    | overrun x t hr hk => exact absurd rfl (hx x)
    | badCrc t hu hr happ hline =>
      rw [hline,htaken,hr]
      dsimp only
      rw [if_neg hu]
      rfl
    | flushed t hu hr happ hline =>
      have hcome := lay.receive_whole (.inl hr)
      rw [hline,htaken,hr]
      dsimp only
      rw [if_pos hu,lineAfter_drop _ hcome,arrivals_drop _ hcome]
    | leaves x t hu hr hleaves hk => exact absurd rfl (hx x)
    | dropped o t hu hr hleaves hnone happ hline =>
      have hcome := lay.receive_whole (.inr hr)
      have hrx : (gotten s u fc lay).line.rx=s.line.rx.drop (lay.span (arrivals s.line.rx)) := rfl
      rw [hline,htaken,hr,hrx]
      dsimp only
      rw [if_pos hu,lineAfter_drop _ hcome,arrivals_drop _ hcome]
    | answered r hu hr ha =>
      rw [htaken,hr]
      dsimp only
      rw [if_neg hu]
      rcases answer_line_cases overshift ps ha hx with hkept | ⟨message,hsent⟩
      · rw [hkept]
        rfl
      · rw [hsent]
        rfl

end CyclotronPico.Polls
