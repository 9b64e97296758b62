import CyclotronPico.Bounds

/-!
# What the server transmits

A round transmits at most one message, and only for a request that is
received: an exception response, the registers that were read, or the echo
of a write. Being for every unit silences the echo and the registers, but not
the exception responses. Without a handler for its function code a request
is not even received, and is never answered.
-/

namespace CyclotronPico.Transmissions

open BitBuffer Effects PicoController Nanomodbus NanomodbusServer Frames Reception Requests
  Answers ServerAnswers Responses Polls SupplyInterface ModbusServer Handling Bounds

variable {τ : Type} (overshift : Overshift) (ps : PowerSupplyInterface τ)

/-- A message answers a request: with its function code, which takes a
callback, or with the exception response to it. -/
def AnswerTo (u fc : Byte) (message : List Byte) : Prop :=
  ((fc.toNat=4 ∨ fc.toNat=15) ∧ ∃ body,message=sealed (u::fc::body)) ∨
    ∃ code : Byte,1≤code.toNat ∧ code.toNat≤4 ∧ message=sealed [u,fc+0x80#8,code]

/-- The next poll receives a request for this server or for every unit, and
its file records do not lead out of the buffer. -/
def Admitted (s : Machine (App τ)) (u fc : Byte) (lay : Layout) : Prop :=
  Opens s u fc lay ∧ ¬Foreign u ∧ lay.receive (arrivals s.line.rx)=.frame ∧
    (fc.toNat=21 →
      ¬RecordsLeave (overlay s.msg.buf (lay.kept (arrivals s.line.rx)))
        (byteAt (arrivals s.line.rx) 2))

/-- A request is carried out: a read, or a write that the supply accepts. -/
def CarriedOut (fc : Byte) (frame : List Byte) (app : App τ) : Prop :=
  IsRead fc frame ∨ IsWrite fc frame ∧ ¬writtenCode overshift ps frame app<0

/-! ### One answer -/

/-- An exception response is an answer. -/
theorem exceptionMessage_answers (u fc : Byte) {e : NmbsError} (h : nmbsErrorIsException e=true) :
    AnswerTo u fc (exceptionMessage u fc e) := by
  refine .inr ⟨BitVec.ofInt 8 e.code,?_,?_,rfl⟩
  · cases e <;> first | decide | cases h
  · cases e <;> first | decide | cases h

/-- The server answers every request that does not leave the buffer, unless
it carries out a request for every unit. -/
theorem answer_line {fc : Byte} {frame : List Byte} {s : Machine (App τ)}
    {r : Outcome NmbsError Fault Unit×Machine (App τ)} (h : Answer overshift ps fc frame s r)
    (hfc : s.msg.fc=fc) (hleave : fc.toNat=21 → ¬RecordsLeave s.msg.buf (byteAt frame 2)) :
    (s.msg.broadcast=true ∧ CarriedOut overshift ps fc frame s.app → r.2.line=s.line) ∧
    (¬(s.msg.broadcast=true ∧ CarriedOut overshift ps fc frame s.app) →
      ∃ message,AnswerTo s.msg.unitId fc message ∧
        r.2.line=⟨s.line.rx,s.line.tx++[message],false⟩) := by
  have hanswered : ∀ {message : List Byte} {t : Machine (App τ)},
      CarriedOut overshift ps fc frame s.app → Answered s message t →
      AnswerTo s.msg.unitId fc message →
      (s.msg.broadcast=true ∧ CarriedOut overshift ps fc frame s.app → t.line=s.line) ∧
      (¬(s.msg.broadcast=true ∧ CarriedOut overshift ps fc frame s.app) →
        ∃ message,AnswerTo s.msg.unitId fc message ∧
          t.line=⟨s.line.rx,s.line.tx++[message],false⟩) := by
    intro message t hdone hline hto
    rw [Answered] at hline
    constructor
    · exact fun hb => hline.trans (if_pos hb.1)
    · exact fun hb => ⟨message,hto,hline.trans (if_neg fun hall => hb ⟨hall,hdone⟩)⟩
  cases h with
  | left x t h21 hleave' hk => exact absurd hleave' (hleave h21)
  | refused e t hread hw hleave' hexc hsent =>
    rw [Sent,hfc] at hsent
    refine ⟨fun hb => ?_,fun _ => ⟨_,exceptionMessage_answers _ fc hexc,hsent.2⟩⟩
    rcases hb.2 with hr | hr
    · exact absurd hr hread
    · exact absurd hr.1 hw
  | read t hread happ hline =>
    refine hanswered (.inl hread) hline (.inl ⟨.inl hread.1,?_⟩)
    rw [readMessage,hfc]
    exact ⟨_,rfl⟩
  | declined t hw hcode happ hline =>
    rw [hfc] at hline
    refine ⟨fun hb => ?_,fun _ => ⟨_,exceptionMessage_answers _ fc rfl,hline⟩⟩
    rcases hb.2 with hr | hr
    · have h4 := hr.1
      have h15 := hw.1
      omega
    · exact absurd hcode hr.2
  | written t hw hcode happ hline =>
    refine hanswered (.inr ⟨hw,hcode⟩) hline (.inl ⟨.inr hw.1,?_⟩)
    rw [echoMessage,hfc]
    exact ⟨_,rfl⟩

/-! ### One poll -/

/-- A request that is admitted is answered, unless it is for every unit and
carried out. -/
theorem exit_admitted {s : Machine (App τ)} {r : Outcome NmbsError Fault Unit×Machine (App τ)}
    (he : Exit overshift ps s r) {u fc : Byte} {lay : Layout} (h : Admitted s u fc lay) :
    (u=0#8 ∧ CarriedOut overshift ps fc (frameOf s lay) s.app → r.2.line.tx=s.line.tx) ∧
    (¬(u=0#8 ∧ CarriedOut overshift ps fc (frameOf s lay) s.app) →
      ∃ message,AnswerTo u fc message ∧ r.2.line.tx=s.line.tx++[message]) := by
  obtain ⟨ho,hu,hr,hleave⟩ := h
  obtain ⟨hquiet,hsends⟩ := answer_line overshift ps
    (exit_answered overshift ps (exit_opens overshift ps he ho) hu hr) rfl
    (fun h21 h => hleave h21 ((recordsLeave_gotten ho.2 h21).mp h))
  have hall : (gotten s u fc lay).msg.broadcast=true ↔ u=0#8 := decide_eq_true_iff
  rw [hall] at hquiet hsends
  constructor
  · exact fun h => (congrArg Line.tx (hquiet h)).trans rfl
  · intro h
    obtain ⟨message,hto,hline⟩ := hsends h
    exact ⟨message,hto,congrArg Line.tx hline⟩

/-- Without a request that is admitted nothing is transmitted. -/
theorem exit_unadmitted {s : Machine (App τ)} {r : Outcome NmbsError Fault Unit×Machine (App τ)}
    (he : Exit overshift ps s r) (h : ∀ u fc lay,¬Admitted s u fc lay) :
    r.2.line.tx=s.line.tx := by
  rcases exit_cases overshift ps he with ⟨u,fc,lay,ho,hu,hr,ha⟩ | hk
  · have hother : fc.toNat≠21 → False := fun h21 => h u fc lay ⟨ho,hu,hr,fun h => absurd h h21⟩
    cases ha with
    | left x t hfc hleave hk => exact hk.2
    | refused e t hread hw hleave hexc hsent =>
      exact absurd ⟨ho,hu,hr,fun h21 hleaves =>
        hleave h21 ((recordsLeave_gotten ho.2 h21).mpr hleaves)⟩ (h u fc lay)
    | read t hread happ hline => exact (hother (by have h4 := hread.1; omega)).elim
    | declined t hw hcode happ hline => exact (hother (by have h15 := hw.1; omega)).elim
    | written t hw hcode happ hline => exact (hother (by have h15 := hw.1; omega)).elim
  · exact hk.2

/-! ### Requests that are not for this server alone -/

/-- The poll of a round whose first byte is another address than that of this
server transmits nothing, unless it refuses a request for every unit. -/
theorem poll_silent_iff (m : Machine (App τ)) {u : Byte} {rx : List (Option Byte)}
    (hrx : m.line.rx=some u::rx) (hu : u≠1#8) :
    (nmbsServerPoll (nmbsServer overshift ps) m).2.line.tx=m.line.tx ↔
      ¬(u=0#8 ∧ ∃ fc lay,Admitted m u fc lay ∧
        ¬CarriedOut overshift ps fc (frameOf m lay) m.app) := by
  have hexit := poll_exit overshift ps m
  generalize nmbsServerPoll (nmbsServer overshift ps) m=r at hexit ⊢
  by_cases hadmitted : ∃ u' fc lay,Admitted m u' fc lay
  · obtain ⟨u',fc,lay,h⟩ := hadmitted
    have hfirst : u=u' := by
      obtain ⟨as,has⟩ := h.1.1
      rw [hrx,arrivals] at has
      exact (List.cons.inj has).1
    rw [←hfirst] at h
    have hall : u=0#8 := by
      by_contra h0
      exact h.2.1 ⟨h0,hu⟩
    obtain ⟨hquiet,hsends⟩ := exit_admitted overshift ps hexit h
    by_cases hdone : CarriedOut overshift ps fc (frameOf m lay) m.app
    · refine iff_of_true (hquiet ⟨hall,hdone⟩) ?_
      rintro ⟨_,fc',lay',h',hrefused⟩
      obtain ⟨_,rfl,rfl⟩ := opens_unique h.1 h'.1
      exact hrefused hdone
    · obtain ⟨message,_,htx⟩ := hsends (fun h => hdone h.2)
      refine iff_of_false (fun hsame => ?_) (fun hno => hno ⟨hall,fc,lay,h,hdone⟩)
      have hlen := congrArg List.length (htx.symm.trans hsame)
      rw [List.length_append,List.length_singleton] at hlen
      omega
  · refine iff_of_true (exit_unadmitted overshift ps hexit ?_) ?_
    · exact fun u' fc lay h => hadmitted ⟨u',fc,lay,h⟩
    · rintro ⟨_,fc,lay,h,_⟩
      exact hadmitted ⟨u,fc,lay,h⟩

/-- A round whose first byte is another address than that of this server comes
to its end and transmits nothing exactly when it is not led out of an array and
refuses no request for every unit. -/
theorem silent_iff (m : Machine (App τ)) {u : Byte} {rx : List (Option Byte)}
    (hrx : m.line.rx=some u::rx) (hu : u≠1#8) :
    ((waitAndHandleRequest overshift ps ⟨m,none⟩).fault=none ∧
      (waitAndHandleRequest overshift ps ⟨m,none⟩).machine.line.tx=m.line.tx) ↔
      ¬LeavesArrays m.msg.buf (arrivals m.line.rx) ∧
        ¬(u=0#8 ∧ ∃ fc lay,Admitted m u fc lay ∧
          ¬CarriedOut overshift ps fc (frameOf m lay) m.app) := by
  have hinside : (waitAndHandleRequest overshift ps ⟨m,none⟩).fault=none ↔
      ¬LeavesArrays m.msg.buf (arrivals m.line.rx) :=
    not_ne_iff.symm.trans (not_congr (wait_fault_iff overshift ps m))
  rw [hinside,(wait_of_poll overshift ps m).2,poll_silent_iff overshift ps m hrx hu]

/-- A write of the current 1 for every unit. -/
def broadcastWrite : List Byte := sealed [0#8,15#8,0#8,0#8,0#8,3#8,1#8,7#8]

/-- It is carried out in silence. -/
theorem silent_broadcast :
    (waitAndHandleRequest (fun _ _ => 0#32) SubstituteSupply.powerSupply
      ⟨fresh (broadcastWrite.map some),none⟩).machine.app.calls.length=1 ∧
    ¬LeavesArrays (fresh (broadcastWrite.map some)).msg.buf
        (arrivals (fresh (broadcastWrite.map some)).line.rx) ∧
      ¬(0#8=0#8 ∧ ∃ fc lay,Admitted (fresh (broadcastWrite.map some)) 0#8 fc lay ∧
        ¬CarriedOut (fun _ _ => 0#32) SubstituteSupply.powerSupply fc
          (frameOf (fresh (broadcastWrite.map some)) lay)
          (fresh (broadcastWrite.map some)).app) :=
  ⟨by decide +kernel,(silent_iff (fun _ _ => 0#32) SubstituteSupply.powerSupply
    (fresh (broadcastWrite.map some)) (fresh_rx _) (by decide)).mp (by decide +kernel)⟩

/-- A read of one holding register from every unit. -/
def broadcastRead : List Byte := sealed [0#8,3#8,0#8,0#8,0#8,1#8]

/-- It is answered. -/
theorem broadcast_answered :
    (waitAndHandleRequest (fun _ _ => 0#32) SubstituteSupply.powerSupply
      ⟨fresh (broadcastRead.map some),none⟩).machine.line.tx≠
        (fresh (broadcastRead.map some)).line.tx := by
  have harr : arrivals (fresh (broadcastRead.map some)).line.rx=broadcastRead := by
    rw [fresh_rx,arrivals_bytes]
  have hl : requestLayout 3#8=some (fixedLayout 6) := rfl
  have hf : Filled (fixedLayout 6) [0#8,3#8,0#8,0#8,0#8,1#8] := rfl
  have hreceive := receive_sealed hl hf []
  rw [List.append_nil] at hreceive
  have hadmitted : Admitted (fresh (broadcastRead.map some)) 0#8 3#8 (fixedLayout 6) := by
    refine ⟨⟨⟨_,harr⟩,hl⟩,fun hu => hu.1 rfl,?_,fun h21 => by cases h21⟩
    rw [harr]
    exact hreceive.mpr ⟨rfl,rfl⟩
  have hexit := poll_exit (fun _ _ => 0#32) SubstituteSupply.powerSupply
    (fresh (broadcastRead.map some))
  obtain ⟨message,_,htx⟩ := (exit_admitted _ _ hexit hadmitted).2 (fun h => by
    rcases h.2 with hread | hwrite
    · cases hread.1
    · cases hwrite.1.1)
  intro hsame
  rw [(wait_of_poll _ _ _).2] at hsame
  have hlen := congrArg List.length (htx.symm.trans hsame)
  rw [List.length_append,List.length_singleton] at hlen
  omega

/-! ### Requests for this server -/

/-- The content of a request has the length that its format says; anything
goes for a function code without a parser. -/
def Prescribed (fc : Byte) (data : List Byte) : Prop :=
  ∀ lay,requestLayout fc=some lay → Filled lay data

/-- A request is received and answered: its function code has a parser, its
content fits the arrays, the bytes that the parser leaves out of the checksum
do not change it, and its file records do not lead out of the buffer. -/
def Parsed (buf : Vector Byte 260) (fc : Byte) (data : List Byte) : Prop :=
  ∃ lay,requestLayout fc=some lay ∧ lay.overrunAt (lay.count data)=none ∧
    crcBytes (data.take (lay.covered (lay.count data)))=crcBytes data ∧
    (fc.toNat=21 → ¬RecordsLeave (overlay buf (sealed data)) (byteAt data 2))

/-- Function codes with a parser are small. -/
theorem requestLayout_small {fc : Byte} {lay : Layout} (h : requestLayout fc=some lay) :
    fc.toNat<24 := by
  rw [requestLayout] at h
  split at h
  case h_11 => cases h
  all_goals omega

/-- A request with file records leaves itself in the buffer. -/
theorem kept_sealed {data : List Byte} (hf : Filled recordsLayout data) :
    recordsLayout.kept (sealed data)=sealed data := by
  have hl : requestLayout 21#8=some recordsLayout := rfl
  have hcount := count_sealed hl hf []
  rw [List.append_nil] at hcount
  have hlen : data.length=3+recordsLayout.count data := hf
  rw [Layout.kept,hcount]
  change (sealed data).take (3+recordsLayout.count data)++
    ((sealed data).drop (3+recordsLayout.count data)).take 2=sealed data
  rw [sealed,List.take_left' hlen,List.drop_left' hlen]
  rfl

/-- A request that is alone on the line is admitted when it is parsed. -/
theorem admitted_iff {m : Machine (App τ)} {fc : Byte} {payload : List Byte} {lay : Layout}
    (hl : requestLayout fc=some lay) (hf : Filled lay (1#8::fc::payload))
    (hbs : arrivals m.line.rx=sealed (1#8::fc::payload)) :
    Admitted m 1#8 fc lay ↔ Parsed m.msg.buf fc (1#8::fc::payload) := by
  have hreceive := receive_sealed hl hf []
  rw [List.append_nil] at hreceive
  have hopens : Opens m 1#8 fc lay := ⟨⟨payload++crcBytes (1#8::fc::payload),hbs⟩,hl⟩
  have hown : ¬Foreign 1#8 := fun hu => hu.2 rfl
  have hleave : fc.toNat=21 → (RecordsLeave (overlay m.msg.buf (lay.kept (arrivals m.line.rx)))
      (byteAt (arrivals m.line.rx) 2) ↔ RecordsLeave (overlay m.msg.buf
        (sealed (1#8::fc::payload))) (byteAt (1#8::fc::payload) 2)) := by
    intro h21
    obtain rfl := Option.some.inj (hl.symm.trans (records_layout (.inr h21)))
    have hlen : 2<(1#8::fc::payload).length := by
      have hhead : (1#8::fc::payload).length=3+recordsLayout.count (1#8::fc::payload) := hf
      omega
    have hsize : byteAt (sealed (1#8::fc::payload)) 2=byteAt (1#8::fc::payload) 2 :=
      byteAt_append _ hlen
    rw [hbs,kept_sealed hf,hsize]
  constructor
  · rintro ⟨_,_,hr,hstay⟩
    rw [hbs] at hr
    obtain ⟨hover,hcheck⟩ := hreceive.mp hr
    exact ⟨lay,hl,hover,hcheck,fun h21 h => hstay h21 ((hleave h21).mpr h)⟩
  · rintro ⟨lay',hl',hover,hcheck,hstay⟩
    obtain rfl := Option.some.inj (hl.symm.trans hl')
    refine ⟨hopens,hown,?_,fun h21 h => hstay h21 ((hleave h21).mp h)⟩
    rw [hbs]
    exact hreceive.mpr ⟨hover,hcheck⟩

/-- A stopped server, and one whose line is empty, transmit nothing more. -/
theorem loop_idle {s : Server τ} (h : s.fault≠none ∨ s.machine.line.rx=[]) (n : ℕ) :
    (mainLoop overshift ps n s).machine.line.tx=s.machine.line.tx := by
  have hkeeps := mainLoop_preserves overshift ps (P:=fun t => (t.fault≠none ∨
    t.machine.line.rx=[]) ∧ t.machine.line.tx=s.machine.line.tx) ?_ ⟨h,rfl⟩ n
  · exact hkeeps.2
  · rintro t ⟨hidle,htx⟩
    cases hf : t.fault with
    | some x =>
      rw [wait_stopped overshift ps hf]
      exact ⟨hidle,htx⟩
    | none =>
      have hrx : t.machine.line.rx=[] := hidle.resolve_left fun hne => hne hf
      have hshort : (arrivals t.machine.line.rx).length<2 := by
        rw [hrx]
        exact Nat.two_pos
      obtain ⟨t',ht',_,hline⟩ := wait_silent overshift ps hf hshort
      rw [ht']
      dsimp only
      rw [hline,hrx]
      exact ⟨.inr rfl,htx⟩

/-- The round that receives a request alone on the line leaves nothing of it. -/
theorem wait_alone {m : Machine (App τ)} {fc : Byte} {payload : List Byte} {lay : Layout}
    (hl : requestLayout fc=some lay) (hf : Filled lay (1#8::fc::payload))
    (hrx : m.line.rx=(sealed (1#8::fc::payload)).map some) :
    (waitAndHandleRequest overshift ps ⟨m,none⟩).fault≠none ∨
      (waitAndHandleRequest overshift ps ⟨m,none⟩).machine.line.rx=[] := by
  by_cases hfault : (waitAndHandleRequest overshift ps ⟨m,none⟩).fault=none
  · have hspan := span_sealed hl hf []
    rw [List.append_nil] at hspan
    have htaken : pollTaken (sealed (1#8::fc::payload))=
        if lay.receive (sealed (1#8::fc::payload))=.badCrc ∨
            lay.receive (sealed (1#8::fc::payload))=.frame then
          some (lay.span (sealed (1#8::fc::payload)))
        else none := pollTaken_own hl (fun hu => hu.2 rfl)
    right
    rw [wait_line overshift ps m hfault,hrx,arrivals_bytes,htaken,hspan]
    split
    · exact List.drop_eq_nil_of_le (by rw [List.length_map])
    · have hnone := afterSilence_append (sealed (1#8::fc::payload)) []
      rw [List.append_nil] at hnone
      exact hnone
  · exact .inl hfault

/-- Whatever a round transmits answers a request that has a parser. -/
theorem wait_answers (s : Server τ) :
    ∃ messages,(waitAndHandleRequest overshift ps s).machine.line.tx=
      s.machine.line.tx++messages ∧
      ∀ message∈messages,∃ u fc lay,requestLayout fc=some lay ∧ AnswerTo u fc message := by
  rcases s with ⟨m,f⟩
  cases hf : f with
  | some x =>
    rw [wait_stopped overshift ps (s:=⟨m,some x⟩) rfl]
    exact ⟨[],(List.append_nil _).symm,fun _ => nofun⟩
  | none =>
    have hexit := poll_exit overshift ps m
    rw [(wait_of_poll overshift ps m).2]
    by_cases hadmitted : ∃ u fc lay,Admitted m u fc lay
    · obtain ⟨u,fc,lay,h⟩ := hadmitted
      obtain ⟨hquiet,hsends⟩ := exit_admitted overshift ps hexit h
      by_cases hall : u=0#8 ∧ CarriedOut overshift ps fc (frameOf m lay) m.app
      · exact ⟨[],(hquiet hall).trans (List.append_nil _).symm,fun _ => nofun⟩
      · obtain ⟨message,hto,htx⟩ := hsends hall
        refine ⟨[message],htx,fun other hmem => ?_⟩
        rw [List.mem_singleton.mp hmem]
        exact ⟨u,fc,lay,h.1.2,hto⟩
    · have hquiet := exit_unadmitted overshift ps hexit
        (fun u fc lay h => hadmitted ⟨u,fc,lay,h⟩)
      exact ⟨[],hquiet.trans (List.append_nil _).symm,fun _ => nofun⟩

/-- Whatever is transmitted over any number of rounds answers requests that
have a parser. -/
theorem run_answers (s : Server τ) (n : ℕ) :
    ∃ messages,(mainLoop overshift ps n s).machine.line.tx=s.machine.line.tx++messages ∧
      ∀ message∈messages,∃ u fc lay,requestLayout fc=some lay ∧ AnswerTo u fc message := by
  refine mainLoop_preserves overshift ps (P:=fun t => ∃ messages,
    t.machine.line.tx=s.machine.line.tx++messages ∧ ∀ message∈messages,
      ∃ u fc lay,requestLayout fc=some lay ∧ AnswerTo u fc message) ?_
    ⟨[],(List.append_nil _).symm,fun _ => nofun⟩ n
  rintro t ⟨messages,htx,hanswers⟩
  obtain ⟨messages',htx',hanswers'⟩ := wait_answers overshift ps t
  refine ⟨messages++messages',by rw [htx',htx,List.append_assoc],fun message hmem => ?_⟩
  rcases List.mem_append.mp hmem with h | h
  · exact hanswers message h
  · exact hanswers' message h

/-- The second byte of an answer is the function code, or it has the top bit set as well. -/
theorem answerTo_code {u fc : Byte} {message : List Byte} (h : AnswerTo u fc message) :
    ∃ code body,message=u::code::body ∧ (code=fc ∨ code=fc+0x80#8) := by
  rcases h with ⟨_,body,rfl⟩ | ⟨code,_,_,rfl⟩
  · exact ⟨fc,_,rfl,.inl rfl⟩
  · exact ⟨fc+0x80#8,_,rfl,.inr rfl⟩

/-- No message answers requests with different function codes. -/
theorem answerTo_unique {u u' fc fc' : Byte} {message : List Byte} (h : AnswerTo u fc message)
    (h' : AnswerTo u' fc' message) (hfc : fc.toNat<128) (hfc' : fc'.toNat<128) : fc=fc' := by
  obtain ⟨code,body,rfl,hcode⟩ := answerTo_code h
  obtain ⟨code',body',he,hcode'⟩ := answerTo_code h'
  obtain ⟨_,htail⟩ := List.cons.inj he
  obtain ⟨rfl,_⟩ := List.cons.inj htail
  have hshifted : ∀ f : Byte,(f+0x80#8).toNat=(f.toNat+128)%256 :=
    fun f => BitVec.toNat_add f 0x80#8
  have hs := hshifted fc
  have hs' := hshifted fc'
  apply BitVec.eq_of_toNat_eq
  rcases hcode with rfl | rfl
  · rcases hcode' with rfl | rfl
    · rfl
    · omega
  · rcases hcode' with h | h
    · rw [h] at hs
      omega
    · rw [h] at hs
      omega

/-- A request without a parser is never answered. -/
theorem unparsed_unanswered {fc : Byte} (hl : requestLayout fc=none) (hfc : fc.toNat<128)
    (s : Server τ) (n : ℕ) :
    ¬∃ message,AnswerTo 1#8 fc message ∧
      (mainLoop overshift ps n s).machine.line.tx=s.machine.line.tx++[message] := by
  rintro ⟨message,hto,htx⟩
  obtain ⟨messages,htx',hanswers⟩ := run_answers overshift ps s n
  obtain rfl : [message]=messages := List.append_cancel_left (htx.symm.trans htx')
  obtain ⟨u,fc',lay,hl',hto'⟩ := hanswers message List.mem_cons_self
  have hsmall := requestLayout_small hl'
  obtain rfl := answerTo_unique hto hto' hfc (by omega)
  cases hl.symm.trans hl'

/-- A well-formed request for this server, alone on the line, is answered with
exactly one message when it is parsed, and otherwise not. -/
theorem answered_once_iff (m : Machine (App τ)) {fc : Byte} {payload : List Byte} {n : ℕ}
    (hfc : fc.toNat<128) (hdata : Prescribed fc (1#8::fc::payload))
    (hrx : m.line.rx=(sealed (1#8::fc::payload)).map some) (hn : 1≤n) :
    (∃ message,AnswerTo 1#8 fc message ∧
      (mainLoop overshift ps n ⟨m,none⟩).machine.line.tx=m.line.tx++[message]) ↔
      Parsed m.msg.buf fc (1#8::fc::payload) := by
  cases hl : requestLayout fc with
  | none =>
    refine iff_of_false (unparsed_unanswered overshift ps hl hfc ⟨m,none⟩ n) ?_
    rintro ⟨lay,hl',_⟩
    cases hl.symm.trans hl'
  | some lay =>
    have hf := hdata lay hl
    have hbs : arrivals m.line.rx=sealed (1#8::fc::payload) := by rw [hrx,arrivals_bytes]
    have hexit := poll_exit overshift ps m
    obtain ⟨k,rfl⟩ := Nat.exists_eq_add_of_le' hn
    rw [mainLoop,Function.iterate_succ_apply,←mainLoop,
      loop_idle overshift ps (wait_alone overshift ps hl hf hrx) k,
      (wait_of_poll overshift ps m).2,←admitted_iff hl hf hbs]
    constructor
    · rintro ⟨message,_,htx⟩
      by_contra hno
      have hquiet := exit_unadmitted overshift ps hexit (fun u' fc' lay' h => by
        obtain ⟨rfl,rfl,rfl⟩ := opens_unique h.1 ⟨⟨payload++crcBytes (1#8::fc::payload),hbs⟩,hl⟩
        exact hno h)
      have hlen := congrArg List.length (hquiet.symm.trans htx)
      rw [List.length_append,List.length_singleton] at hlen
      omega
    · intro h
      refine (exit_admitted overshift ps hexit h).2 ?_
      rintro ⟨h0,_⟩
      cases h0

/-- A read of the three input registers. -/
theorem answered_once_read :
    (∃ message,AnswerTo 1#8 4#8 message ∧
      (mainLoop (fun _ _ => 0#32) SubstituteSupply.powerSupply 1
        ⟨fresh ((sealed [1#8,4#8,0#8,0#8,0#8,3#8]).map some),none⟩).machine.line.tx=
          (fresh ((sealed [1#8,4#8,0#8,0#8,0#8,3#8]).map some)).line.tx++[message]) ↔
      Parsed (fresh ((sealed [1#8,4#8,0#8,0#8,0#8,3#8]).map some)).msg.buf 4#8
        [1#8,4#8,0#8,0#8,0#8,3#8] := by
  have hdata : Prescribed 4#8 [1#8,4#8,0#8,0#8,0#8,3#8] := by
    intro lay hl
    obtain rfl := Option.some.inj hl
    rfl
  exact answered_once_iff (fun _ _ => 0#32) SubstituteSupply.powerSupply
    (fresh ((sealed [1#8,4#8,0#8,0#8,0#8,3#8]).map some)) (by decide) hdata (fresh_rx _) le_rfl

/-- A write of one register has the length of its format and is not answered. -/
theorem unanswered_six :
    Prescribed 6#8 [1#8,6#8,0#8,0#8,0#8,1#8] ∧
    ¬∃ message,AnswerTo 1#8 6#8 message ∧
      (mainLoop (fun _ _ => 0#32) SubstituteSupply.powerSupply 5
        ⟨fresh ((sealed [1#8,6#8,0#8,0#8,0#8,1#8]).map some),none⟩).machine.line.tx=
          (fresh ((sealed [1#8,6#8,0#8,0#8,0#8,1#8]).map some)).line.tx++[message] :=
  ⟨fun _ => nofun,unparsed_unanswered _ _ rfl (by decide) _ 5⟩

end CyclotronPico.Transmissions
