import CyclotronPico.Requests
import CyclotronPico.Answers

/-!
# Dropping the response of another unit

After a request to another unit the library receives what should be the
response of that unit and drops it. How many bytes that takes depends on the
bytes that come; for file records, where the checksum is looked for depends
on bytes of the buffer, and may be past its end.
-/

namespace CyclotronPico.Responses

open BitBuffer Effects PicoController Nanomodbus NanomodbusServer Frames Reception Requests
  Answers

variable {σ : Type}

/-! ### Headers -/

/-- The library with the fields of a header set. -/
def tagged (s : Machine σ) (u fc : Byte) (toAll other : Bool) : Machine σ :=
  {s with msg := {s.msg with unitId := u, fc := fc, broadcast := toAll, ignored := other}}

/-- Forgetting a message leaves a state about to receive. -/
theorem msgStateReset_run (s : Machine σ) :
    msgStateReset s=(.ok (),reading (tagged s 0#8 0#8 false false) [] [] s.line.rx s.line.led) := by
  rw [show reading (tagged s 0#8 0#8 false false) [] [] s.line.rx s.line.led=
    {tagged s 0#8 0#8 false false with msg.bufIdx := 0} from (reading_start _).symm]
  rfl

/-- A header that comes is received. -/
theorem recvMsgHeader_full (s : Machine σ) {u fc : Byte} {as : List Byte}
    (h : arrivals s.line.rx=u::fc::as) :
    recvMsgHeader s=(.ok (true,.errorNone),
      reading (tagged s u fc false false) [u,fc] [] (s.line.rx.drop 2) true) := by
  have hlen : 1≤(arrivals s.line.rx).length := by rw [h,List.length_cons]; omega
  have hlen1 : 1≤(arrivals (s.line.rx.drop 1)).length := by
    rw [arrivals_drop _ hlen,h,List.length_drop,List.length_cons,List.length_cons]
    omega
  have hfirst := recvBytes_full (tagged s 0#8 0#8 false false) [] [] s.line.rx s.line.led
    true false hlen (by simp)
  have hsecond := recv_full (tagged s u 0#8 false false) [u] [] (s.line.rx.drop 1) true hlen1
    (by simp) (Nat.zero_le _)
  rw [arrivals_drop _ hlen,h,List.drop_drop] at hsecond
  rw [h] at hfirst
  have hget1 := get1_reading (tagged s 0#8 0#8 false false) [] [] (s.line.rx.drop 1) true u
    (by simp)
  have hget2 := get1_reading (tagged s u 0#8 false false) [u] [] (s.line.rx.drop 2) true fc
    (by simp)
  rw [recvMsgHeader,bind_ok (msgStateReset_run s),bind_ok (attempt_ok hfirst)]
  refine (bind_ok hget1).trans ?_
  rw [modify_bind]
  refine (bind_ok (attempt_ok hsecond)).trans ?_
  exact bind_ok hget2

/-- A header cut short by a silence is not. -/
theorem recvMsgHeader_short (s : Machine σ) (h : (arrivals s.line.rx).length<2) :
    ∃ t,recvMsgHeader s=(.ok (decide ((arrivals s.line.rx).length=1),.errorTimeout),t) ∧
      Starved s s.line.rx t := by
  rw [recvMsgHeader,bind_ok (msgStateReset_run s)]
  match hbs : arrivals s.line.rx,h with
  | [],_ =>
    obtain ⟨t,ht,hs⟩ := recvBytes_short (tagged s 0#8 0#8 false false) [] [] s.line.rx s.line.led
      true false (by rw [hbs,List.length_nil]; exact Nat.one_pos) (by rw [hbs]; simp)
    exact ⟨t,bind_ok (attempt_err ht),hs⟩
  | [u],_ =>
    have hlen : 1≤(arrivals s.line.rx).length := by rw [hbs,List.length_singleton]
    have hfirst := recvBytes_full (tagged s 0#8 0#8 false false) [] [] s.line.rx s.line.led
      true false hlen (by simp)
    rw [hbs] at hfirst
    have hnone : arrivals (s.line.rx.drop 1)=[] := by
      rw [arrivals_drop _ hlen,hbs,List.drop_succ_cons,List.drop_nil]
    obtain ⟨t,ht,hs⟩ := recvBytes_short (tagged s u 0#8 false false) [u] [] (s.line.rx.drop 1)
      true false false (by rw [hnone,List.length_nil]; exact Nat.one_pos) (by rw [hnone]; simp)
    have hget1 := get1_reading (tagged s 0#8 0#8 false false) [] [] (s.line.rx.drop 1) true u
      (by simp)
    refine ⟨t,?_,starved_drop hlen hs⟩
    refine (bind_ok (attempt_ok hfirst)).trans ((bind_ok hget1).trans ?_)
    rw [modify_bind]
    exact bind_ok (attempt_err ht)

/-- The library with its header received. -/
def headed (s : Machine σ) (u fc : Byte) : Machine σ :=
  reading (tagged s u fc false false) [u,fc] [] (s.line.rx.drop 2) true

/-! ### Responses -/

/-- The bytes that dropping a response takes from the line, given the layout
of the response expected; none when a silence comes first. -/
def responseTaken (lay : Layout) (u fc : Byte) (bs : List Byte) : Option ℕ :=
  match bs with
  | u'::fc'::_ =>
    if u'≠u then some 2
    else if fc'=fc then lay.taken bs
    else if fc'.toNat=fc.toNat+128 then (fixedLayout 3).taken bs
    else some 2
  | _ => none

/-- A response whose header matches is received by its layout. -/
theorem responseTaken_match (lay : Layout) (u fc : Byte) (as : List Byte) :
    responseTaken lay u fc (u::fc::as)=lay.taken (u::fc::as) := by
  rw [responseTaken,if_neg (not_not.mpr rfl),if_pos rfl]

/-- What is left of a line after bytes were taken or a silence passed. -/
def lineAfter (rx : List (Option Byte)) : Option ℕ → List (Option Byte)
  | some n => rx.drop n
  | none => afterSilence rx

/-- Bytes were received and dropped, whatever they were: nothing is
transmitted and nothing is done, and the next request is nobody's yet. A
header that is not the one expected leaves the LED lit. -/
def Dropped (s : Machine σ) (n : Option ℕ) (r : Outcome NmbsError Fault Unit×Machine σ) : Prop :=
  r.2.app=s.app ∧ r.2.line=⟨lineAfter s.line.rx n,s.line.tx,decide (n=some 2)⟩ ∧
    (∀ x,r.1≠.fault x) ∧ (r.2.msg.ignored=false ∨ r.1=.err .errorTimeout)

/-- A reception cut short by a silence drops what came. -/
theorem dropped_starved {s t : Machine σ} (h : Starved s s.line.rx t) :
    Dropped s none (.err .errorTimeout,t) :=
  ⟨h.1,h.2,fun _ => nofun,.inr rfl⟩

/-- A state in the middle of a message has dropped what was taken. -/
theorem dropped_reading (s : Machine σ) (u fc : Byte) (xs ys : List Byte) (n : ℕ) (led : Bool)
    {o : Outcome NmbsError Fault Unit} (ho : ∀ x,o≠.fault x) (hled : led=decide (some n=some 2)) :
    Dropped s (some n) (o,reading (tagged s u fc false false) xs ys (s.line.rx.drop n) led) := by
  rw [hled]
  exact ⟨rfl,rfl,ho,.inl rfl⟩

/-- A message that is received and then only judged is dropped. -/
theorem received_dropped {s : Machine σ} {u fc : Byte} {as : List Byte}
    (h : arrivals s.line.rx=u::fc::as) {lay : Layout} (ho : ∀ c,lay.overrunAt c=none)
    (hhead : 2≤lay.head) {p : Nmbs σ Unit} {k : List Byte → Nmbs σ Unit}
    (hr : Received lay (tagged s u fc false false) u fc (s.line.rx.drop 2) p k)
    (hk : ∀ frame t,∃ o,(∀ x,o≠.fault x) ∧ k frame t=(o,t)) :
    Dropped s (lay.taken (arrivals s.line.rx)) (p (headed s u fc)) := by
  obtain ⟨h2,has⟩ := arrivals_header h
  have hspan : 2≤lay.span (arrivals s.line.rx) := by
    unfold Layout.span
    omega
  have hrest : (s.line.rx.drop 2).drop (lay.span (arrivals s.line.rx)-2)=
      s.line.rx.drop (lay.span (arrivals s.line.rx)) := by
    rw [List.drop_drop,Nat.add_sub_cancel' hspan]
  unfold Received at hr
  rw [has,←h] at hr
  dsimp only at hr
  rw [lay.receive_of_fits (ho _),hrest] at hr
  unfold headed
  cases ht : lay.taken (arrivals s.line.rx) with
  | none =>
    rw [ht] at hr
    obtain ⟨t,hp,hs⟩ := hr
    rw [hp]
    exact dropped_starved (starved_drop h2 hs)
  | some n =>
    have hn : lay.span (arrivals s.line.rx)=n := by
      unfold Layout.taken at ht
      split at ht
      · cases ht
      · exact Option.some.inj ht
    have hdark : false=decide (some n=some 2) := by
      have h4 : ¬n=2 := by
        unfold Layout.span at hn
        omega
      simp only [Option.some.injEq,h4,decide_false]
    rw [ht,hn] at hr
    by_cases hc : lay.Checked (arrivals s.line.rx)
    · dsimp only at hr
      rw [if_pos hc] at hr
      obtain ⟨o,hfault,hkeep⟩ := hk ((arrivals s.line.rx).take n)
        (reading (tagged s u fc false false) (lay.kept (arrivals s.line.rx)) []
          (s.line.rx.drop n) false)
      rw [hr,hkeep]
      exact dropped_reading s u fc _ _ n false hfault hdark
    · dsimp only at hr
      rw [if_neg hc] at hr
      rw [hr]
      exact dropped_reading s u fc _ _ n false (fun _ => nofun) hdark

/-- A response that starts with the unit and the function code of the
request is received further. -/
theorem recvResHeader_match (s : Machine σ) {as : List Byte}
    (h : arrivals s.line.rx=s.msg.unitId::s.msg.fc::as) (rest : Nmbs σ Unit) :
    (recvResHeader>>=fun _ => rest) s=rest (headed s s.msg.unitId s.msg.fc) := by
  have hunit : unitId s=(.ok s.msg.unitId,s) := rfl
  have hunit' : unitId (headed s s.msg.unitId s.msg.fc)=
      (.ok s.msg.unitId,headed s s.msg.unitId s.msg.fc) := rfl
  have hres : recvResHeader s=(.ok (),headed s s.msg.unitId s.msg.fc) := by
    rw [recvResHeader,bind_ok hunit,gets_bind,bind_ok (recvMsgHeader_full s h),
      if_neg (not_not.mpr rfl)]
    refine (bind_ok hunit').trans ?_
    rw [if_neg (not_not.mpr rfl),gets_bind]
    exact congrFun (if_neg (not_not.mpr rfl)) _
  exact bind_ok hres

/-- An exception response is received as a message of three bytes. -/
theorem received_exception (base : Machine σ) (u fc : Byte) (rx : List (Option Byte))
    (k : Byte → Nmbs σ Unit) :
    Received (fixedLayout 3) base u fc rx
      (recv 1>>=fun _ => get1>>=fun a => recvMsgFooter>>=fun _ => k a)
      (fun frame => k (byteAt frame 2)) :=
  received_fixed 1 rfl (by omega) rfl rfl rfl get1 (fun frame => byteAt frame 2)
    (fun zs rest rx led hz => takeByte_run base u fc zs rest rx led hz) rx k

/-- A response whose header does not come is not received. -/
theorem recvResHeader_short (s : Machine σ) (h : (arrivals s.line.rx).length<2) :
    ∃ t,recvResHeader s=(.err .errorTimeout,t) ∧ Starved s s.line.rx t := by
  have hunit : unitId s=(.ok s.msg.unitId,s) := rfl
  obtain ⟨t,ht,hs⟩ := recvMsgHeader_short s h
  refine ⟨t,?_,hs⟩
  rw [recvResHeader,bind_ok hunit,gets_bind,bind_ok ht,if_pos (by simp)]
  rfl

/-- Anything else that comes is dropped. -/
theorem recvResHeader_other (s : Machine σ) (lay : Layout)
    (h : ¬∃ as,arrivals s.line.rx=s.msg.unitId::s.msg.fc::as) (rest : Nmbs σ Unit) :
    Dropped s (responseTaken lay s.msg.unitId s.msg.fc (arrivals s.line.rx))
      ((recvResHeader>>=fun _ => rest) s) := by
  have hunit : unitId s=(.ok s.msg.unitId,s) := rfl
  match hbs : arrivals s.line.rx with
  | [] =>
    obtain ⟨t,ht,hs⟩ := recvResHeader_short s (by rw [hbs]; simp)
    rw [bind_err ht]
    exact dropped_starved hs
  | [u] =>
    obtain ⟨t,ht,hs⟩ := recvResHeader_short s (by rw [hbs]; simp)
    rw [bind_err ht]
    exact dropped_starved hs
  | u'::fc'::as =>
    have hunit' : unitId (headed s u' fc')=(.ok u',headed s u' fc') := rfl
    unfold responseTaken
    dsimp only
    by_cases hu : u'≠s.msg.unitId
    · have hres : recvResHeader s=(.err .errorInvalidUnitId,headed s u' fc') := by
        rw [recvResHeader,bind_ok hunit,gets_bind,bind_ok (recvMsgHeader_full s hbs),
          if_neg (not_not.mpr rfl)]
        refine (bind_ok hunit').trans ?_
        rw [if_pos hu]
        rfl
      rw [if_pos hu,bind_err hres]
      exact dropped_reading s u' fc' _ _ 2 true (fun _ => nofun) rfl
    · have hne : fc'≠s.msg.fc := fun hfc => h ⟨as,by rw [hbs,hfc,not_not.mp hu]⟩
      have hres : recvResHeader s=(if (fc'.toNat : ℤ)-0x80=s.msg.fc.toNat then recvException
          else fail .errorInvalidResponse : Nmbs σ Unit) (headed s u' fc') := by
        rw [recvResHeader,bind_ok hunit,gets_bind,bind_ok (recvMsgHeader_full s hbs),
          if_neg (not_not.mpr rfl)]
        refine (bind_ok hunit').trans ?_
        rw [if_neg hu,gets_bind]
        exact congrFun (if_pos hne) _
      rw [if_neg hu,if_neg hne,bind_of_run hres]
      by_cases hex : fc'.toNat=s.msg.fc.toNat+128
      · rw [if_pos hex,if_pos (by omega),←hbs]
        have hr := received_exception (tagged s u' fc' false false) u' fc' (s.line.rx.drop 2)
          fun a => (fail (receivedException a) : Nmbs σ Unit)>>=fun _ => rest
        have hd := received_dropped hbs (fun _ => rfl) (by decide) hr
          (fun frame _ => ⟨.err (receivedException (byteAt frame 2)),fun _ => nofun,rfl⟩)
        rw [recvException]
        simp only [bind_assoc]
        exact hd
      · rw [if_neg hex,if_neg (by omega)]
        exact dropped_reading s u' fc' _ _ 2 true (fun _ => nofun) rfl

/-- A response is dropped when one that matches its request is. -/
theorem response_dropped (s : Machine σ) (lay : Layout) {rest : Nmbs σ Unit}
    (hrest : ∀ as,arrivals s.line.rx=s.msg.unitId::s.msg.fc::as →
      Dropped s (lay.taken (arrivals s.line.rx)) (rest (headed s s.msg.unitId s.msg.fc))) :
    Dropped s (responseTaken lay s.msg.unitId s.msg.fc (arrivals s.line.rx))
      ((recvResHeader>>=fun _ => rest) s) := by
  by_cases h : ∃ as,arrivals s.line.rx=s.msg.unitId::s.msg.fc::as
  · obtain ⟨as,has⟩ := h
    have hd := hrest as has
    have htaken : responseTaken lay s.msg.unitId s.msg.fc (arrivals s.line.rx)=
        lay.taken (arrivals s.line.rx) := by
      rw [has,responseTaken_match]
    rw [htaken,recvResHeader_match s has]
    exact hd
  · exact recvResHeader_other s lay h rest

/-- Dropping bytes of the buffer. -/
theorem dropBytes_reading (base : Machine σ) (xs ws ys : List Byte) (rx : List (Option Byte))
    (led : Bool) (h : xs.length+ws.length≤260) :
    dropBytes ws.length (reading base xs (ws++ys) rx led)=
      (.ok (),reading base (xs++ws) ys rx led) := by
  induction ws generalizing xs with
  | nil =>
    rw [List.append_nil]
    rfl
  | cons b ws ih =>
    rw [List.length_cons] at h
    have hrest := ih (xs++[b]) (by rw [List.length_append,List.length_singleton]; omega)
    rw [List.length_cons,dropBytes,List.cons_append,
      bind_ok (get1_reading base xs (ws++ys) rx led b (by omega)),hrest,List.append_assoc,
      List.singleton_append]

/-- Dropping registers of the buffer. -/
theorem dropRegs_reading (base : Machine σ) (xs ws ys : List Byte) (rx : List (Option Byte))
    (led : Bool) {n : ℕ} (hn : ws.length=2*n) (h : xs.length+2*n≤260) :
    dropRegs n (reading base xs (ws++ys) rx led)=(.ok (),reading base (xs++ws) ys rx led) := by
  induction n generalizing xs ws with
  | zero =>
    rw [List.length_eq_zero_iff.mp hn,List.append_nil]
    rfl
  | succ n ih =>
    match ws,hn with
    | high::low::ws,hn =>
      simp only [List.length_cons] at hn
      have hrest := ih (xs++[high,low]) ws (by omega)
        (by simp only [List.length_append,List.length_cons,List.length_nil]; omega)
      rw [dropRegs,List.cons_append,List.cons_append,
        bind_ok (get2_reading base xs (ws++ys) rx led high low (by omega)),hrest,
        List.append_assoc]
      rfl
    | [_],hn => simp only [List.length_cons,List.length_nil] at hn; omega
    | [],hn => simp only [List.length_nil] at hn; omega

/-- A response that carries coils receives its count, then drops the coils. -/
theorem counted_droppedBytes (base : Machine σ) (u fc : Byte) :
    Counted recordsLayout 1 get1 (fun a : Byte => a.toNat) (fun a => dropBytes a.toNat)
      (fun frame => byteAt frame 2) (fun _ => ()) base u fc where
  head_eq := rfl
  small := by decide
  countAt_eq := rfl
  room := recordsLayout_room
  head_run zs rest rx led hz := takeByte_run base u fc zs rest rx led hz
  size_eq zs rest _ := rfl
  body_run zs ws rest rx led hz hw ho := by
    have hws : ws.length<256 := by
      rw [hw]
      exact (byteAt (u::fc::(zs++(ws++rest))) 2).isLt
    have hd := dropBytes_reading base (u::fc::zs) ws [] rx led
      (by simp only [List.length_cons,hz]; omega)
    have hlen : (u::fc::(zs++ws)).length≤3+ws.length := by
      simp only [List.length_cons,List.length_append]
      omega
    rw [List.append_nil] at hd
    rw [←hw]
    simp only [recordsLayout]
    rw [List.take_of_length_le hlen,List.drop_of_length_le hlen]
    exact hd

/-- A response that carries coils is dropped. -/
theorem recvReadDiscreteRes_dropped (s : Machine σ) :
    Dropped s (responseTaken recordsLayout s.msg.unitId s.msg.fc (arrivals s.line.rx))
      (recvReadDiscreteRes s) := by
  refine response_dropped s recordsLayout ?_
  intro as has
  have hr := (counted_droppedBytes (tagged s s.msg.unitId s.msg.fc false false) s.msg.unitId
    s.msg.fc).received (fun _ _ => pure ()) (fun _ _ _ _ _ ho => (overruns_records ho).elim)
    (s.line.rx.drop 2)
  simp only [bind_pure_unit] at hr
  exact received_dropped has (fun _ => rfl) (by decide) hr
    (fun _ _ => ⟨.ok (),fun _ => nofun,rfl⟩)

/-- The layout of a response that carries registers. -/
def registersResLayout : Layout := ⟨3,some 2,fun c => 3+2*(c/2),fun _ => none⟩

/-- A response that carries registers receives its count, then drops the registers. -/
theorem counted_droppedRegs (base : Machine σ) (u fc : Byte) :
    Counted registersResLayout 1 get1 (fun a : Byte => a.toNat) (fun a => dropRegs (a.toNat/2))
      (fun frame => byteAt frame 2) (fun _ => ()) base u fc where
  head_eq := rfl
  small := by decide
  countAt_eq := rfl
  room c hc _ := by
    simp only [registersResLayout]
    omega
  head_run zs rest rx led hz := takeByte_run base u fc zs rest rx led hz
  size_eq zs rest _ := rfl
  body_run zs ws rest rx led hz hw ho := by
    have hws : ws.length<256 := by
      rw [hw]
      exact (byteAt (u::fc::(zs++(ws++rest))) 2).isLt
    have hd := dropRegs_reading base (u::fc::zs) (ws.take (2*(ws.length/2)))
      (ws.drop (2*(ws.length/2))) rx led
      (by rw [List.length_take,Nat.min_eq_left (by omega)])
      (by simp only [List.length_cons,hz]; omega)
    obtain ⟨ht,hdrop⟩ := covered_split u fc zs ws (k:=2*(ws.length/2)) hz
    rw [List.take_append_drop] at hd
    rw [←hw]
    simp only [registersResLayout]
    rw [ht,hdrop]
    exact hd

/-- A response that carries registers is dropped. -/
theorem recvReadRegistersRes_dropped (quantity : Word) (s : Machine σ) :
    Dropped s (responseTaken registersResLayout s.msg.unitId s.msg.fc (arrivals s.line.rx))
      (recvReadRegistersRes quantity s) := by
  refine response_dropped s registersResLayout ?_
  intro as has
  have hr := (counted_droppedRegs (tagged s s.msg.unitId s.msg.fc false false) s.msg.unitId
    s.msg.fc).received
    (fun a _ => if a.toNat≠quantity.toNat*2 then fail .errorInvalidResponse else pure ())
    (fun _ _ _ _ _ ho => by simp only [registersResLayout,reduceCtorEq] at ho)
    (s.line.rx.drop 2)
  refine received_dropped has (fun _ => rfl) (by decide) hr ?_
  intro frame t
  split
  · exact ⟨.err .errorInvalidResponse,fun _ => nofun,rfl⟩
  · exact ⟨.ok (),fun _ => nofun,rfl⟩

/-- A response that repeats two words is dropped. -/
theorem recvEchoRes_dropped (first second : Word) (s : Machine σ) :
    Dropped s (responseTaken (fixedLayout 6) s.msg.unitId s.msg.fc (arrivals s.line.rx))
      (recvEchoRes first second s) := by
  refine response_dropped s (fixedLayout 6) ?_
  intro as has
  have hr := received_words (tagged s s.msg.unitId s.msg.fc false false) s.msg.unitId s.msg.fc
    (s.line.rx.drop 2) fun a b => if a≠first then fail .errorInvalidResponse
      else if b≠second then fail .errorInvalidResponse else pure ()
  refine received_dropped has (fun _ => rfl) (by decide) hr ?_
  intro frame t
  split
  · exact ⟨.err .errorInvalidResponse,fun _ => nofun,rfl⟩
  · split
    · exact ⟨.err .errorInvalidResponse,fun _ => nofun,rfl⟩
    · exact ⟨.ok (),fun _ => nofun,rfl⟩

/-! ### Responses that carry file records -/

/-- A cursor inside the buffer has the bytes before it behind it. -/
theorem atIdx_reading (s : Machine σ) {k : ℕ} (h : k≤260) :
    atIdx s k=reading s (s.msg.buf.toList.take k) [] s.line.rx s.line.led := by
  have hbuf := overlay_extend s.msg.buf [] k
  rw [List.nil_append,List.length_nil,List.drop_zero,overlay_nil] at hbuf
  have hlen : (s.msg.buf.toList.take k).length=k := by
    rw [List.length_take,Vector.length_toList,Nat.min_eq_left h]
  rw [reading,List.append_nil,hbuf,hlen]
  rfl

/-- Where the checksum is looked for decides whether the buffer is left. -/
theorem recvMsgFooter_atIdx (s : Machine σ) (k : ℕ) :
    (260<k+min 2 (arrivals s.line.rx).length →
      ∃ x t,recvMsgFooter (atIdx s k)=(.fault x,t) ∧ Kept s t) ∧
    (¬260<k+min 2 (arrivals s.line.rx).length →
      ∃ o t,recvMsgFooter (atIdx s k)=(o,t) ∧ (∀ x,o≠.fault x) ∧ t.app=s.app ∧
        t.line=⟨lineAfter s.line.rx (if (arrivals s.line.rx).length<2 then none else some 2),
          s.line.tx,false⟩ ∧
        (t.msg.ignored=s.msg.ignored ∨ o=.err .errorTimeout)) := by
  by_cases hk : k≤260
  · have hlen : (s.msg.buf.toList.take k).length=k := by
      rw [List.length_take,Vector.length_toList,Nat.min_eq_left hk]
    rw [atIdx_reading s hk]
    constructor
    · intro h
      exact recvMsgFooter_over s _ [] s.line.rx s.line.led (by omega) (by omega)
    · intro h
      by_cases hshort : (arrivals s.line.rx).length<2
      · obtain ⟨t,ht,hs⟩ := recvMsgFooter_short s (s.msg.buf.toList.take k) [] s.line.rx
          s.line.led hshort (by omega) (by omega)
        rw [if_pos hshort]
        exact ⟨_,t,ht,fun _ => nofun,hs.1,hs.2,.inr rfl⟩
      · have hf := recvMsgFooter_full s (s.msg.buf.toList.take k) [] s.line.rx s.line.led
          (by omega) (by omega) (Nat.zero_le _)
        rw [if_neg hshort]
        refine ⟨_,_,hf,?_,rfl,rfl,.inl rfl⟩
        intro x
        split <;> exact nofun
  · have hread : readBufUpTo k (atIdx s k)=(.fault (.msgBuf 260),atIdx s k) := if_neg hk
    have hb : bufIdx (atIdx s k)=(.ok k,atIdx s k) := rfl
    constructor
    · intro _
      refine ⟨.msgBuf 260,atIdx s k,?_,rfl,rfl⟩
      rw [recvMsgFooter,bind_ok hb,bind_fault hread]
    · intro h
      omega

/-- Where the checksum of a response with file records is looked for. -/
def checksumAt (fc : Byte) (buf : Vector Byte 260) : ℕ :=
  if fc.toNat=20 then 5+(buf[3]-1#8).toNat
  else (10+((wordOf buf[8] buf[9])*2#16).toNat)%65536

/-- A response with file records leads out of the buffer: it came, but its
checksum, or what came of it, is expected past the end. -/
def ResponseLeaves (u fc : Byte) (buf : Vector Byte 260) (bs : List Byte) : Prop :=
  bs.take 2=[u,fc] ∧ 3≤bs.length ∧ 3+(byteAt bs 2).toNat≤bs.length ∧
    260<checksumAt fc (overlay buf (bs.take (3+(byteAt bs 2).toNat)))+
      min 2 (bs.length-(3+(byteAt bs 2).toNat))

/-- What dropping a response with file records comes to. -/
def LeavesOrDropped (s : Machine σ) (r : Outcome NmbsError Fault Unit×Machine σ) : Prop :=
  (ResponseLeaves s.msg.unitId s.msg.fc s.msg.buf (arrivals s.line.rx) →
    (∃ x,r.1=.fault x) ∧ Kept s r.2) ∧
  (¬ResponseLeaves s.msg.unitId s.msg.fc s.msg.buf (arrivals s.line.rx) →
    Dropped s (responseTaken recordsLayout s.msg.unitId s.msg.fc (arrivals s.line.rx)) r)

/-- A response with file records takes its head, its content and a checksum. -/
theorem records_taken (u fc : Byte) {c : Byte} {as bs : List Byte} (h : bs=u::fc::c::as) :
    responseTaken recordsLayout u fc bs=
      if bs.length<3+c.toNat+2 then none else some (3+c.toNat+2) := by
  have hspan : recordsLayout.span bs=3+c.toNat+2 := by
    rw [h]
    rfl
  rw [h,responseTaken_match,←h,Layout.taken,hspan]
  by_cases hshort : bs.length<3+c.toNat+2
  · rw [if_pos hshort,if_pos (Or.inr hshort)]
  · have hwhole : ¬(bs.length < recordsLayout.head ∨ bs.length<3+c.toNat+2) := by
      simp only [recordsLayout]
      omega
    rw [if_neg hshort,if_neg hwhole]

/-- A response with file records that has come up to its content: the rest is
the check at the place where its bytes say. -/
theorem records_checked (s : Machine σ) {c : Byte} {as : List Byte}
    (h : arrivals s.line.rx=s.msg.unitId::s.msg.fc::c::as) (hc : c.toNat≤as.length)
    {tail : Nmbs σ Unit}
    (htail : ∀ t : Machine σ,t.msg.bufIdx=3 →
      tail t=recvMsgFooter (atIdx t (checksumAt s.msg.fc t.msg.buf)))
    {t : Machine σ} (ht : t=reading (tagged s s.msg.unitId s.msg.fc false false)
      [s.msg.unitId,s.msg.fc,c] (as.take c.toNat) (s.line.rx.drop (3+c.toNat)) true) :
    LeavesOrDropped s (tail t) := by
  have hbyte : (byteAt (arrivals s.line.rx) 2).toNat=c.toNat := by rw [h]; rfl
  have hlen : (arrivals s.line.rx).length=3+as.length := by
    rw [h,List.length_cons,List.length_cons,List.length_cons]
    omega
  have hbuf : t.msg.buf=overlay s.msg.buf ((arrivals s.line.rx).take (3+c.toNat)) := by
    rw [ht,h,Nat.add_comm 3]
    rfl
  have harr : (arrivals t.line.rx).length=(arrivals s.line.rx).length-(3+c.toNat) := by
    have hrx : t.line.rx=s.line.rx.drop (3+c.toNat) := by rw [ht]; rfl
    rw [hrx,arrivals_drop _ (by omega),List.length_drop]
  obtain ⟨hover,hfit⟩ := recvMsgFooter_atIdx t (checksumAt s.msg.fc t.msg.buf)
  have hleaves : ResponseLeaves s.msg.unitId s.msg.fc s.msg.buf (arrivals s.line.rx) ↔
      260<checksumAt s.msg.fc t.msg.buf+min 2 (arrivals t.line.rx).length := by
    rw [ResponseLeaves]
    rw [hbyte,hbuf,harr]
    constructor
    · exact fun hl => hl.2.2.2
    · exact fun hl => ⟨by rw [h]; rfl,by omega,by omega,hl⟩
  have hkept : ∀ {r : Machine σ},Kept t r → Kept s r := by
    intro r hr
    rw [ht] at hr
    exact hr
  rw [LeavesOrDropped]
  rw [hleaves,htail t (by rw [ht]; rfl)]
  constructor
  · intro hl
    obtain ⟨x,r,hr,hk⟩ := hover hl
    rw [hr]
    exact ⟨⟨x,rfl⟩,hkept hk⟩
  · intro hl
    obtain ⟨o,r,hr,ho,happ,hline,hig⟩ := hfit hl
    rw [hr,records_taken _ _ h]
    rw [ht] at happ hig
    refine ⟨happ,?_,ho,hig⟩
    dsimp only
    rw [hline,harr,ht]
    by_cases hshort : (arrivals s.line.rx).length<3+c.toNat+2
    · rw [if_pos (by omega),if_pos hshort]
      exact congrArg (fun rx => (⟨rx,s.line.tx,false⟩ : Line))
        (afterSilence_drop s.line.rx (by omega))
    · have hdark : decide (some (3+c.toNat+2)=some 2)=false := by
        simp only [Option.some.injEq,decide_eq_false_iff_not]
        omega
      rw [if_neg (by omega),if_neg hshort,hdark]
      exact congrArg (fun rx => (⟨rx,s.line.tx,false⟩ : Line)) List.drop_drop

/-- A response with file records that is cut short is dropped. -/
theorem records_short {s t : Machine σ} {n : ℕ} (hn : n≤(arrivals s.line.rx).length)
    (hs : Starved s (s.line.rx.drop n) t)
    (hshort : (arrivals s.line.rx).length<3 ∨
      (arrivals s.line.rx).length<3+(byteAt (arrivals s.line.rx) 2).toNat)
    {as : List Byte} (h : arrivals s.line.rx=s.msg.unitId::s.msg.fc::as) :
    LeavesOrDropped s (.err .errorTimeout,t) := by
  have htaken : responseTaken recordsLayout s.msg.unitId s.msg.fc (arrivals s.line.rx)=none := by
    have hspan : recordsLayout.span (arrivals s.line.rx)=
        3+(byteAt (arrivals s.line.rx) 2).toNat+2 := rfl
    have hcut : (arrivals s.line.rx).length < recordsLayout.head ∨
        (arrivals s.line.rx).length < recordsLayout.span (arrivals s.line.rx) := by
      rw [hspan]
      simp only [recordsLayout]
      omega
    rw [h,responseTaken_match,←h]
    exact if_pos hcut
  refine ⟨fun hl => ?_,fun _ => ?_⟩
  · have h3 := hl.2.1
    have hcount := hl.2.2.1
    omega
  · rw [htaken]
    exact dropped_starved (starved_drop hn hs)

/-- A response with file records is dropped, or it leads out of the buffer. -/
theorem records_dropped (s : Machine σ) {tail : Nmbs σ Unit}
    (htail : ∀ t : Machine σ,t.msg.bufIdx=3 →
      tail t=recvMsgFooter (atIdx t (checksumAt s.msg.fc t.msg.buf))) :
    LeavesOrDropped s ((recvResHeader>>=fun _ => recv 1>>=fun _ => get1>>=fun size =>
      recv size.toNat>>=fun _ => tail) s) := by
  by_cases h : ∃ as,arrivals s.line.rx=s.msg.unitId::s.msg.fc::as
  · obtain ⟨as,has⟩ := h
    obtain ⟨h2,hrest⟩ := arrivals_header has
    rw [recvResHeader_match s has]
    rw [headed]
    match as with
    | [] =>
      obtain ⟨t,ht,hs⟩ := recvBytes_short (tagged s s.msg.unitId s.msg.fc false false)
        [s.msg.unitId,s.msg.fc] [] (s.line.rx.drop 2) true false false
        (by rw [hrest,List.length_nil]; exact Nat.one_pos) (by rw [hrest]; simp)
      rw [bind_err (p:=recv 1) ht]
      exact records_short h2 hs (.inl (by rw [has]; simp)) has
    | c::as =>
      have hlen : (arrivals s.line.rx).length=3+as.length := by
        rw [has,List.length_cons,List.length_cons,List.length_cons]
        omega
      have hone := recv_full (tagged s s.msg.unitId s.msg.fc false false)
        [s.msg.unitId,s.msg.fc] [] (s.line.rx.drop 2) true
        (by rw [hrest,List.length_cons]; omega : 1≤(arrivals (s.line.rx.drop 2)).length)
        (by simp) (Nat.zero_le _)
      rw [hrest,List.drop_drop] at hone
      have hrest3 : arrivals (s.line.rx.drop 3)=as := by
        rw [arrivals_drop _ (by omega),has]
        rfl
      have hstep : (recv 1>>=fun _ => get1>>=fun size => recv size.toNat>>=fun _ => tail)
          (reading (tagged s s.msg.unitId s.msg.fc false false) [s.msg.unitId,s.msg.fc] []
            (s.line.rx.drop 2) true)=(recv c.toNat>>=fun _ => tail)
          (reading (tagged s s.msg.unitId s.msg.fc false false) [s.msg.unitId,s.msg.fc,c] []
            (s.line.rx.drop 3) true) :=
        (bind_ok hone).trans (bind_ok (get1_reading _ _ [] _ true c (by simp)))
      have hfit := c.isLt
      rw [hstep]
      by_cases hc : c.toNat≤as.length
      · have hmany := recv_full (tagged s s.msg.unitId s.msg.fc false false)
          [s.msg.unitId,s.msg.fc,c] [] (s.line.rx.drop 3) true
          (by rw [hrest3]; exact hc : c.toNat≤(arrivals (s.line.rx.drop 3)).length)
          (by simp only [List.length_cons,List.length_nil]; omega) (Nat.zero_le _)
        rw [hrest3,List.drop_drop] at hmany
        rw [bind_ok hmany]
        exact records_checked s has hc htail rfl
      · obtain ⟨t,ht,hs⟩ := recvBytes_short (tagged s s.msg.unitId s.msg.fc false false)
          [s.msg.unitId,s.msg.fc,c] [] (s.line.rx.drop 3) true false false
          (by rw [hrest3]; omega : (arrivals (s.line.rx.drop 3)).length<c.toNat)
          (by rw [hrest3]; simp only [List.length_cons,List.length_nil]; omega)
        rw [bind_err (p:=recv c.toNat) ht]
        refine records_short (by omega) hs (.inr ?_) has
        rw [show byteAt (arrivals s.line.rx) 2=c by rw [has]; rfl]
        omega
  · refine ⟨?_,fun _ => recvResHeader_other s recordsLayout h _⟩
    intro hl
    refine absurd ?_ h
    match hbs : arrivals s.line.rx with
    | [] => rw [hbs] at hl; cases hl.1
    | [_] => rw [hbs] at hl; cases hl.1
    | u::f::as =>
      have h2 := hl.1
      rw [hbs] at h2
      simp only [List.take_succ_cons,List.take_zero,List.cons.injEq,and_true] at h2
      exact ⟨as,by rw [h2.1,h2.2]⟩

/-- A response to a request for file records. -/
theorem recvReadFileRecordRes_dropped (s : Machine σ) (hfc : s.msg.fc.toNat=20) :
    LeavesOrDropped s (recvReadFileRecordRes s) := by
  refine records_dropped s ?_
  intro t ht
  have hstart : t=atIdx t 3 := by
    rw [←ht]
    rfl
  have hd := (t.msg.buf[3]-1#8).isLt
  have hskip : getN (t.msg.buf[3]-1#8).toNat (atIdx t 5)=
      (.ok 5,atIdx t ((5+(t.msg.buf[3]-1#8).toNat)%65536)) := rfl
  have hplace : (5+(t.msg.buf[3]-1#8).toNat)%65536=checksumAt s.msg.fc t.msg.buf := by
    rw [checksumAt,if_pos hfc]
    omega
  rw [hplace] at hskip
  have hfirst := (congrArg get1 hstart).trans (get1_atIdx t (by omega))
  exact (bind_ok hfirst).trans ((bind_ok (get1_atIdx t (by omega))).trans (bind_ok hskip))

/-- A response to a write of file records. -/
theorem recvWriteFileRecordRes_dropped (s : Machine σ) (hfc : s.msg.fc.toNat=21) :
    LeavesOrDropped s (recvWriteFileRecordRes s) := by
  refine records_dropped s ?_
  intro t ht
  have hstart : t=atIdx t 3 := by
    rw [←ht]
    rfl
  have hskip : getN ((wordOf t.msg.buf[8] t.msg.buf[9])*2#16).toNat (atIdx t 10)=
      (.ok 10,atIdx t ((10+((wordOf t.msg.buf[8] t.msg.buf[9])*2#16).toNat)%65536)) := rfl
  have hplace : (10+((wordOf t.msg.buf[8] t.msg.buf[9])*2#16).toNat)%65536=
      checksumAt s.msg.fc t.msg.buf := by
    rw [checksumAt,if_neg (by omega)]
  rw [hplace] at hskip
  have hfirst := (congrArg get1 hstart).trans (get1_atIdx t (by omega))
  exact (bind_ok hfirst).trans ((bind_ok (get2_atIdx t (by omega))).trans
    ((bind_ok (get2_atIdx t (by omega))).trans ((bind_ok (get2_atIdx t (by omega))).trans
      (bind_ok hskip))))

/-! ### Every response -/

/-- The layout of the response to a request. -/
def responseLayout (fc : Byte) : Layout :=
  match fc.toNat with
  | 1 | 2 | 20 | 21 => recordsLayout
  | 3 | 4 => registersResLayout
  | _ => fixedLayout 6

/-- The response to come leads out of the buffer. -/
def Leaves (s : Machine σ) : Prop :=
  (s.msg.fc.toNat=20 ∨ s.msg.fc.toNat=21) ∧
    ResponseLeaves s.msg.unitId s.msg.fc s.msg.buf (arrivals s.line.rx)

/-- The response to a request for another unit leads out of the buffer, or it
is dropped. -/
theorem dropResponse_run (s : Machine σ) (frame : List Byte) {lay : Layout}
    (hl : requestLayout s.msg.fc=some lay) :
    (Leaves s → (∃ x,(dropResponse s.msg.fc frame s).1=.fault x) ∧
      Kept s (dropResponse s.msg.fc frame s).2) ∧
    (¬Leaves s → Dropped s (responseTaken (responseLayout s.msg.fc) s.msg.unitId s.msg.fc
      (arrivals s.line.rx)) (dropResponse s.msg.fc frame s)) := by
  have hread := recvReadFileRecordRes_dropped s
  have hwrite := recvWriteFileRecordRes_dropped s
  have hplain : ∀ {taken : Option ℕ} {r : Outcome NmbsError Fault Unit×Machine σ},
      s.msg.fc.toNat≠20 → s.msg.fc.toNat≠21 → Dropped s taken r →
      (Leaves s → (∃ x,r.1=.fault x) ∧ Kept s r.2) ∧ (¬Leaves s → Dropped s taken r) := by
    intro taken r h20 h21 hdropped
    refine ⟨fun hleave => ?_,fun _ => hdropped⟩
    rcases hleave.1 with h | h
    · exact absurd h h20
    · exact absurd h h21
  have hleaves : s.msg.fc.toNat=20 ∨ s.msg.fc.toNat=21 →
      (Leaves s ↔ ResponseLeaves s.msg.unitId s.msg.fc s.msg.buf (arrivals s.line.rx)) :=
    fun h => and_iff_right h
  rw [requestLayout] at hl
  rw [dropResponse,responseLayout]
  generalize hfc : s.msg.fc.toNat=n at hl hread hwrite hplain hleaves ⊢
  split at hl
  · exact hplain (by omega) (by omega) (recvReadDiscreteRes_dropped s)
  · exact hplain (by omega) (by omega) (recvReadDiscreteRes_dropped s)
  · exact hplain (by omega) (by omega) (recvReadRegistersRes_dropped _ s)
  · exact hplain (by omega) (by omega) (recvReadRegistersRes_dropped _ s)
  · exact hplain (by omega) (by omega) (recvEchoRes_dropped _ _ s)
  · exact hplain (by omega) (by omega) (recvEchoRes_dropped _ _ s)
  · exact hplain (by omega) (by omega) (recvEchoRes_dropped _ _ s)
  · rw [hleaves (.inl rfl)]
    exact hread rfl
  · rw [hleaves (.inr rfl)]
    exact hwrite rfl
  · exact hplain (by omega) (by omega) (recvEchoRes_dropped _ _ s)
  · cases hl

end CyclotronPico.Responses
