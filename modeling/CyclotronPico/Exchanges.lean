import CyclotronPico.Responses

/-!
# The exchanges of other units

A request to another unit followed by the response of that unit, both whole:
the library receives both, drops both and reports no error. What the
response looks like depends on the function code; an exception response is
one as well.
-/

namespace CyclotronPico.Exchanges

open BitBuffer Effects PicoController Nanomodbus NanomodbusServer Frames Reception Requests
  Answers Responses

variable {σ : Type}

/-! ### Whole messages on the line -/

/-- The byte count of a message stands in its head, and no more bytes are
covered than come. -/
def Sound (lay : Layout) : Prop :=
  (∀ i,lay.countAt=some i → i<lay.head) ∧ ∀ c,lay.covered c≤lay.head+c

/-- The layouts of requests are sound. -/
theorem sound_request {fc : Byte} {lay : Layout} (h : requestLayout fc=some lay) : Sound lay :=
  requestLayout_fits h

/-- A message of fixed size is sound. -/
theorem sound_fixed (head : ℕ) : Sound (fixedLayout head) :=
  ⟨fun _ => nofun,fun c => Nat.le_add_right head c⟩

/-- A message that counts its bytes, with coils or file records, is sound. -/
theorem sound_records : Sound recordsLayout :=
  requestLayout_fits (records_layout (.inl rfl : (20#8).toNat=20 ∨ (20#8).toNat=21))

/-- A response with registers is sound. -/
theorem sound_registersRes : Sound registersResLayout := by
  refine ⟨fun i hi => ?_,fun c => ?_⟩
  · obtain rfl : 2=i := Option.some.inj hi
    decide
  · simp only [registersResLayout]
    omega

section Whole

variable {lay : Layout} {data : List Byte}

/-- A message with its checksum has the byte count of the message. -/
theorem count_whole (hs : Sound lay) (hf : Filled lay data) (rest : List Byte) :
    lay.count (sealed data++rest)=lay.count data := by
  rw [Filled] at hf
  rw [Layout.count,Layout.count]
  cases hc : lay.countAt with
  | none => rfl
  | some i =>
    have hi := hs.1 i hc
    dsimp only
    rw [sealed,List.append_assoc,byteAt_append _ (by omega)]

/-- A message with its checksum is whole. -/
theorem span_whole (hs : Sound lay) (hf : Filled lay data) (rest : List Byte) :
    lay.span (sealed data++rest)=(sealed data).length := by
  rw [Layout.span,count_whole hs hf,sealed_length,hf]

/-- A message with its checksum is received when it fits and the bytes that
are not covered do not matter. -/
theorem receive_whole (hs : Sound lay) (hf : Filled lay data)
    (ho : lay.overrunAt (lay.count data)=none)
    (hc : crcBytes (data.take (lay.covered (lay.count data)))=crcBytes data) (rest : List Byte) :
    lay.receive (sealed data++rest)=.frame := by
  have hcovered := hs.2 (lay.count data)
  have hchecksum : ((sealed data++rest).drop (lay.head+lay.count data)).take 2=crcBytes data := by
    rw [sealed,List.append_assoc,List.drop_left' hf]
    rfl
  have hdata : (sealed data++rest).take (lay.covered (lay.count data))=
      data.take (lay.covered (lay.count data)) := by
    rw [sealed,List.append_assoc,List.take_append_of_le_length (hcovered.trans_eq hf.symm)]
  have hlen := sealed_length data
  rw [lay.receive_frame_iff,span_whole hs hf,Layout.Checked,count_whole hs hf,hchecksum,hdata,hc,
    List.length_append]
  rw [Filled] at hf
  exact ⟨by omega,ho,by omega,rfl⟩

/-- The bytes of a whole message are what a message of its length takes. -/
theorem take_whole (rest : List Byte) : (sealed data++rest).take (sealed data).length=sealed data :=
  List.take_left

end Whole

/-! ### Responses of other units -/

/-- What another unit responds to a request. -/
inductive Responds (u fc : Byte) (frame : List Byte) : List Byte → Prop where
  /-- Coils or discrete inputs. -/
  | bits (hfc : fc.toNat=1 ∨ fc.toNat=2) (count : Byte) (bs : List Byte)
      (hcount : bs.length=count.toNat) : Responds u fc frame (u::fc::count::bs)
  /-- As many registers as were asked for. -/
  | words (hfc : fc.toNat=3 ∨ fc.toNat=4) (count : Byte) (bs : List Byte)
      (hcount : bs.length=count.toNat) (hq : count.toNat=(wordAt frame 4).toNat*2) :
      Responds u fc frame (u::fc::count::bs)
  /-- The address and the value or the quantity of a write. -/
  | echo (hfc : fc.toNat=5 ∨ fc.toNat=15 ∨ fc.toNat=16) :
      Responds u fc frame ([u,fc]++wordBytes (wordAt frame 2)++wordBytes (wordAt frame 4))
  /-- An exception. -/
  | exception (hfc : fc.toNat<128) (code : Byte) (hlo : 1≤code.toNat) (hhi : code.toNat≤4) :
      Responds u fc frame [u,fc+0x80#8,code]

/-- A response that was dropped without an error of the poll. -/
def Passed (s : Machine σ) (n : ℕ) (r : Outcome NmbsError Fault Unit×Machine σ) : Prop :=
  r.2.app=s.app ∧ r.2.line=⟨s.line.rx.drop n,s.line.tx,false⟩ ∧
    (r.1=.ok () ∨ ∃ e,nmbsErrorIsException e=true ∧ r.1=.err e)

/-- A whole response is received, and judged. -/
theorem received_whole {s : Machine σ} {u fc : Byte} {as : List Byte}
    (h : arrivals s.line.rx=u::fc::as) {lay : Layout} (hhead : 2≤lay.head) {p : Nmbs σ Unit}
    {k : List Byte → Nmbs σ Unit}
    (hr : Received lay (tagged s u fc false false) u fc (s.line.rx.drop 2) p k)
    (hreceive : lay.receive (arrivals s.line.rx)=.frame) :
    p (headed s u fc)=k ((arrivals s.line.rx).take (lay.span (arrivals s.line.rx)))
      (reading (tagged s u fc false false) (lay.kept (arrivals s.line.rx)) []
        (s.line.rx.drop (lay.span (arrivals s.line.rx))) false) := by
  obtain ⟨_,has⟩ := arrivals_header h
  have hspan : 2≤lay.span (arrivals s.line.rx) := by
    unfold Layout.span
    omega
  have hrest : (s.line.rx.drop 2).drop (lay.span (arrivals s.line.rx)-2)=
      s.line.rx.drop (lay.span (arrivals s.line.rx)) := by
    rw [List.drop_drop,Nat.add_sub_cancel' hspan]
  unfold Received at hr
  rw [has,←h] at hr
  dsimp only at hr
  rw [hrest,hreceive] at hr
  exact hr

/-- A response whose bytes are judged good has passed. -/
theorem passed_received {s : Machine σ} {u fc : Byte} {data rest : List Byte} {lay : Layout}
    (hbs : arrivals s.line.rx=sealed (u::fc::data)++rest) (hs : Sound lay)
    (hf : Filled lay (u::fc::data)) (hhead : 2≤lay.head)
    (ho : lay.overrunAt (lay.count (u::fc::data))=none)
    (hc : crcBytes ((u::fc::data).take (lay.covered (lay.count (u::fc::data))))=
      crcBytes (u::fc::data)) {p : Nmbs σ Unit} {k : List Byte → Nmbs σ Unit}
    (hr : Received lay (tagged s u fc false false) u fc (s.line.rx.drop 2) p k)
    (hk : ∀ t : Machine σ,k (sealed (u::fc::data)) t=(.ok (),t) ∨
      ∃ e,nmbsErrorIsException e=true ∧ k (sealed (u::fc::data)) t=(.err e,t)) :
    Passed s (sealed (u::fc::data)).length (p (headed s u fc)) := by
  have hopen : arrivals s.line.rx=u::fc::(data++crcBytes (u::fc::data)++rest) := hbs
  have hreceive := receive_whole hs hf ho hc rest
  have hspan := span_whole hs hf rest
  have hrun := received_whole hopen hhead hr (by rw [hbs]; exact hreceive)
  rw [hbs,hspan,take_whole] at hrun
  rw [hrun,Passed]
  rcases hk (reading (tagged s u fc false false) (lay.kept (sealed (u::fc::data)++rest)) []
    (s.line.rx.drop (sealed (u::fc::data)).length) false) with h | ⟨e,he,h⟩
  · rw [h]
    exact ⟨rfl,rfl,.inl rfl⟩
  · rw [h]
    exact ⟨rfl,rfl,.inr ⟨e,he,rfl⟩⟩

/-- A message with a byte count has the length that its layout says. -/
theorem filled_counted (lay : Layout) (hhead : lay.head=3) (hcount : lay.countAt=some 2)
    (u fc : Byte) {count : Byte} {bs : List Byte} (h : bs.length=count.toNat) :
    lay.count (u::fc::count::bs)=count.toNat ∧ Filled lay (u::fc::count::bs) := by
  have hc : lay.count (u::fc::count::bs)=count.toNat := by
    rw [Layout.count,hcount]
    rfl
  refine ⟨hc,?_⟩
  rw [Filled,hc,hhead,List.length_cons,List.length_cons,List.length_cons,h]
  omega

section Cases

variable {s : Machine σ} {rest : List Byte}

/-- A response with coils passes. -/
theorem passed_bits {count : Byte} {bs : List Byte} (hcount : bs.length=count.toNat)
    (hbs : arrivals s.line.rx=sealed (s.msg.unitId::s.msg.fc::count::bs)++rest) :
    Passed s (sealed (s.msg.unitId::s.msg.fc::count::bs)).length (recvReadDiscreteRes s) := by
  have hr := (counted_droppedBytes (tagged s s.msg.unitId s.msg.fc false false) s.msg.unitId
    s.msg.fc).received (fun _ _ => pure ()) (fun _ _ _ _ _ ho => (overruns_records ho).elim)
    (s.line.rx.drop 2)
  simp only [bind_pure_unit] at hr
  obtain ⟨hc,hf⟩ := filled_counted recordsLayout rfl rfl s.msg.unitId s.msg.fc hcount
  have hcovered : crcBytes ((s.msg.unitId::s.msg.fc::count::bs).take
      (recordsLayout.covered (recordsLayout.count (s.msg.unitId::s.msg.fc::count::bs))))=
      crcBytes (s.msg.unitId::s.msg.fc::count::bs) := by
    rw [hc,List.take_of_length_le (by
      simp only [recordsLayout,List.length_cons]
      omega)]
  have hpass := passed_received hbs sound_records hf (by decide) rfl hcovered hr
    (fun t => .inl rfl)
  rw [recvReadDiscreteRes,recvResHeader_match s hbs]
  exact hpass

/-- A response with as many registers as were asked for passes. -/
theorem passed_words {count : Byte} {bs : List Byte} (hcount : bs.length=count.toNat)
    {quantity : Word} (hq : count.toNat=quantity.toNat*2)
    (hbs : arrivals s.line.rx=sealed (s.msg.unitId::s.msg.fc::count::bs)++rest) :
    Passed s (sealed (s.msg.unitId::s.msg.fc::count::bs)).length
      (recvReadRegistersRes quantity s) := by
  have hr := (counted_droppedRegs (tagged s s.msg.unitId s.msg.fc false false) s.msg.unitId
    s.msg.fc).received
    (fun a _ => if a.toNat≠quantity.toNat*2 then fail .errorInvalidResponse else pure ())
    (fun _ _ _ _ _ ho => by simp only [registersResLayout,reduceCtorEq] at ho)
    (s.line.rx.drop 2)
  obtain ⟨hc,hf⟩ := filled_counted registersResLayout rfl rfl s.msg.unitId s.msg.fc hcount
  have hcovered : crcBytes ((s.msg.unitId::s.msg.fc::count::bs).take
      (registersResLayout.covered (registersResLayout.count (s.msg.unitId::s.msg.fc::count::bs))))=
      crcBytes (s.msg.unitId::s.msg.fc::count::bs) := by
    rw [hc,List.take_of_length_le (by
      simp only [registersResLayout,List.length_cons]
      omega)]
  have hpass := passed_received hbs sound_registersRes hf (by decide) rfl hcovered hr
    (fun t => .inl (congrFun (if_neg (not_not.mpr hq)) t))
  rw [recvReadRegistersRes,recvResHeader_match s hbs]
  exact hpass

/-- A response that repeats the two words of the request passes. -/
theorem passed_echo (first second : Word)
    (hbs : arrivals s.line.rx=
      sealed ([s.msg.unitId,s.msg.fc]++wordBytes first++wordBytes second)++rest) :
    Passed s (sealed ([s.msg.unitId,s.msg.fc]++wordBytes first++wordBytes second)).length
      (recvEchoRes first second s) := by
  have hr := received_words (tagged s s.msg.unitId s.msg.fc false false) s.msg.unitId s.msg.fc
    (s.line.rx.drop 2) fun a b => if a≠first then fail .errorInvalidResponse
      else if b≠second then fail .errorInvalidResponse else pure ()
  have hfirst : wordAt (sealed ([s.msg.unitId,s.msg.fc]++wordBytes first++wordBytes second)) 2=
      first := wordOf_bytes first
  have hsecond : wordAt (sealed ([s.msg.unitId,s.msg.fc]++wordBytes first++wordBytes second)) 4=
      second := wordOf_bytes second
  have hjudge : ∀ t : Machine σ,(if wordAt (sealed ([s.msg.unitId,s.msg.fc]++wordBytes first++
        wordBytes second)) 2≠first then fail .errorInvalidResponse
      else if wordAt (sealed ([s.msg.unitId,s.msg.fc]++wordBytes first++wordBytes second)) 4≠second
        then fail .errorInvalidResponse else pure () : Nmbs σ Unit) t=(.ok (),t) := by
    intro t
    rw [hfirst,hsecond,if_neg (not_not.mpr rfl),if_neg (not_not.mpr rfl)]
    rfl
  have hpass := passed_received (p:=recv 4>>=fun _ => get2>>=fun a => get2>>=fun b =>
    recvMsgFooter>>=fun _ => if a≠first then fail .errorInvalidResponse
      else if b≠second then fail .errorInvalidResponse else pure ()) hbs (sound_fixed 6) rfl
    (by decide) rfl rfl hr (fun t => .inl (hjudge t))
  rw [recvEchoRes,recvResHeader_match s hbs]
  exact hpass

/-- The error of a received exception code is that exception. -/
theorem receivedException_exception {code : Byte} (hlo : 1≤code.toNat) (hhi : code.toNat≤4) :
    nmbsErrorIsException (receivedException code)=true := by
  rw [receivedException,if_neg (by omega)]
  generalize code.toNat=n at hlo hhi
  split <;> rfl

/-- An exception response passes. -/
theorem passed_exception (hfc : s.msg.fc.toNat<128) {code : Byte} (hlo : 1≤code.toNat)
    (hhi : code.toNat≤4)
    (hbs : arrivals s.line.rx=sealed [s.msg.unitId,s.msg.fc+0x80#8,code]++rest)
    (k : Nmbs σ Unit) :
    Passed s (sealed [s.msg.unitId,s.msg.fc+0x80#8,code]).length
      ((recvResHeader>>=fun _ => k) s) := by
  have hadd : (s.msg.fc+0x80#8).toNat=s.msg.fc.toNat+128 := by
    rw [BitVec.toNat_add]
    simp only [BitVec.toNat_ofNat,Nat.reducePow,Nat.reduceMod]
    omega
  have hne : s.msg.fc+0x80#8≠s.msg.fc := by
    intro h
    rw [h] at hadd
    omega
  have hopen : arrivals s.line.rx=
      s.msg.unitId::(s.msg.fc+0x80#8)::(code::crcBytes [s.msg.unitId,s.msg.fc+0x80#8,code]++rest) :=
    hbs
  have hunit : unitId s=(.ok s.msg.unitId,s) := rfl
  have hunit' : unitId (headed s s.msg.unitId (s.msg.fc+0x80#8))=
      (.ok s.msg.unitId,headed s s.msg.unitId (s.msg.fc+0x80#8)) := rfl
  have hres : recvResHeader s=recvException (headed s s.msg.unitId (s.msg.fc+0x80#8)) := by
    rw [recvResHeader,bind_ok hunit,gets_bind,bind_ok (recvMsgHeader_full s hopen),
      if_neg (not_not.mpr rfl)]
    refine (bind_ok hunit').trans ?_
    rw [if_neg (not_not.mpr rfl),gets_bind]
    refine (congrFun (if_pos hne) _).trans (congrFun (if_pos ?_) _)
    change ((s.msg.fc+0x80#8).toNat : ℤ)-0x80=s.msg.fc.toNat
    omega
  have hr := received_exception (tagged s s.msg.unitId (s.msg.fc+0x80#8) false false)
    s.msg.unitId (s.msg.fc+0x80#8) (s.line.rx.drop 2)
    fun a => (fail (receivedException a) : Nmbs σ Unit)>>=fun _ => k
  have hpass := passed_received hbs (sound_fixed 3) rfl (by decide) rfl rfl hr
    (fun t => .inr ⟨receivedException code,receivedException_exception hlo hhi,rfl⟩)
  rw [bind_of_run hres,recvException]
  simp only [bind_assoc]
  exact hpass

end Cases

/-- A response to a request for another unit passes. -/
theorem dropResponse_passed {s : Machine σ} (frame : List Byte) {data rest : List Byte}
    {lay : Layout} (hl : requestLayout s.msg.fc=some lay) (hplain : s.msg.fc.toNat≤16)
    (hd : Responds s.msg.unitId s.msg.fc frame data)
    (hbs : arrivals s.line.rx=sealed data++rest) :
    Passed s (sealed data).length (dropResponse s.msg.fc frame s) := by
  rw [requestLayout] at hl
  rw [dropResponse]
  cases hd with
  | bits hfc count bs hcount =>
    have hpass := passed_bits hcount hbs
    rcases hfc with hfc | hfc
    · rw [hfc]
      exact hpass
    · rw [hfc]
      exact hpass
  | words hfc count bs hcount hq =>
    have hpass := passed_words hcount hq hbs
    rcases hfc with hfc | hfc
    · rw [hfc]
      exact hpass
    · rw [hfc]
      exact hpass
  | echo hfc =>
    have hpass := passed_echo _ _ hbs
    rcases hfc with hfc | hfc | hfc
    · rw [hfc]
      exact hpass
    · rw [hfc]
      exact hpass
    · rw [hfc]
      exact hpass
  | exception hfc code hlo hhi =>
    have hpass := fun k => passed_exception hfc hlo hhi hbs k
    generalize s.msg.fc.toNat=n at hl hplain ⊢
    split at hl
    · exact hpass _
    · exact hpass _
    · exact hpass _
    · exact hpass _
    · exact hpass _
    · exact hpass _
    · exact hpass _
    · omega
    · omega
    · omega
    · cases hl

end CyclotronPico.Exchanges
