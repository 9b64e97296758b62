import CyclotronPico.Frames
import CyclotronPico.NanomodbusServer

/-!
# Receiving a message

The library between two bytes of a message: the bytes before the cursor have
been taken, some more are in the buffer, the rest is on the line. Each
receiving function moves these borders and touches nothing else; composed,
they receive a message as its layout says.
-/

namespace CyclotronPico.Reception

open BitBuffer Effects PicoController Nanomodbus NanomodbusServer Frames

variable {σ : Type}

/-- A buffer with its first bytes replaced. -/
@[irreducible] def overlay (buf : Vector Byte 260) (xs : List Byte) : Vector Byte 260 :=
  Vector.ofFn fun i : Fin 260 => (xs[i.val]?).getD buf[i]

/-- The library in the middle of a message: `xs` before the cursor, `ys` in
the buffer after it, `rx` still to come. -/
def reading (base : Machine σ) (xs ys : List Byte) (rx : List (Option Byte)) (led : Bool) :
    Machine σ :=
  ⟨{base.msg with buf := overlay base.msg.buf (xs++ys), bufIdx := xs.length},
    ⟨rx,base.line.tx,led⟩,base.app⟩

/-- The state after a reception that was cut short by a silence. -/
def Starved (base : Machine σ) (rx : List (Option Byte)) (t : Machine σ) : Prop :=
  t.app=base.app ∧ t.line=⟨afterSilence rx,base.line.tx,false⟩

/-- Nothing transmitted and nothing done. -/
def Kept (base t : Machine σ) : Prop := t.app=base.app ∧ t.line.tx=base.line.tx

/-- A byte of a buffer with its first bytes replaced. -/
theorem overlay_get (buf : Vector Byte 260) (xs : List Byte) {i : ℕ} (h : i<260) :
    (overlay buf xs)[i]=(xs[i]?).getD buf[i] := by
  unfold overlay
  rw [Vector.getElem_ofFn]
  rfl

/-- The first bytes of the buffer are those put there. -/
theorem overlay_take (buf : Vector Byte 260) (xs ys : List Byte) (h : xs.length≤260) :
    (overlay buf (xs++ys)).toList.take xs.length=xs := by
  apply List.ext_getElem
  · rw [List.length_take,Vector.length_toList,Nat.min_eq_left h]
  · intro i hi hx
    rw [List.getElem_take,Vector.getElem_toList,overlay_get _ _ (by omega),
      List.getElem?_append_left hx,List.getElem?_eq_getElem hx,Option.getD_some]

/-- Writing one byte more extends the replaced part. -/
theorem overlay_set (buf : Vector Byte 260) (xs : List Byte) (b : Byte) (zs : List Byte)
    {i : ℕ} (hx : i=xs.length) (hi : i<260) :
    (overlay buf (xs++zs)).set i b=overlay buf (xs++b::zs.drop 1) := by
  apply Vector.ext
  intro k hk
  rw [Vector.getElem_set,overlay_get _ _ hk,overlay_get _ _ hk]
  by_cases he : i=k
  · subst hx he
    rw [if_pos rfl,List.getElem?_append_right le_rfl,Nat.sub_self]
    rfl
  · rw [if_neg he]
    by_cases hl : k<xs.length
    · rw [List.getElem?_append_left hl,List.getElem?_append_left hl]
    · obtain ⟨j,rfl⟩ := Nat.exists_eq_add_of_lt (by omega : xs.length<k)
      have hj : xs.length+j+1-xs.length=j+1 := by omega
      rw [List.getElem?_append_right (by omega),List.getElem?_append_right (by omega),hj,
        List.getElem?_cons_succ,List.getElem?_drop,Nat.add_comm 1 j]

/-- Replacing bytes by what the buffer holds changes nothing. -/
theorem overlay_extend (buf : Vector Byte 260) (xs : List Byte) (n : ℕ) :
    overlay buf (xs++(buf.toList.drop xs.length).take n)=overlay buf xs := by
  apply Vector.ext
  intro i hi
  rw [overlay_get _ _ hi,overlay_get _ _ hi]
  by_cases hl : i<xs.length
  · rw [List.getElem?_append_left hl]
  · rw [List.getElem?_append_right (by omega),List.getElem?_eq_none (by omega : xs.length ≤ i),
      List.getElem?_take]
    split
    · rw [List.getElem?_drop,List.getElem?_eq_getElem (by rw [Vector.length_toList]; omega)]
      simp only [Option.getD_some,Option.getD_none,Vector.getElem_toList]
      congr 1
      omega
    · rfl

/-! ### Storing and taking bytes -/

/-- Bytes that fit are stored after the cursor. -/
theorem storeBytes_fit (base : Machine σ) (xs ys : List Byte) (rx : List (Option Byte))
    (led : Bool) (us zs : List Byte) (h : xs.length+us.length+zs.length≤260) :
    storeBytes (xs.length+us.length) zs (reading base xs (us++ys) rx led)=
      (.ok (),reading base xs (us++zs++ys.drop zs.length) rx led) := by
  induction zs generalizing us ys with
  | nil => simp only [storeBytes,pure_run,List.append_nil,List.length_nil,List.drop_zero]
  | cons b zs ih =>
    rw [List.length_cons] at h
    have hset := overlay_set base.msg.buf (xs++us) b ys
      List.length_append.symm (by omega)
    have hw : writeBuf (xs.length+us.length) b (reading base xs (us++ys) rx led)=
        (.ok (),reading base xs ((us++[b])++ys.drop 1) rx led) := by
      unfold writeBuf
      rw [dif_pos (by omega)]
      unfold reading
      simp only [List.append_assoc,List.cons_append,List.nil_append] at hset ⊢
      rw [hset]
    have hl : xs.length+(us++[b]).length=xs.length+us.length+1 := by
      rw [List.length_append,List.length_singleton]
      omega
    have hnext := ih (ys.drop 1) (us++[b]) (by omega)
    have hd : (ys.drop 1).drop zs.length=ys.drop (b::zs).length := by
      rw [List.drop_drop,List.length_cons,Nat.add_comm 1]
    have ha : us++[b]++zs=us++b::zs := by rw [List.append_assoc,List.singleton_append]
    rw [hl,hd,ha] at hnext
    rw [storeBytes,bind_ok hw]
    exact hnext

/-- Bytes that do not fit leave the buffer; nothing else is touched. -/
theorem storeBytes_over (s : Machine σ) {i : ℕ} (zs : List Byte) (hi : i≤260)
    (h : 260 < i+zs.length) :
    ∃ x t,storeBytes i zs s=(.fault x,t) ∧ t.app=s.app ∧ t.line=s.line := by
  induction zs generalizing i s with
  | nil => exact absurd h (Nat.not_lt.mpr hi)
  | cons b zs ih =>
    rw [List.length_cons] at h
    by_cases hlt : i<260
    · have hw : writeBuf i b s=(.ok (),{s with msg.buf := s.msg.buf.set i b}) := dif_pos hlt
      rw [storeBytes,bind_ok hw]
      exact ih _ (by omega) (by omega)
    · have hw : writeBuf i b s=(.fault (.msgBuf i),s) := dif_neg hlt
      rw [storeBytes,bind_fault hw]
      exact ⟨_,_,rfl,rfl,rfl⟩

/-- The cursor stands after the bytes taken. -/
theorem bufIdx_reading (base : Machine σ) (xs ys : List Byte) (rx : List (Option Byte))
    (led : Bool) : bufIdx (reading base xs ys rx led)=(.ok xs.length,reading base xs ys rx led) :=
  rfl

/-- Skipping bytes of the buffer. -/
theorem discardN_reading (base : Machine σ) (xs zs ys : List Byte) (rx : List (Option Byte))
    (led : Bool) {n : ℕ} (hn : zs.length=n) (h : xs.length+n<65536) :
    discardN n (reading base xs (zs++ys) rx led)=(.ok (),reading base (xs++zs) ys rx led) := by
  unfold discardN reading
  rw [modify_run]
  simp only [List.append_assoc,List.length_append,hn,Nat.mod_eq_of_lt h]

/-- The bytes of the buffer. -/
theorem readBuf_reading (base : Machine σ) (xs ys : List Byte) (rx : List (Option Byte))
    (led : Bool) {b : Byte} {i : ℕ} (hb : (xs++ys)[i]?=some b) (h : i<260) :
    readBuf i (reading base xs ys rx led)=(.ok b,reading base xs ys rx led) := by
  have ho : (overlay base.msg.buf (xs++ys))[i]=b := by
    rw [overlay_get _ _ h,hb,Option.getD_some]
  rw [readBuf,dif_pos h]
  exact Prod.ext (congrArg Outcome.ok ho) rfl

/-- The bytes before the cursor. -/
theorem readBufUpTo_reading (base : Machine σ) (xs ys : List Byte) (rx : List (Option Byte))
    (led : Bool) (h : xs.length≤260) :
    readBufUpTo xs.length (reading base xs ys rx led)=(.ok xs,reading base xs ys rx led) := by
  rw [readBufUpTo,if_pos h]
  exact Prod.ext (congrArg Outcome.ok (overlay_take base.msg.buf xs ys h)) rfl

/-- Taking the next byte. -/
theorem get1_reading (base : Machine σ) (xs ys : List Byte) (rx : List (Option Byte))
    (led : Bool) (b : Byte) (h : xs.length<260) :
    get1 (reading base xs (b::ys) rx led)=(.ok b,reading base (xs++[b]) ys rx led) := by
  have hb : (xs++b::ys)[xs.length]?=some b := by
    rw [List.getElem?_append_right le_rfl,Nat.sub_self,List.getElem?_cons_zero]
  have hd : discardN 1 (reading base xs (b::ys) rx led)=(.ok (),reading base (xs++[b]) ys rx led) :=
    discardN_reading base xs [b] ys rx led rfl (by omega)
  rw [get1,bind_ok (bufIdx_reading ..),bind_ok (readBuf_reading base xs (b::ys) rx led hb h),
    bind_ok hd]
  rfl

/-- Taking the next word. -/
theorem get2_reading (base : Machine σ) (xs ys : List Byte) (rx : List (Option Byte))
    (led : Bool) (high low : Byte) (h : xs.length+1<260) :
    get2 (reading base xs (high::low::ys) rx led)=
      (.ok (wordOf high low),reading base (xs++[high,low]) ys rx led) := by
  have hh : (xs++high::low::ys)[xs.length]?=some high := by
    rw [List.getElem?_append_right le_rfl,Nat.sub_self,List.getElem?_cons_zero]
  have hl : (xs++high::low::ys)[xs.length+1]?=some low := by
    rw [List.getElem?_append_right (by omega),Nat.add_sub_cancel_left,List.getElem?_cons_succ,
      List.getElem?_cons_zero]
  have hd : discardN 2 (reading base xs (high::low::ys) rx led)=
      (.ok (),reading base (xs++[high,low]) ys rx led) :=
    discardN_reading base xs [high,low] ys rx led rfl (by omega)
  rw [get2,bind_ok (bufIdx_reading ..),bind_ok (readBuf_reading base xs _ rx led hh (by omega)),
    bind_ok (readBuf_reading base xs _ rx led hl h),bind_ok hd]
  rfl

/-! ### Receiving -/

/-- Only the line is changed by what happens on the line. -/
theorem reading_line (base : Machine σ) (xs ys : List Byte) (rx rx' : List (Option Byte))
    (led led' : Bool) :
    {reading base xs ys rx led with line := ⟨rx',base.line.tx,led'⟩}=
      reading base xs ys rx' led' := by
  rw [reading]
  rfl

/-- A read of the transport, followed by the stores of its bytes. -/
theorem platformRead_eq (base : Machine σ) (xs ys : List Byte) (rx rx' : List (Option Byte))
    (led led' first last : Bool) (i count : ℕ) (zs : List Byte) (ret : ℤ)
    (h : readUart count first last ⟨rx,base.line.tx,led⟩=(zs,ret,⟨rx',base.line.tx,led'⟩)) :
    platformRead i count first last (reading base xs ys rx led)=
      (storeBytes i zs>>=fun _ => pure ret) (reading base xs ys rx' led') := by
  have hline : (reading base xs ys rx led).line=⟨rx,base.line.tx,led⟩ := rfl
  rw [platformRead,gets_bind,modify_bind,hline,h,reading_line]

/-- The transport reads bytes that come into the buffer after the cursor. -/
theorem platformRead_full (base : Machine σ) (xs ys : List Byte) (rx : List (Option Byte))
    (led first last : Bool) {i count : ℕ} (hi : i=xs.length) (h : count≤(arrivals rx).length)
    (hfit : i+count≤260) :
    platformRead i count first last (reading base xs ys rx led)=
      (.ok (count : ℤ),reading base xs ((arrivals rx).take count++ys.drop count) (rx.drop count)
        (!last && litBy first ((arrivals rx).take count) led)) := by
  have hlen : ((arrivals rx).take count).length=count := by
    rw [List.length_take,Nat.min_eq_left h]
  have hread := readUart_full first last ((arrivals rx).take count) ⟨rx,base.line.tx,led⟩
    (arrivals_split rx h)
  have hstore := storeBytes_fit base xs ys (rx.drop count)
    (!last && litBy first ((arrivals rx).take count) led) [] ((arrivals rx).take count)
    (by rw [hlen,List.length_nil]; omega)
  rw [hlen] at hread
  simp only [List.length_nil,Nat.add_zero,List.nil_append,hlen] at hstore
  rw [platformRead_eq base xs ys rx _ led _ first last i count _ _ hread,hi,bind_ok hstore]
  rfl

/-- The transport gives up at a silence with fewer bytes than wanted. -/
theorem platformRead_short (base : Machine σ) (xs ys : List Byte) (rx : List (Option Byte))
    (led first last : Bool) {i count : ℕ} (hi : i=xs.length) (h : (arrivals rx).length<count)
    (hfit : i+(arrivals rx).length≤260) :
    ∃ t,platformRead i count first last (reading base xs ys rx led)=
      (.ok ((arrivals rx).length : ℤ),t) ∧ Starved base rx t := by
  have hread := readUart_short first last ⟨rx,base.line.tx,led⟩ h
  have hstore := storeBytes_fit base xs ys (afterSilence rx) false [] (arrivals rx)
    (by rw [List.length_nil]; omega)
  simp only [List.length_nil,Nat.add_zero,List.nil_append] at hstore
  rw [platformRead_eq base xs ys rx _ led _ first last i count _ _ hread,hi,bind_ok hstore]
  exact ⟨_,rfl,rfl,rfl⟩

/-- The transport is asked for bytes that do not fit and that come. -/
theorem platformRead_over (base : Machine σ) (xs ys : List Byte) (rx : List (Option Byte))
    (led first last : Bool) {i count : ℕ} (hi : i≤260) (h : 260 < i+min count (arrivals rx).length) :
    ∃ x t,platformRead i count first last (reading base xs ys rx led)=(.fault x,t) ∧
      Kept base t := by
  by_cases hc : count≤(arrivals rx).length
  · have hlen : ((arrivals rx).take count).length=count := by
      rw [List.length_take,Nat.min_eq_left hc]
    have hread := readUart_full first last ((arrivals rx).take count) ⟨rx,base.line.tx,led⟩
      (arrivals_split rx hc)
    rw [hlen] at hread
    rw [platformRead_eq base xs ys rx _ led _ first last i count _ _ hread]
    obtain ⟨x,t,ht,happ,hline⟩ := storeBytes_over (reading base xs ys (rx.drop count)
      (!last && litBy first ((arrivals rx).take count) led)) ((arrivals rx).take count) hi
      (by omega)
    exact ⟨x,t,bind_fault ht,happ,by rw [hline]; rfl⟩
  · have hread := readUart_short first last ⟨rx,base.line.tx,led⟩ (not_le.mp hc)
    rw [platformRead_eq base xs ys rx _ led _ first last i count _ _ hread]
    obtain ⟨x,t,ht,happ,hline⟩ := storeBytes_over (reading base xs ys (afterSilence rx) false)
      (arrivals rx) hi (by omega)
    exact ⟨x,t,bind_fault ht,happ,by rw [hline]; rfl⟩

/-- Receiving bytes that come. -/
theorem recvBytes_full (base : Machine σ) (xs ys : List Byte) (rx : List (Option Byte))
    (led first last : Bool) {count : ℕ} (h : count≤(arrivals rx).length)
    (hfit : xs.length+count≤260) :
    recvBytes count first last (reading base xs ys rx led)=
      (.ok (),reading base xs ((arrivals rx).take count++ys.drop count) (rx.drop count)
        (!last && litBy first ((arrivals rx).take count) led)) := by
  rw [recvBytes,bind_ok (bufIdx_reading ..),
    bind_ok (platformRead_full base xs ys rx led first last rfl h hfit),if_pos rfl]
  rfl

/-- Receiving more bytes than come before the next silence. -/
theorem recvBytes_short (base : Machine σ) (xs ys : List Byte) (rx : List (Option Byte))
    (led first last : Bool) {count : ℕ} (h : (arrivals rx).length<count)
    (hfit : xs.length+(arrivals rx).length≤260) :
    ∃ t,recvBytes count first last (reading base xs ys rx led)=(.err .errorTimeout,t) ∧
      Starved base rx t := by
  obtain ⟨t,ht,hs⟩ := platformRead_short base xs ys rx led first last rfl h hfit
  refine ⟨t,?_,hs⟩
  rw [recvBytes,bind_ok (bufIdx_reading ..),bind_ok ht,if_neg (by omega),if_pos (by omega),
    if_neg (by omega),fail_run]

/-- Receiving more bytes than fit. -/
theorem recvBytes_over (base : Machine σ) (xs ys : List Byte) (rx : List (Option Byte))
    (led first last : Bool) {count : ℕ} (hx : xs.length≤260)
    (h : 260<xs.length+min count (arrivals rx).length) :
    ∃ x t,recvBytes count first last (reading base xs ys rx led)=(.fault x,t) ∧ Kept base t := by
  obtain ⟨x,t,ht,hk⟩ := platformRead_over base xs ys rx led first last hx h
  refine ⟨x,t,?_,hk⟩
  rw [recvBytes,bind_ok (bufIdx_reading ..),bind_fault ht]

/-- Receiving bytes in the middle of a message. -/
theorem recv_full (base : Machine σ) (xs ys : List Byte) (rx : List (Option Byte)) (led : Bool)
    {count : ℕ} (h : count≤(arrivals rx).length) (hfit : xs.length+count≤260)
    (hy : ys.length≤count) :
    recv count (reading base xs ys rx led)=
      (.ok (),reading base xs ((arrivals rx).take count) (rx.drop count) led) := by
  have hr := recvBytes_full base xs ys rx led false false h hfit
  rw [List.drop_eq_nil_of_le hy,List.append_nil] at hr
  exact hr

/-- The checksum that comes is compared with that of the bytes before the cursor. -/
theorem recvMsgFooter_full (base : Machine σ) (xs ys : List Byte) (rx : List (Option Byte))
    (led : Bool) (h : 2≤(arrivals rx).length) (hfit : xs.length+2≤260) (hy : ys.length≤2) :
    recvMsgFooter (reading base xs ys rx led)=
      (if (arrivals rx).take 2=crcBytes xs then .ok () else .err .errorCrc,
        reading base (xs++(arrivals rx).take 2) [] (rx.drop 2) false) := by
  obtain ⟨low,high,hbytes⟩ : ∃ low high,(arrivals rx).take 2=[low,high] := by
    match arrivals rx,h with
    | low::high::_,_ => exact ⟨low,high,rfl⟩
  have hrecv := recvBytes_full base xs ys rx led false true h hfit
  rw [List.drop_eq_nil_of_le hy,List.append_nil,hbytes] at hrecv
  rw [recvMsgFooter,bind_ok (bufIdx_reading ..),
    bind_ok (readBufUpTo_reading base xs ys rx led (by omega))]
  rw [bind_ok hrecv,bind_ok (get2_reading base xs [] (rx.drop 2) _ low high (by omega)),hbytes]
  by_cases hcrc : [low,high]=crcBytes xs
  · rw [if_pos hcrc,if_neg (not_not.mpr ((wordOf_eq_crc low high xs).mpr hcrc))]
    rfl
  · rw [if_neg hcrc,if_pos (fun hw => hcrc ((wordOf_eq_crc low high xs).mp hw))]
    rfl

/-- The checksum does not come. -/
theorem recvMsgFooter_short (base : Machine σ) (xs ys : List Byte) (rx : List (Option Byte))
    (led : Bool) (h : (arrivals rx).length<2) (hx : xs.length≤260)
    (hfit : xs.length+(arrivals rx).length≤260) :
    ∃ t,recvMsgFooter (reading base xs ys rx led)=(.err .errorTimeout,t) ∧ Starved base rx t := by
  obtain ⟨t,ht,hs⟩ := recvBytes_short base xs ys rx led false true h hfit
  refine ⟨t,?_,hs⟩
  rw [recvMsgFooter,bind_ok (bufIdx_reading ..),
    bind_ok (readBufUpTo_reading base xs ys rx led (by omega))]
  rw [bind_err ht]

/-- The checksum comes but does not fit. -/
theorem recvMsgFooter_over (base : Machine σ) (xs ys : List Byte) (rx : List (Option Byte))
    (led : Bool) (hx : xs.length≤260) (h : 260<xs.length+min 2 (arrivals rx).length) :
    ∃ x t,recvMsgFooter (reading base xs ys rx led)=(.fault x,t) ∧ Kept base t := by
  obtain ⟨x,t,ht,hk⟩ := recvBytes_over base xs ys rx led false true hx h
  refine ⟨x,t,?_,hk⟩
  rw [recvMsgFooter,bind_ok (bufIdx_reading ..),
    bind_ok (readBufUpTo_reading base xs ys rx led (by omega))]
  rw [bind_fault ht]

/-! ### Whole messages -/

/-- How a program that starts after the unit and the function code of a
message receives the rest of it, to go on as `k` with the bytes of the
message. -/
def Received (lay : Layout) (base : Machine σ) (u fc : Byte) (rx : List (Option Byte))
    (p : Nmbs σ Unit) (k : List Byte → Nmbs σ Unit) : Prop :=
  let bs := u::fc::arrivals rx
  let result := p (reading base [u,fc] [] rx true)
  let next := reading base (lay.kept bs) [] (rx.drop (lay.span bs-2)) false
  match lay.receive bs with
  | .timeout => ∃ t,result=(.err .errorTimeout,t) ∧ Starved base rx t
  | .overrun => ∃ x t,result=(.fault x,t) ∧ Kept base t
  | .badCrc => result=(.err .errorCrc,next)
  | .frame => result=k (bs.take (lay.span bs)) next

/-- Taking arrivals does not change where a silence leads. -/
theorem starved_drop {base t : Machine σ} {rx : List (Option Byte)} {m : ℕ}
    (hm : m≤(arrivals rx).length) (h : Starved base (rx.drop m) t) : Starved base rx t := by
  refine ⟨h.1,?_⟩
  rw [h.2,afterSilence_drop rx hm]

/-- The end of a message that fits: once its content has been taken, the
checksum decides how its reception ends. -/
theorem received_footer {lay : Layout} {base : Machine σ} {u fc : Byte}
    {rx : List (Option Byte)} {p : Nmbs σ Unit} {k : List Byte → Nmbs σ Unit}
    (xs ys : List Byte) {m : ℕ} (hm : m≤(arrivals rx).length)
    (hhead : lay.head+lay.count (u::fc::arrivals rx)=m+2)
    (ho : lay.overrunAt (lay.count (u::fc::arrivals rx))=none)
    (hx : xs=(u::fc::arrivals rx).take (lay.covered (lay.count (u::fc::arrivals rx))))
    (hfit : xs.length+2≤260) (hy : ys.length≤2)
    (hp : p (reading base [u,fc] [] rx true)=
      (recvMsgFooter>>=fun _ => k ((u::fc::arrivals rx).take (lay.span (u::fc::arrivals rx))))
        (reading base xs ys (rx.drop m) true)) :
    Received lay base u fc rx p k := by
  have has := arrivals_drop rx hm
  have hspan : lay.span (u::fc::arrivals rx)=m+4 := by
    rw [Layout.span]
    omega
  have hlen : (u::fc::arrivals rx).length=(arrivals rx).length+2 := rfl
  rw [hspan] at hp
  unfold Received Layout.receive
  dsimp only
  rw [if_neg (by omega),ho,hspan,hlen]
  dsimp only
  by_cases hshort : (arrivals rx).length+2 < m+4
  · rw [if_pos hshort]
    obtain ⟨t,ht,hs⟩ := recvMsgFooter_short base xs ys (rx.drop m) true
      (by rw [has,List.length_drop]; omega) (by omega) (by rw [has,List.length_drop]; omega)
    exact ⟨t,by rw [hp,bind_err ht],starved_drop hm hs⟩
  · have hdrop : (u::fc::arrivals rx).drop (lay.head+lay.count (u::fc::arrivals rx))=
        (arrivals rx).drop m := by
      rw [hhead,List.drop_succ_cons,List.drop_succ_cons]
    have hf := recvMsgFooter_full base xs ys (rx.drop m) true
      (by rw [has,List.length_drop]; omega) hfit hy
    rw [has,List.drop_drop] at hf
    have hnext : lay.kept (u::fc::arrivals rx)=xs++((arrivals rx).drop m).take 2 := by
      rw [Layout.kept,hdrop,hx]
    have hrest : m+4-2=m+2 := by omega
    rw [if_neg hshort,hdrop,←hx,hnext,hrest]
    by_cases hcrc : ((arrivals rx).drop m).take 2=crcBytes xs
    · rw [if_pos hcrc] at hf ⊢
      dsimp only
      rw [hp,bind_ok hf]
    · rw [if_neg hcrc] at hf ⊢
      dsimp only
      rw [hp,bind_err hf]

/-- A message cut short in its head. -/
theorem received_short {lay : Layout} {base : Machine σ} {u fc : Byte}
    {rx : List (Option Byte)} {p : Nmbs σ Unit} {k : List Byte → Nmbs σ Unit} {n : ℕ}
    (hn : lay.head=n+2) (hfit : n≤200) (h : (arrivals rx).length<n) :
    Received lay base u fc rx (recv n>>=fun _ => p) k := by
  have hlen : (u::fc::arrivals rx).length=(arrivals rx).length+2 := rfl
  obtain ⟨t,ht,hs⟩ := recvBytes_short base [u,fc] [] rx true false false h
    (by simp only [List.length_cons,List.length_nil]; omega)
  unfold Received Layout.receive
  dsimp only
  rw [if_pos (by omega)]
  exact ⟨t,bind_err ht,hs⟩

/-- A message of fixed size: receive it, take its fields, check it, go on. -/
theorem received_fixed {α : Type} {lay : Layout} (n : ℕ) (hn : lay.head=n+2) (hfit : n≤200)
    (hc : lay.countAt=none) (ho : lay.overrunAt 0=none) (hk : lay.covered 0=lay.head)
    (head : Nmbs σ α) (value : List Byte → α) {base : Machine σ} {u fc : Byte}
    (hhead : ∀ zs rest rx led,zs.length=n → head (reading base [u,fc] zs rx led)=
      (.ok (value (u::fc::(zs++rest))),reading base (u::fc::zs) [] rx led))
    (rx : List (Option Byte)) (k : α → Nmbs σ Unit) :
    Received lay base u fc rx
      (recv n>>=fun _ => head>>=fun a => recvMsgFooter>>=fun _ => k a)
      (fun frame => k (value frame)) := by
  by_cases hshort : (arrivals rx).length<n
  · exact received_short hn hfit hshort
  · have hm : n≤(arrivals rx).length := not_lt.mp hshort
    have hcount : lay.count (u::fc::arrivals rx)=0 := by
      rw [Layout.count,hc]
    have htake : (u::fc::arrivals rx).take lay.head=u::fc::(arrivals rx).take n := by
      rw [hn,List.take_succ_cons,List.take_succ_cons]
    have hlen : ((arrivals rx).take n).length=n := by
      rw [List.length_take,Nat.min_eq_left hm]
    have hframe : (u::fc::arrivals rx).take (lay.span (u::fc::arrivals rx))=
        u::fc::((arrivals rx).take n++((arrivals rx).drop n).take 2) := by
      rw [Layout.span,hcount,hn,List.take_succ_cons,List.take_succ_cons,Nat.add_zero,List.take_add]
    have hr := recv_full base [u,fc] [] rx true hm
      (by simp only [List.length_cons,List.length_nil]; omega) (Nat.zero_le _)
    refine received_footer (u::fc::(arrivals rx).take n) [] hm ?_ ?_ ?_ ?_ (Nat.zero_le _) ?_
    · rw [hcount,hn,Nat.add_zero]
    · rw [hcount,ho]
    · rw [hcount,hk,htake]
    · rw [List.length_cons,List.length_cons,hlen]
      omega
    · rw [hframe,bind_ok hr,
        bind_ok (hhead _ (((arrivals rx).drop n).take 2) (rx.drop n) true hlen)]

/-- How a program that has taken the head of a message receives a content
that is too long for the arrays: `m` counts the bytes of the message. -/
def Overruns (base : Machine σ) (xs : List Byte) (rx : List (Option Byte)) (m : ℕ)
    (p : Nmbs σ Unit) : Prop :=
  if m≤xs.length+(arrivals rx).length then
    ∃ x t,p (reading base xs [] rx true)=(.fault x,t) ∧ Kept base t
  else ∃ t,p (reading base xs [] rx true)=(.err .errorTimeout,t) ∧ Starved base rx t

/-- A content that does not fit the buffer leaves it with the byte after the last. -/
theorem overruns_buffer (base : Machine σ) (xs : List Byte) (rx : List (Option Byte))
    {c : ℕ} (hx : xs.length≤260) (hc : 261≤xs.length+c) (p : Unit → Nmbs σ Unit) :
    Overruns base xs rx 261 (recv c>>=p) := by
  rw [Overruns]
  split
  · rename_i hm
    obtain ⟨x,t,ht,hk⟩ := recvBytes_over base xs [] rx true false false hx
      (by omega : 260<xs.length+min c (arrivals rx).length)
    exact ⟨x,t,bind_fault ht,hk⟩
  · obtain ⟨t,ht,hs⟩ := recvBytes_short base xs [] rx true false false
      (by omega : (arrivals rx).length<c) (by omega)
    exact ⟨t,bind_err ht,hs⟩

/-- A content that the program cannot take leaves an array once it has come. -/
theorem overruns_body {β : Type} (base : Machine σ) (xs : List Byte) (rx : List (Option Byte))
    {c : ℕ} (hfit : xs.length+c≤260) (body : Nmbs σ β) (k : β → Nmbs σ Unit)
    (hbody : ∀ ws rx,ws.length=c → ∃ x t,body (reading base xs ws rx true)=(.fault x,t) ∧
      Kept base t) :
    Overruns base xs rx (xs.length+c) (recv c>>=fun _ => body>>=k) := by
  rw [Overruns]
  split
  · rename_i hm
    have hcome : c≤(arrivals rx).length := by omega
    have hr := recv_full base xs [] rx true hcome hfit (Nat.zero_le _)
    obtain ⟨x,t,ht,hk⟩ := hbody ((arrivals rx).take c) (rx.drop c)
      (by rw [List.length_take,Nat.min_eq_left hcome])
    exact ⟨x,t,by rw [bind_ok hr,bind_fault ht],hk⟩
  · obtain ⟨t,ht,hs⟩ := recvBytes_short base xs [] rx true false false
      (by omega : (arrivals rx).length<c) (by omega)
    exact ⟨t,bind_err ht,hs⟩

/-- A content that the program cannot take leaves an array once it has come, or
the buffer before that. -/
theorem overruns_content {β : Type} (base : Machine σ) (xs : List Byte) (rx : List (Option Byte))
    {c m : ℕ} (hx : xs.length≤260) (hm : m=min 261 (xs.length+c)) (body : Nmbs σ β)
    (k : β → Nmbs σ Unit)
    (hbody : xs.length+c≤260 → ∀ ws rx,ws.length=c →
      ∃ x t,body (reading base xs ws rx true)=(.fault x,t) ∧ Kept base t) :
    Overruns base xs rx m (recv c>>=fun _ => body>>=k) := by
  by_cases hfit : xs.length+c≤260
  · have hall : m=xs.length+c := by omega
    rw [hall]
    exact overruns_body base xs rx hfit body k (hbody hfit)
  · have hfull : m=261 := by omega
    rw [hfull]
    exact overruns_buffer base xs rx hx (by omega) _

/-- What the parts of a program do that receives messages with a byte count:
`head` takes the fields before the counted bytes, `size` is the byte count
among them, `body` takes the counted bytes. -/
structure Counted {α β : Type} (lay : Layout) (n : ℕ) (head : Nmbs σ α) (size : α → ℕ)
    (body : α → Nmbs σ β) (value : List Byte → α) (content : List Byte → β)
    (base : Machine σ) (u fc : Byte) : Prop where
  /-- The head has `n` bytes after the unit and the function code. -/
  head_eq : lay.head=n+2
  /-- The head is small. -/
  small : n≤200
  /-- The byte count is its last byte. -/
  countAt_eq : lay.countAt=some (n+1)
  /-- A content that fits leaves room for the checksum. -/
  room : ∀ c,c<256 → lay.overrunAt c=none →
    n+2+c≤260 ∧ lay.covered c+2≤260 ∧ lay.covered c≤n+2+c ∧ n+c≤lay.covered c
  /-- The head is taken. -/
  head_run : ∀ zs rest rx led,zs.length=n → head (reading base [u,fc] zs rx led)=
    (.ok (value (u::fc::(zs++rest))),reading base (u::fc::zs) [] rx led)
  /-- The byte count is used. -/
  size_eq : ∀ zs rest,zs.length=n →
    size (value (u::fc::(zs++rest)))=(byteAt (u::fc::(zs++rest)) (n+1)).toNat
  /-- A content that fits is taken. -/
  body_run : ∀ zs ws rest rx led,zs.length=n →
    ws.length=size (value (u::fc::(zs++(ws++rest)))) → lay.overrunAt ws.length=none →
    body (value (u::fc::(zs++(ws++rest)))) (reading base (u::fc::zs) ws rx led)=
      (.ok (content (u::fc::(zs++(ws++rest)))),
        reading base ((u::fc::(zs++ws)).take (lay.covered ws.length))
          ((u::fc::(zs++ws)).drop (lay.covered ws.length)) rx led)

namespace Counted

variable {α β : Type} {lay : Layout} {n : ℕ} {head : Nmbs σ α} {size : α → ℕ}
  {body : α → Nmbs σ β} {value : List Byte → α} {content : List Byte → β}
  {base : Machine σ} {u fc : Byte}

/-- The byte count of the layout is the one the program uses. -/
theorem count_eq (h : Counted lay n head size body value content base u fc) {as : List Byte}
    (hm : n≤as.length) : lay.count (u::fc::as)=size (value (u::fc::as)) := by
  have hs := h.size_eq (as.take n) (as.drop n) (by rw [List.length_take,Nat.min_eq_left hm])
  rw [List.take_append_drop] at hs
  rw [Layout.count,h.countAt_eq,hs]

/-- The byte count is a byte. -/
theorem count_lt (h : Counted lay n head size body value content base u fc) (as : List Byte) :
    lay.count (u::fc::as)<256 := by
  rw [Layout.count,h.countAt_eq]
  exact (byteAt (u::fc::as) (n+1)).isLt

/-- The fields of the head depend on the head only. -/
theorem value_take (h : Counted lay n head size body value content base u fc) {as : List Byte}
    {m : ℕ} (hm : n≤as.length) (hn : n ≤ m) :
    value (u::fc::as.take m)=value (u::fc::as) := by
  have hlen : (as.take n).length=n := by rw [List.length_take,Nat.min_eq_left hm]
  have hshort := h.head_run (as.take n) ((as.take m).drop n) [] true hlen
  have hlong := h.head_run (as.take n) (as.drop n) [] true hlen
  have htake : as.take n++(as.take m).drop n=as.take m := by
    have ht := List.take_append_drop n (as.take m)
    rw [List.take_take,Nat.min_eq_left hn] at ht
    exact ht
  rw [htake] at hshort
  rw [List.take_append_drop] at hlong
  have he := congrArg Prod.fst (hshort.symm.trans hlong)
  simpa only [Outcome.ok.injEq] using he

/-- Receiving and taking the head. -/
theorem head_received (h : Counted lay n head size body value content base u fc)
    {rx : List (Option Byte)} (hm : n≤(arrivals rx).length) (p : α → Nmbs σ Unit) :
    (recv n>>=fun _ => head>>=p) (reading base [u,fc] [] rx true)=
      p (value (u::fc::arrivals rx))
        (reading base (u::fc::(arrivals rx).take n) [] (rx.drop n) true) := by
  have hlen : ((arrivals rx).take n).length=n := by rw [List.length_take,Nat.min_eq_left hm]
  have hr := recv_full base [u,fc] [] rx true hm
    (by have hs := h.small; simp only [List.length_cons,List.length_nil]; omega) (Nat.zero_le _)
  have hh := h.head_run _ ((arrivals rx).drop n) (rx.drop n) true hlen
  rw [List.take_append_drop] at hh
  rw [bind_ok hr,bind_ok hh]

/-- A content that fits and comes is received and taken. -/
theorem content_received (h : Counted lay n head size body value content base u fc)
    {rx : List (Option Byte)} (ho : lay.overrunAt (lay.count (u::fc::arrivals rx))=none)
    (hm : n+lay.count (u::fc::arrivals rx)≤(arrivals rx).length) (k : α → β → Nmbs σ Unit) :
    Received lay base u fc rx
      (recv n>>=fun _ => head>>=fun a => recv (size a)>>=fun _ => body a>>=fun b =>
        recvMsgFooter>>=fun _ => k a b)
      (fun frame => k (value frame) (content frame)) := by
  obtain ⟨hroom,hcovfit,hcovle,hcovge⟩ := h.room _ (h.count_lt (arrivals rx)) ho
  have hhead := h.head_eq
  have hmn : n≤(arrivals rx).length := by omega
  have hcount := h.count_eq hmn
  have has := arrivals_drop rx hmn
  generalize hc : lay.count (u::fc::arrivals rx)=c at *
  have hzlen : ((arrivals rx).take n).length=n := by rw [List.length_take,Nat.min_eq_left hmn]
  have hwlen : (((arrivals rx).drop n).take c).length=c := by
    rw [List.length_take,List.length_drop,Nat.min_eq_left (by omega)]
  have hframe : (u::fc::arrivals rx).take (lay.span (u::fc::arrivals rx))=
      u::fc::((arrivals rx).take n++
        (((arrivals rx).drop n).take c++(((arrivals rx).drop n).drop c).take 2)) := by
    have hs : lay.span (u::fc::arrivals rx)=n+(c+2)+2 := by
      rw [Layout.span]
      omega
    rw [hs,List.take_succ_cons,List.take_succ_cons,List.take_add,List.take_add]
  have hval : value ((u::fc::arrivals rx).take (lay.span (u::fc::arrivals rx)))=
      value (u::fc::arrivals rx) := by
    have hs : lay.span (u::fc::arrivals rx)=n+(c+2)+2 := by
      rw [Layout.span]
      omega
    rw [hs]
    exact h.value_take hmn (by omega)
  have htaken : u::fc::((arrivals rx).take n++((arrivals rx).drop n).take c)=
      (u::fc::arrivals rx).take (n+c+2) := by
    rw [List.take_succ_cons,List.take_succ_cons,List.take_add]
  have htlen : ((u::fc::arrivals rx).take (n+c+2)).length=n+c+2 := by
    rw [List.length_take,List.length_cons,List.length_cons,Nat.min_eq_left (by omega)]
  have hcome : c≤(arrivals (rx.drop n)).length := by
    rw [has,List.length_drop]
    omega
  have hrecv := recv_full base (u::fc::(arrivals rx).take n) [] (rx.drop n) true hcome
    (by rw [List.length_cons,List.length_cons,hzlen]; omega) (Nat.zero_le _)
  have hbody := h.body_run _ (((arrivals rx).drop n).take c)
    ((((arrivals rx).drop n).drop c).take 2) (rx.drop (n+c)) true hzlen
    (by rw [←hframe,hval,hwlen,hcount]) (by rw [hwlen,ho])
  rw [has,List.drop_drop] at hrecv
  rw [←hframe,hwlen,htaken,hval] at hbody
  refine received_footer (((u::fc::arrivals rx).take (n+c+2)).take (lay.covered c))
    (((u::fc::arrivals rx).take (n+c+2)).drop (lay.covered c)) hm (by omega) (by rw [hc,ho])
    ?_ ?_ ?_ ?_
  · rw [hc,List.take_take,Nat.min_eq_left (by omega)]
  · rw [List.length_take,htlen,Nat.min_eq_left (by omega)]
    exact hcovfit
  · rw [List.length_drop,htlen]
    omega
  · rw [h.head_received hmn,hval,←hcount,bind_ok hrecv,bind_ok hbody]

/-- A message with a byte count: receive its head, then as many bytes as the
count says, check it, go on. -/
theorem received (h : Counted lay n head size body value content base u fc)
    (k : α → β → Nmbs σ Unit)
    (hover : ∀ zs rest rx m,zs.length=n →
      lay.overrunAt (size (value (u::fc::(zs++rest))))=some m →
      Overruns base (u::fc::zs) rx m
        (recv (size (value (u::fc::(zs++rest))))>>=fun _ => body (value (u::fc::(zs++rest)))>>=
          fun b => recvMsgFooter>>=fun _ => k (value (u::fc::(zs++rest))) b))
    (rx : List (Option Byte)) :
    Received lay base u fc rx
      (recv n>>=fun _ => head>>=fun a => recv (size a)>>=fun _ => body a>>=fun b =>
        recvMsgFooter>>=fun _ => k a b)
      (fun frame => k (value frame) (content frame)) := by
  have hhead := h.head_eq
  by_cases hshort : (arrivals rx).length<n
  · exact received_short hhead h.small hshort
  · have hm : n≤(arrivals rx).length := not_lt.mp hshort
    have hcount := h.count_eq hm
    have has := arrivals_drop rx hm
    have hblen : (u::fc::arrivals rx).length=(arrivals rx).length+2 := rfl
    have hhlen : (u::fc::(arrivals rx).take n).length=n+2 := by
      rw [List.length_cons,List.length_cons,List.length_take,Nat.min_eq_left hm]
    cases ho : lay.overrunAt (lay.count (u::fc::arrivals rx)) with
    | some m =>
      have hov := hover ((arrivals rx).take n) ((arrivals rx).drop n) (rx.drop n) m
        (by rw [List.length_take,Nat.min_eq_left hm])
        (by rw [List.take_append_drop,←hcount,ho])
      rw [Overruns] at hov
      rw [List.take_append_drop,has,hhlen,List.length_drop] at hov
      unfold Received Layout.receive
      dsimp only
      rw [if_neg (by omega),ho,hblen,h.head_received hm]
      dsimp only
      by_cases hcome : m≤(arrivals rx).length+2
      · rw [if_pos (by omega)] at hov ⊢
        exact hov
      · rw [if_neg (by omega)] at hov ⊢
        obtain ⟨t,ht,hs⟩ := hov
        exact ⟨t,ht,starved_drop hm hs⟩
    | none =>
      by_cases hcontent : (arrivals rx).length<n+lay.count (u::fc::arrivals rx)
      · obtain ⟨hroom,_⟩ := h.room _ (h.count_lt (arrivals rx)) ho
        have hfew : (arrivals (rx.drop n)).length<lay.count (u::fc::arrivals rx) := by
          rw [has,List.length_drop]
          omega
        obtain ⟨t,ht,hs⟩ := recvBytes_short base (u::fc::(arrivals rx).take n) [] (rx.drop n)
          true false false hfew (by omega)
        unfold Received Layout.receive Layout.span
        dsimp only
        rw [if_neg (by omega),ho]
        dsimp only
        rw [if_pos (by omega),h.head_received hm,←hcount]
        exact ⟨t,bind_err ht,starved_drop hm hs⟩
      · exact h.content_received ho (not_lt.mp hcontent) k

end Counted

end CyclotronPico.Reception
