import CyclotronPico.Reception

/-!
# Receiving a request

Each handler of the library receives its request as the layout of its
function code says, and then answers it or drops the response of the unit it
was for. One statement covers all of them: the dispatcher receives a request
of the layout of the function code and goes on with what the handler does
with the fields of the message.
-/

namespace CyclotronPico.Requests

open BitBuffer Effects PicoController Nanomodbus NanomodbusServer Frames Reception

variable {σ : Type}

/-! ### Taking the content -/

/-- A bitfield with bytes placed from an index on. -/
def placed (coils : Vector Byte 250) (i : ℕ) (ws : List Byte) : Vector Byte 250 :=
  Vector.ofFn fun j : Fin 250 => if i≤j.val then (ws[j.val-i]?).getD coils[j] else coils[j]

/-- Placing a byte and then the bytes after it is placing them all. -/
theorem placed_cons (coils : Vector Byte 250) {i : ℕ} (hi : i<250) (b : Byte) (ws : List Byte) :
    placed (coils.set i b) (i+1) ws=placed coils i (b::ws) := by
  apply Vector.ext
  intro j hj
  simp only [placed,Vector.getElem_ofFn,Fin.getElem_fin,Vector.getElem_set]
  by_cases he : i=j
  · subst he
    rw [if_neg (Nat.not_succ_le_self i),if_pos rfl,if_pos le_rfl,Nat.sub_self]
    rfl
  · rw [if_neg he]
    by_cases hlt : i+1≤j
    · obtain ⟨d,rfl⟩ := Nat.exists_eq_add_of_le hlt
      have hs : i+1+d-i=d+1 := by omega
      rw [if_pos hlt,if_pos (by omega),Nat.add_sub_cancel_left,hs,List.getElem?_cons_succ]
    · rw [if_neg hlt,if_neg (by omega)]

/-- The words spelled by bytes, high byte first. -/
def wordsOf : List Byte → List Word
  | high::low::ws => wordOf high low::wordsOf ws
  | _ => []

/-- The sub-requests spelled by bytes. -/
def subreqsOf : List Byte → List Subreq
  | t::f1::f0::r1::r0::l1::l0::ws =>
    ⟨t,wordOf f1 f0,wordOf r1 r0,wordOf l1 l0⟩::subreqsOf ws
  | _ => []

/-- Coil bytes are taken into the bitfield. -/
theorem getCoils_reading (base : Machine σ) (xs ws ys : List Byte) (rx : List (Option Byte))
    (led : Bool) (coils : Vector Byte 250) (i : ℕ) (hi : i+ws.length≤250)
    (hx : xs.length+ws.length≤260) :
    getCoils coils i ws.length (reading base xs (ws++ys) rx led)=
      (.ok (placed coils i ws),reading base (xs++ws) ys rx led) := by
  induction ws generalizing xs coils i with
  | nil =>
    have hp : placed coils i []=coils := by
      apply Vector.ext
      intro j hj
      simp only [placed,Vector.getElem_ofFn,Fin.getElem_fin,List.getElem?_nil,Option.getD_none,
        ite_self]
    rw [hp,List.append_nil]
    rfl
  | cons b ws ih =>
    rw [List.length_cons] at hi hx
    have hrest := ih (xs++[b]) (coils.set i b) (i+1) (by omega)
      (by rw [List.length_append,List.length_singleton]; omega)
    rw [List.length_cons,getCoils,List.cons_append,
      bind_ok (get1_reading base xs (ws++ys) rx led b (by omega)),dif_pos (by omega),
      pure_bind_run]
    refine hrest.trans ?_
    rw [placed_cons _ (by omega),List.append_assoc,List.singleton_append]

/-- More coil bytes than the bitfield holds leave it. -/
theorem getCoils_over (base : Machine σ) (xs ws ys : List Byte) (rx : List (Option Byte))
    (led : Bool) (coils : Vector Byte 250) (i : ℕ) (hi : i≤250) (h : 250 < i+ws.length)
    (hx : xs.length+ws.length≤260) :
    ∃ x t,getCoils coils i ws.length (reading base xs (ws++ys) rx led)=(.fault x,t) ∧
      Kept base t := by
  induction ws generalizing xs coils i with
  | nil => exact absurd h (Nat.not_lt.mpr hi)
  | cons b ws ih =>
    rw [List.length_cons] at h hx
    rw [List.length_cons,getCoils,List.cons_append,
      bind_ok (get1_reading base xs (ws++ys) rx led b (by omega))]
    by_cases hlt : i<250
    · rw [dif_pos hlt,pure_bind_run]
      exact ih (xs++[b]) _ (i+1) hlt (by omega)
        (by rw [List.length_append,List.length_singleton]; omega)
    · rw [dif_neg hlt]
      exact ⟨_,_,bind_fault (halt_run ..),rfl,rfl⟩

/-- Registers are taken into the local array. -/
theorem getWords_reading (base : Machine σ) (xs ws ys : List Byte) (rx : List (Option Byte))
    (led : Bool) {bound i n : ℕ} (hn : ws.length=2*n) (hi : i+n≤bound)
    (hx : xs.length+2*n≤260) :
    getWords bound i n (reading base xs (ws++ys) rx led)=
      (.ok (wordsOf ws),reading base (xs++ws) ys rx led) := by
  induction n generalizing xs ws i with
  | zero =>
    rw [List.length_eq_zero_iff.mp hn,List.append_nil]
    rfl
  | succ n ih =>
    match ws,hn with
    | high::low::ws,hn =>
      simp only [List.length_cons] at hn
      have hrest := ih (xs++[high,low]) ws (i:=i+1) (by omega) (by omega)
        (by simp only [List.length_append,List.length_cons,List.length_nil]; omega)
      rw [getWords,List.cons_append,List.cons_append,
        bind_ok (get2_reading base xs (ws++ys) rx led high low (by omega)),if_pos (by omega),
        bind_ok hrest,List.append_assoc]
      rfl
    | [_],hn => simp only [List.length_cons,List.length_nil] at hn; omega
    | [],hn => simp only [List.length_nil] at hn; omega

/-- More registers than the local array holds leave it. -/
theorem getWords_over (base : Machine σ) (xs ws ys : List Byte) (rx : List (Option Byte))
    (led : Bool) {bound i n : ℕ} (hn : ws.length=2*n) (hi : i≤bound) (h : bound < i+n)
    (hx : xs.length+2*n≤260) :
    ∃ x t,getWords bound i n (reading base xs (ws++ys) rx led)=(.fault x,t) ∧ Kept base t := by
  induction n generalizing xs ws i with
  | zero => exact absurd h (Nat.not_lt.mpr hi)
  | succ n ih =>
    match ws,hn with
    | high::low::ws,hn =>
      simp only [List.length_cons] at hn
      rw [getWords,List.cons_append,List.cons_append,
        bind_ok (get2_reading base xs (ws++ys) rx led high low (by omega))]
      by_cases hlt : i<bound
      · obtain ⟨x,t,ht,hk⟩ := ih (xs++[high,low]) ws (i:=i+1) (by omega) hlt (by omega)
          (by simp only [List.length_append,List.length_cons,List.length_nil]; omega)
        rw [if_pos hlt]
        exact ⟨x,t,bind_fault ht,hk⟩
      · rw [if_neg hlt]
        exact ⟨_,_,halt_run ..,rfl,rfl⟩
    | [_],hn => simp only [List.length_cons,List.length_nil] at hn; omega
    | [],hn => simp only [List.length_nil] at hn; omega

/-- Sub-requests are taken one after the other. -/
theorem getSubreqs_reading (base : Machine σ) (xs ws ys : List Byte) (rx : List (Option Byte))
    (led : Bool) {n : ℕ} (hn : ws.length=7*n) (hx : xs.length+7*n≤260) :
    getSubreqs n (reading base xs (ws++ys) rx led)=
      (.ok (subreqsOf ws),reading base (xs++ws) ys rx led) := by
  induction n generalizing xs ws with
  | zero =>
    rw [List.length_eq_zero_iff.mp hn,List.append_nil]
    rfl
  | succ n ih =>
    obtain ⟨t,f1,f0,r1,r0,l1,l0,rest,rfl⟩ : ∃ t f1 f0 r1 r0 l1 l0 rest,
        ws=t::f1::f0::r1::r0::l1::l0::rest := by
      match ws,hn with
      | t::f1::f0::r1::r0::l1::l0::rest,_ => exact ⟨t,f1,f0,r1,r0,l1,l0,rest,rfl⟩
    simp only [List.length_cons] at hn
    have hrest := ih (xs++[t]++[f1,f0]++[r1,r0]++[l1,l0]) rest (by omega)
      (by simp only [List.length_append,List.length_cons,List.length_nil]; omega)
    simp only [getSubreqs,List.cons_append]
    rw [bind_ok (get1_reading base xs _ rx led t (by omega)),
      bind_ok (get2_reading base _ _ rx led f1 f0 (by
        simp only [List.length_append,List.length_cons,List.length_nil]
        omega)),
      bind_ok (get2_reading base _ _ rx led r1 r0 (by
        simp only [List.length_append,List.length_cons,List.length_nil]
        omega)),
      bind_ok (get2_reading base _ _ rx led l1 l0 (by
        simp only [List.length_append,List.length_cons,List.length_nil]
        omega)),bind_ok hrest]
    simp only [List.append_assoc,List.cons_append,List.nil_append]
    rfl

/-! ### Requests of fixed size -/

/-- Two words of a message that has nothing else. -/
theorem received_words (base : Machine σ) (u fc : Byte) (rx : List (Option Byte))
    (k : Word → Word → Nmbs σ Unit) :
    Received (fixedLayout 6) base u fc rx
      (recv 4>>=fun _ => get2>>=fun a => get2>>=fun b => recvMsgFooter>>=fun _ => k a b)
      (fun frame => k (wordAt frame 2) (wordAt frame 4)) := by
  have hr : Received (fixedLayout 6) base u fc rx _ _ :=
    received_fixed 4 rfl (by omega) rfl rfl rfl (get2>>=fun a => get2>>=fun b => pure (a,b))
      (fun frame => (wordAt frame 2,wordAt frame 4)) ?_ rx (fun a => k a.1 a.2)
  · simp only [bind_assoc,pure_bind] at hr
    exact hr
  · intro zs rest rx led hz
    match zs,hz with
    | [a1,a0,b1,b0],_ =>
      rw [bind_ok (get2_reading base [u,fc] [b1,b0] rx led a1 a0 (by simp)),
        bind_ok (get2_reading base _ [] rx led b1 b0 (by simp)),pure_run]
      rfl

/-- Go on with the answer, or with the response of another unit. -/
def answerOrDrop (answer drop : Nmbs σ Unit) : Nmbs σ Unit := do
  let other ← ignored
  if other=false then answer else drop

/-- A request for coils or discrete inputs. -/
theorem handleReadDiscrete_received
    (callback : Option (Word → Word → Byte → Callback σ (NmbsError×Vector Byte 250)))
    (base : Machine σ) (u fc : Byte) (rx : List (Option Byte)) :
    Received (fixedLayout 6) base u fc rx (handleReadDiscrete callback) fun frame =>
      answerOrDrop (answerReadDiscrete callback (wordAt frame 2) (wordAt frame 4))
        recvReadDiscreteRes :=
  received_words base u fc rx fun a b => answerOrDrop (answerReadDiscrete callback a b)
    recvReadDiscreteRes

/-- A request for registers. -/
theorem handleReadRegisters_received
    (callback : Option (Word → Word → Byte → Callback σ (NmbsError×Vector Word 125)))
    (base : Machine σ) (u fc : Byte) (rx : List (Option Byte)) :
    Received (fixedLayout 6) base u fc rx (handleReadRegisters callback) fun frame =>
      answerOrDrop (answerReadRegisters callback (wordAt frame 2) (wordAt frame 4))
        (recvReadRegistersRes (wordAt frame 4)) :=
  received_words base u fc rx fun a b => answerOrDrop (answerReadRegisters callback a b)
    (recvReadRegistersRes b)

/-- A write of one coil. -/
theorem handleWriteSingleCoil_received (nmbs : NmbsServer σ)
    (base : Machine σ) (u fc : Byte) (rx : List (Option Byte)) :
    Received (fixedLayout 6) base u fc rx (handleWriteSingleCoil nmbs) fun frame =>
      answerOrDrop (answerWriteSingleCoil nmbs (wordAt frame 2) (wordAt frame 4))
        (recvEchoRes (wordAt frame 2) (wordAt frame 4)) :=
  received_words base u fc rx fun a b => answerOrDrop (answerWriteSingleCoil nmbs a b)
    (recvEchoRes a b)

/-! ### Writes of coils and registers -/

/-- The fields before the counted bytes of a write: address, quantity, count. -/
def takeFields : Nmbs σ (Word×Word×Byte) := do
  let address ← get2
  let quantity ← get2
  let bytes ← get1
  pure (address,quantity,bytes)

/-- The fields before the counted bytes of a write, in the message. -/
def fieldsOf (frame : List Byte) : Word×Word×Byte :=
  (wordAt frame 2,wordAt frame 4,byteAt frame 6)

/-- Taking the fields before the counted bytes. -/
theorem takeFields_run (base : Machine σ) (u fc : Byte) (zs rest : List Byte)
    (rx : List (Option Byte)) (led : Bool) (hz : zs.length=5) :
    takeFields (reading base [u,fc] zs rx led)=
      (.ok (fieldsOf (u::fc::(zs++rest))),reading base (u::fc::zs) [] rx led) := by
  match zs,hz with
  | [a1,a0,q1,q0,c],_ =>
    rw [takeFields,bind_ok (get2_reading base [u,fc] [q1,q0,c] rx led a1 a0 (by simp)),
      bind_ok (get2_reading base _ [c] rx led q1 q0 (by simp)),
      bind_ok (get1_reading base _ [] rx led c (by simp)),pure_run]
    rfl

/-- The byte count is the last of the fields. -/
theorem fieldsOf_count (u fc : Byte) (zs rest : List Byte) :
    (fieldsOf (u::fc::(zs++rest))).2.2.toNat=(byteAt (u::fc::(zs++rest)) (5+1)).toNat := rfl

/-- The coils of a message. -/
def coilsOf (frame : List Byte) : Vector Byte 250 :=
  placed (Vector.replicate 250 0#8) 0 ((frame.drop 7).take (byteAt frame 6).toNat)

/-- The counted bytes of a message with a head of `n+2` bytes. -/
theorem counted_bytes (u fc : Byte) (zs ws rest : List Byte) {n : ℕ} (hz : zs.length=n) :
    ((u::fc::(zs++(ws++rest))).drop (n+2)).take ws.length=ws := by
  rw [List.drop_succ_cons,List.drop_succ_cons,List.drop_left' hz,List.take_left]

/-- A write of coils receives its fields, then the coils. -/
theorem counted_coils (base : Machine σ) (u fc : Byte) :
    Counted coilsLayout 5 takeFields (fun a : Word×Word×Byte => a.2.2.toNat)
      (fun a => getCoils (Vector.replicate 250 0#8) 0 a.2.2.toNat) fieldsOf coilsOf base u fc where
  head_eq := rfl
  small := by decide
  countAt_eq := rfl
  room c hc ho := by
    by_cases h : c≤250
    · simp only [coilsLayout]
      omega
    · simp only [coilsLayout,if_neg h,reduceCtorEq] at ho
  head_run zs rest rx led hz := takeFields_run base u fc zs rest rx led hz
  size_eq zs rest _ := fieldsOf_count u fc zs rest
  body_run zs ws rest rx led hz hw ho := by
    have hws : ws.length≤250 := by
      by_contra h
      simp only [coilsLayout,if_neg h,reduceCtorEq] at ho
    have hlen : (u::fc::(zs++ws)).length≤7+ws.length := by
      simp only [List.length_cons,List.length_append]
      omega
    have hr := getCoils_reading base (u::fc::zs) ws [] rx led (Vector.replicate 250 0#8) 0
      (by omega) (by simp only [List.length_cons]; omega)
    have hcontent : coilsOf (u::fc::(zs++(ws++rest)))=
        placed (Vector.replicate 250 0#8) 0 ws := by
      rw [coilsOf,show (byteAt (u::fc::(zs++(ws++rest))) 6).toNat=ws.length from hw.symm,
        counted_bytes u fc zs ws rest hz]
    rw [List.append_nil,hw] at hr
    rw [hcontent]
    simp only [coilsLayout]
    rw [List.take_of_length_le hlen,List.drop_of_length_le hlen]
    exact hr

/-- A write of too many coil bytes. -/
theorem overruns_coils (base : Machine σ) (xs : List Byte) (rx : List (Option Byte)) {c m : ℕ}
    (hx : xs.length=7) (ho : coilsLayout.overrunAt c=some m)
    (k : Vector Byte 250 → Nmbs σ Unit) :
    Overruns base xs rx m
      (recv c>>=fun _ => getCoils (Vector.replicate 250 0#8) 0 c>>=k) := by
  by_cases hc : c≤250
  · simp only [coilsLayout,if_pos hc,reduceCtorEq] at ho
  · simp only [coilsLayout,if_neg hc,Option.some.injEq] at ho
    refine overruns_content base xs rx (by omega) (by omega) _ k ?_
    intro hfit ws rx hws
    have hover := getCoils_over base xs ws [] rx true (Vector.replicate 250 0#8) 0
      (by omega) (by omega) (by omega)
    rw [List.append_nil,hws] at hover
    exact hover

/-- A write of coils. -/
theorem handleWriteMultipleCoils_received (nmbs : NmbsServer σ)
    (base : Machine σ) (u fc : Byte) (rx : List (Option Byte)) :
    Received coilsLayout base u fc rx (handleWriteMultipleCoils nmbs) fun frame =>
      answerOrDrop (answerWriteMultipleCoils nmbs (wordAt frame 2) (wordAt frame 4)
        (byteAt frame 6) (coilsOf frame)) (recvEchoRes (wordAt frame 2) (wordAt frame 4)) := by
  have hr := (counted_coils base u fc).received
    (fun a coils => answerOrDrop (answerWriteMultipleCoils nmbs a.1 a.2.1 a.2.2 coils)
      (recvEchoRes a.1 a.2.1)) ?_ rx
  · rw [takeFields] at hr
    simp only [bind_assoc,pure_bind] at hr
    exact hr
  · intro zs rest rx m hz ho
    exact overruns_coils base (u::fc::zs) rx (by simp only [List.length_cons,hz]) ho _

/-- The registers of a message from a place on, as many as the count at
`at` has whole registers. -/
def registersOf (frame : List Byte) (start countAt : ℕ) : List Word :=
  wordsOf ((frame.drop start).take (2*((byteAt frame countAt).toNat/2)))

/-- The first bytes of the counted ones. -/
theorem counted_take (u fc : Byte) (zs ws rest : List Byte) {n k : ℕ} (hz : zs.length=n)
    (hk : k≤ws.length) : ((u::fc::(zs++(ws++rest))).drop (n+2)).take k=ws.take k := by
  rw [List.drop_succ_cons,List.drop_succ_cons,List.drop_left' hz,
    List.take_append_of_le_length hk]

/-- The bytes under the checksum are the head and the first counted bytes. -/
theorem covered_split (u fc : Byte) (zs ws : List Byte) {n k : ℕ} (hz : zs.length=n) :
    (u::fc::(zs++ws)).take (n+2+k)=(u::fc::zs)++ws.take k ∧
      (u::fc::(zs++ws)).drop (n+2+k)=ws.drop k := by
  have hn : n+2+k=n+k+2 := by omega
  rw [hn,List.take_succ_cons,List.take_succ_cons,List.drop_succ_cons,List.drop_succ_cons,←hz,
    List.take_length_add_append,List.drop_length_add_append]
  exact ⟨rfl,rfl⟩

/-- A write of registers receives its fields, then the registers. -/
theorem counted_registers (base : Machine σ) (u fc : Byte) :
    Counted registersLayout 5 takeFields (fun a : Word×Word×Byte => a.2.2.toNat)
      (fun a => getWords 0x007B 0 (a.2.2.toNat/2)) fieldsOf (fun frame => registersOf frame 7 6)
      base u fc where
  head_eq := rfl
  small := by decide
  countAt_eq := rfl
  room c hc ho := by
    by_cases h : c≤247
    · simp only [registersLayout]
      omega
    · simp only [registersLayout,if_neg h,reduceCtorEq] at ho
  head_run zs rest rx led hz := takeFields_run base u fc zs rest rx led hz
  size_eq zs rest _ := fieldsOf_count u fc zs rest
  body_run zs ws rest rx led hz hw ho := by
    have hws : ws.length≤247 := by
      by_contra h
      simp only [registersLayout,if_neg h,reduceCtorEq] at ho
    have hr := getWords_reading base (u::fc::zs) (ws.take (2*(ws.length/2)))
      (ws.drop (2*(ws.length/2))) rx led
      (by rw [List.length_take,Nat.min_eq_left (by omega)])
      (by omega : 0+ws.length/2≤0x007B)
      (by simp only [List.length_cons,hz]; omega)
    have hcontent : registersOf (u::fc::(zs++(ws++rest))) 7 6=
        wordsOf (ws.take (2*(ws.length/2))) := by
      rw [registersOf,show (byteAt (u::fc::(zs++(ws++rest))) 6).toNat=ws.length from hw.symm,
        counted_take u fc zs ws rest hz (by omega)]
    obtain ⟨ht,hd⟩ := covered_split u fc zs ws (k:=2*(ws.length/2)) hz
    rw [List.take_append_drop] at hr
    rw [hcontent,←hw]
    simp only [registersLayout]
    rw [ht,hd]
    exact hr

/-- A write of too many registers. -/
theorem overruns_registers (base : Machine σ) (xs : List Byte) (rx : List (Option Byte))
    {c m : ℕ} (hx : xs.length=7) (ho : registersLayout.overrunAt c=some m)
    (k : List Word → Nmbs σ Unit) :
    Overruns base xs rx m (recv c>>=fun _ => getWords 0x007B 0 (c/2)>>=k) := by
  by_cases hc : c≤247
  · simp only [registersLayout,if_pos hc,reduceCtorEq] at ho
  · simp only [registersLayout,if_neg hc,Option.some.injEq] at ho
    refine overruns_content base xs rx (by omega) (by omega) _ k ?_
    intro hfit ws rx hws
    have hover := getWords_over base xs (ws.take (2*(c/2))) (ws.drop (2*(c/2))) rx true
      (by rw [List.length_take,Nat.min_eq_left (by omega)]) (Nat.zero_le 0x007B)
      (by omega : 0x007B<0+c/2) (by omega)
    rw [List.take_append_drop] at hover
    exact hover

/-- A write of registers. -/
theorem handleWriteMultipleRegisters_received (nmbs : NmbsServer σ)
    (base : Machine σ) (u fc : Byte) (rx : List (Option Byte)) :
    Received registersLayout base u fc rx (handleWriteMultipleRegisters nmbs) fun frame =>
      answerOrDrop (answerWriteMultipleRegisters nmbs (wordAt frame 2) (wordAt frame 4)
        (byteAt frame 6) (registersOf frame 7 6))
        (recvEchoRes (wordAt frame 2) (wordAt frame 4)) := by
  have hr := (counted_registers base u fc).received
    (fun a regs => answerOrDrop (answerWriteMultipleRegisters nmbs a.1 a.2.1 a.2.2 regs)
      (recvEchoRes a.1 a.2.1)) ?_ rx
  · rw [takeFields] at hr
    simp only [bind_assoc,pure_bind] at hr
    exact hr
  · intro zs rest rx m hz ho
    exact overruns_registers base (u::fc::zs) rx (by simp only [List.length_cons,hz]) ho _

/-! ### File records -/

/-- Taking one byte of a head that has nothing else. -/
theorem takeByte_run (base : Machine σ) (u fc : Byte) (zs rest : List Byte)
    (rx : List (Option Byte)) (led : Bool) (hz : zs.length=1) :
    get1 (reading base [u,fc] zs rx led)=
      (.ok (byteAt (u::fc::(zs++rest)) 2),reading base (u::fc::zs) [] rx led) := by
  match zs,hz with
  | [c],_ => exact get1_reading base [u,fc] [] rx led c (by simp)

/-- A content of at most a byte's count fits after a head of three bytes. -/
theorem recordsLayout_room (c : ℕ) (hc : c<256) (_ : recordsLayout.overrunAt c=none) :
    1+2+c≤260 ∧ recordsLayout.covered c+2≤260 ∧ recordsLayout.covered c≤1+2+c ∧
      1+c ≤ recordsLayout.covered c := by
  simp only [recordsLayout]
  omega

/-- The sub-requests of a message. -/
def recordsOf (frame : List Byte) : List Subreq :=
  subreqsOf ((frame.drop 3).take (7*((byteAt frame 2).toNat/7)))

/-- A request for file records receives its size, then the sub-requests. -/
theorem counted_records (base : Machine σ) (u fc : Byte) :
    Counted recordsLayout 1 get1 (fun a : Byte => a.toNat)
      (fun a => getSubreqs (a.toNat/7)>>=fun subreqs => discardN (a.toNat%7)>>=fun _ =>
        pure subreqs) (fun frame => byteAt frame 2) recordsOf base u fc where
  head_eq := rfl
  small := by decide
  countAt_eq := rfl
  room := recordsLayout_room
  head_run zs rest rx led hz := takeByte_run base u fc zs rest rx led hz
  size_eq zs rest _ := rfl
  body_run zs ws rest rx led hz hw ho := by
    have hws : ws.length<256 := by
      rw [hw]
      exact (byteAt (u::fc::(zs++(ws++rest))) 2).isLt
    have hr := getSubreqs_reading base (u::fc::zs) (ws.take (7*(ws.length/7)))
      (ws.drop (7*(ws.length/7))) rx led (n:=ws.length/7)
      (by rw [List.length_take,Nat.min_eq_left (by omega)])
      (by simp only [List.length_cons,hz]; omega)
    have hd := discardN_reading base ((u::fc::zs)++ws.take (7*(ws.length/7)))
      (ws.drop (7*(ws.length/7))) [] rx led (n:=ws.length%7)
      (by rw [List.length_drop]; omega)
      (by simp only [List.length_append,List.length_cons,hz,List.length_take]; omega)
    have hcontent : recordsOf (u::fc::(zs++(ws++rest)))=
        subreqsOf (ws.take (7*(ws.length/7))) := by
      rw [recordsOf,show (byteAt (u::fc::(zs++(ws++rest))) 2).toNat=ws.length from hw.symm,
        counted_take u fc zs ws rest hz (by omega)]
    have hlen : (u::fc::(zs++ws)).length≤3+ws.length := by
      simp only [List.length_cons,List.length_append]
      omega
    rw [List.take_append_drop] at hr
    rw [List.append_nil,List.append_assoc,List.take_append_drop] at hd
    rw [hcontent,←hw,bind_ok hr,bind_ok hd,pure_run]
    simp only [recordsLayout]
    rw [List.take_of_length_le hlen,List.drop_of_length_le hlen]
    rfl

/-- No count of a request for file records overruns. -/
theorem overruns_records {c m : ℕ} (ho : recordsLayout.overrunAt c=some m) : False := by
  simp only [recordsLayout,reduceCtorEq] at ho

/-- A request for file records. -/
theorem handleReadFileRecord_received (nmbs : NmbsServer σ)
    (base : Machine σ) (u fc : Byte) (rx : List (Option Byte)) :
    Received recordsLayout base u fc rx (handleReadFileRecord nmbs) fun frame =>
      answerOrDrop (answerReadFileRecord nmbs (byteAt frame 2) (recordsOf frame))
        recvReadFileRecordRes := by
  have hr := (counted_records base u fc).received
    (fun a subreqs => answerOrDrop (answerReadFileRecord nmbs a subreqs) recvReadFileRecordRes)
    (fun _ _ _ _ _ ho => (overruns_records ho).elim) rx
  simp only [bind_assoc,pure_bind] at hr
  exact hr

/-- A write of file records receives its size, then skips the records. -/
theorem counted_writtenRecords (base : Machine σ) (u fc : Byte) :
    Counted recordsLayout 1 get1 (fun a : Byte => a.toNat)
      (fun a => bufIdx>>=fun start => discardN a.toNat>>=fun _ => pure start)
      (fun frame => byteAt frame 2) (fun _ => 3) base u fc where
  head_eq := rfl
  small := by decide
  countAt_eq := rfl
  room := recordsLayout_room
  head_run zs rest rx led hz := takeByte_run base u fc zs rest rx led hz
  size_eq zs rest _ := rfl
  body_run zs ws rest rx led hz hw ho := by
    have hws : ws.length<256 := by
      rw [hw]
      exact (byteAt (u::fc::(zs++(ws++rest))) 2).isLt
    have hlen3 : (u::fc::zs).length=3 := by simp only [List.length_cons,hz]
    have hd := discardN_reading base (u::fc::zs) ws [] rx led rfl (by omega)
    have hlen : (u::fc::(zs++ws)).length≤3+ws.length := by
      simp only [List.length_cons,List.length_append]
      omega
    rw [List.append_nil] at hd
    rw [←hw,bind_ok (bufIdx_reading ..),bind_ok hd,pure_run,hlen3]
    simp only [recordsLayout]
    rw [List.take_of_length_le hlen,List.drop_of_length_le hlen]
    rfl

/-- A write of file records. -/
theorem handleWriteFileRecord_received (nmbs : NmbsServer σ)
    (base : Machine σ) (u fc : Byte) (rx : List (Option Byte)) :
    Received recordsLayout base u fc rx (handleWriteFileRecord nmbs) fun frame =>
      answerOrDrop (answerWriteFileRecord nmbs (byteAt frame 2) 3) recvWriteFileRecordRes := by
  have hr := (counted_writtenRecords base u fc).received
    (fun a start => answerOrDrop (answerWriteFileRecord nmbs a start) recvWriteFileRecordRes)
    (fun _ _ _ _ _ ho => (overruns_records ho).elim) rx
  simp only [bind_assoc,pure_bind] at hr
  exact hr

/-! ### Reading and writing registers at once -/

/-- The fields before the counted bytes of a write and read. -/
def takeReadWrite : Nmbs σ (Word×Word×Word×Word×Byte) := do
  let readAddress ← get2
  let readQuantity ← get2
  let writeAddress ← get2
  let writeQuantity ← get2
  let bytes ← get1
  pure (readAddress,readQuantity,writeAddress,writeQuantity,bytes)

/-- The fields before the counted bytes of a write and read, in the message. -/
def readWriteOf (frame : List Byte) : Word×Word×Word×Word×Byte :=
  (wordAt frame 2,wordAt frame 4,wordAt frame 6,wordAt frame 8,byteAt frame 10)

/-- Taking the fields of a write and read. -/
theorem takeReadWrite_run (base : Machine σ) (u fc : Byte) (zs rest : List Byte)
    (rx : List (Option Byte)) (led : Bool) (hz : zs.length=9) :
    takeReadWrite (reading base [u,fc] zs rx led)=
      (.ok (readWriteOf (u::fc::(zs++rest))),reading base (u::fc::zs) [] rx led) := by
  match zs,hz with
  | [a1,a0,b1,b0,c1,c0,d1,d0,e],_ =>
    rw [takeReadWrite,bind_ok (get2_reading base [u,fc] _ rx led a1 a0 (by simp)),
      bind_ok (get2_reading base _ _ rx led b1 b0 (by simp)),
      bind_ok (get2_reading base _ _ rx led c1 c0 (by simp)),
      bind_ok (get2_reading base _ _ rx led d1 d0 (by simp)),
      bind_ok (get1_reading base _ [] rx led e (by simp)),pure_run]
    rfl

/-- A write and read receives its fields, then the registers. -/
theorem counted_readWrite (base : Machine σ) (u fc : Byte) :
    Counted readWriteLayout 9 takeReadWrite
      (fun a : Word×Word×Word×Word×Byte => a.2.2.2.2.toNat)
      (fun a => getWords (a.2.2.2.2.toNat/2) 0 (a.2.2.2.2.toNat/2)) readWriteOf
      (fun frame => registersOf frame 11 10) base u fc where
  head_eq := rfl
  small := by decide
  countAt_eq := rfl
  room c hc ho := by
    by_cases h : c≤247
    · simp only [readWriteLayout]
      omega
    · simp only [readWriteLayout,if_neg h] at ho
      split at ho <;> simp only [reduceCtorEq] at ho
  head_run zs rest rx led hz := takeReadWrite_run base u fc zs rest rx led hz
  size_eq zs rest _ := rfl
  body_run zs ws rest rx led hz hw ho := by
    have hws : ws.length≤247 := by
      by_contra h
      simp only [readWriteLayout,if_neg h] at ho
      split at ho <;> simp only [reduceCtorEq] at ho
    have hr := getWords_reading base (u::fc::zs) (ws.take (2*(ws.length/2)))
      (ws.drop (2*(ws.length/2))) rx led
      (by rw [List.length_take,Nat.min_eq_left (by omega)])
      (by omega : 0+ws.length/2≤ws.length/2) (by simp only [List.length_cons,hz]; omega)
    have hcontent : registersOf (u::fc::(zs++(ws++rest))) 11 10=
        wordsOf (ws.take (2*(ws.length/2))) := by
      rw [registersOf,show (byteAt (u::fc::(zs++(ws++rest))) 10).toNat=ws.length from hw.symm,
        counted_take u fc zs ws rest hz (by omega)]
    obtain ⟨ht,hd⟩ := covered_split u fc zs ws (k:=2*(ws.length/2)) hz
    rw [List.take_append_drop] at hr
    rw [hcontent,←hw]
    simp only [readWriteLayout]
    rw [ht,hd]
    exact hr

/-- A content that fits, but not with its checksum, leaves the buffer with
the last byte of the checksum. -/
theorem overruns_checksum (base : Machine σ) (xs : List Byte) (rx : List (Option Byte)) {c : ℕ}
    (hx : xs.length=11) (hc : c=248 ∨ c=249) (k : List Word → Nmbs σ Unit) :
    Overruns base xs rx (13+c)
      (recv c>>=fun _ => getWords (c/2) 0 (c/2)>>=fun regs => recvMsgFooter>>=fun _ => k regs) := by
  by_cases hcome : c≤(arrivals rx).length
  · have hr := recv_full base xs [] rx true hcome (by omega) (Nat.zero_le _)
    have hw := getWords_reading base xs (((arrivals rx).take c).take (2*(c/2)))
      (((arrivals rx).take c).drop (2*(c/2))) (rx.drop c) true
      (by rw [List.length_take,List.length_take]; omega) (by omega : 0+c/2≤c/2) (by omega)
    have has := arrivals_drop rx hcome
    have hlen : (xs++((arrivals rx).take c).take (2*(c/2))).length=259 := by
      rw [List.length_append,List.length_take,List.length_take]
      omega
    rw [List.take_append_drop] at hw
    rw [Overruns,bind_ok hr,bind_ok hw]
    split
    · obtain ⟨x,t,ht,hk⟩ := recvMsgFooter_over base _ (((arrivals rx).take c).drop (2*(c/2)))
        (rx.drop c) true (by omega : (xs++((arrivals rx).take c).take (2*(c/2))).length≤260)
        (by rw [has,List.length_drop]; omega)
      exact ⟨x,t,bind_fault ht,hk⟩
    · obtain ⟨t,ht,hs⟩ := recvMsgFooter_short base _ (((arrivals rx).take c).drop (2*(c/2)))
        (rx.drop c) true (by rw [has,List.length_drop]; omega)
        (by omega : (xs++((arrivals rx).take c).take (2*(c/2))).length≤260)
        (by rw [has,List.length_drop]; omega)
      exact ⟨t,bind_err ht,starved_drop hcome hs⟩
  · obtain ⟨t,ht,hs⟩ := recvBytes_short base xs [] rx true false false
      (by omega : (arrivals rx).length<c) (by omega)
    rw [Overruns,if_neg (by omega)]
    exact ⟨t,bind_err ht,hs⟩

/-- A write and read of too many registers. -/
theorem overruns_readWrite (base : Machine σ) (xs : List Byte) (rx : List (Option Byte))
    {c m : ℕ} (hx : xs.length=11) (ho : readWriteLayout.overrunAt c=some m)
    (k : List Word → Nmbs σ Unit) :
    Overruns base xs rx m
      (recv c>>=fun _ => getWords (c/2) 0 (c/2)>>=fun regs => recvMsgFooter>>=fun _ => k regs) := by
  by_cases hc : c≤247
  · simp only [readWriteLayout,if_pos hc,reduceCtorEq] at ho
  · simp only [readWriteLayout,if_neg hc] at ho
    by_cases hlong : c<250
    · rw [if_pos hlong,Option.some.injEq] at ho
      rw [←ho]
      exact overruns_checksum base xs rx hx (by omega) k
    · rw [if_neg hlong,Option.some.injEq] at ho
      rw [←ho]
      exact overruns_buffer base xs rx (by omega) (by omega) _

/-- A write and read of registers. -/
theorem handleReadWriteRegisters_received (nmbs : NmbsServer σ)
    (base : Machine σ) (u fc : Byte) (rx : List (Option Byte)) :
    Received readWriteLayout base u fc rx (handleReadWriteRegisters nmbs) fun frame =>
      answerOrDrop (answerReadWriteRegisters nmbs (wordAt frame 2) (wordAt frame 4)
        (wordAt frame 6) (wordAt frame 8) (byteAt frame 10) (registersOf frame 11 10))
        (recvEchoRes (wordAt frame 6) (wordAt frame 8)) := by
  have hr := (counted_readWrite base u fc).received
    (fun a regs => answerOrDrop
      (answerReadWriteRegisters nmbs a.1 a.2.1 a.2.2.1 a.2.2.2.1 a.2.2.2.2 regs)
      (recvEchoRes a.2.2.1 a.2.2.2.1)) ?_ rx
  · rw [takeReadWrite] at hr
    simp only [bind_assoc,pure_bind] at hr
    exact hr
  · intro zs rest rx m hz ho
    exact overruns_readWrite base (u::fc::zs) rx (by simp only [List.length_cons,hz]) ho _

/-! ### Every request -/

/-- What the server does with a request for it. -/
def answerRequest (nmbs : NmbsServer σ) (fc : Byte) (frame : List Byte) : Nmbs σ Unit :=
  match fc.toNat with
  | 1 => answerReadDiscrete nmbs.callbacks.readCoils (wordAt frame 2) (wordAt frame 4)
  | 2 => answerReadDiscrete nmbs.callbacks.readDiscreteInputs (wordAt frame 2) (wordAt frame 4)
  | 3 => answerReadRegisters nmbs.callbacks.readHoldingRegisters (wordAt frame 2)
      (wordAt frame 4)
  | 4 => answerReadRegisters nmbs.callbacks.readInputRegisters (wordAt frame 2)
      (wordAt frame 4)
  | 5 => answerWriteSingleCoil nmbs (wordAt frame 2) (wordAt frame 4)
  | 15 => answerWriteMultipleCoils nmbs (wordAt frame 2) (wordAt frame 4) (byteAt frame 6)
      (coilsOf frame)
  | 16 => answerWriteMultipleRegisters nmbs (wordAt frame 2) (wordAt frame 4) (byteAt frame 6)
      (registersOf frame 7 6)
  | 20 => answerReadFileRecord nmbs (byteAt frame 2) (recordsOf frame)
  | 21 => answerWriteFileRecord nmbs (byteAt frame 2) 3
  | _ => answerReadWriteRegisters nmbs (wordAt frame 2) (wordAt frame 4) (wordAt frame 6)
      (wordAt frame 8) (byteAt frame 10) (registersOf frame 11 10)

/-- What the server does with a request for another unit. -/
def dropResponse (fc : Byte) (frame : List Byte) : Nmbs σ Unit :=
  match fc.toNat with
  | 1 | 2 => recvReadDiscreteRes
  | 3 | 4 => recvReadRegistersRes (wordAt frame 4)
  | 5 | 15 | 16 => recvEchoRes (wordAt frame 2) (wordAt frame 4)
  | 20 => recvReadFileRecordRes
  | 21 => recvWriteFileRecordRes
  | _ => recvEchoRes (wordAt frame 6) (wordAt frame 8)

/-- The handler of a function code with a layout receives its request. -/
theorem handlerOf_received (nmbs : NmbsServer σ) (base : Machine σ) (u fc : Byte)
    (rx : List (Option Byte)) {lay : Layout} (hl : requestLayout fc=some lay) :
    Received lay base u fc rx (handlerOf nmbs fc.toNat) fun frame =>
      answerOrDrop (answerRequest nmbs fc frame) (dropResponse fc frame) := by
  rw [requestLayout] at hl
  unfold handlerOf answerRequest dropResponse
  generalize fc.toNat=n at hl ⊢
  split at hl
  · cases hl
    exact handleReadDiscrete_received nmbs.callbacks.readCoils base u fc rx
  · cases hl
    exact handleReadDiscrete_received nmbs.callbacks.readDiscreteInputs base u fc rx
  · cases hl
    exact handleReadRegisters_received nmbs.callbacks.readHoldingRegisters base u fc rx
  · cases hl
    exact handleReadRegisters_received nmbs.callbacks.readInputRegisters base u fc rx
  · cases hl
    exact handleWriteSingleCoil_received nmbs base u fc rx
  · cases hl
    exact handleWriteMultipleCoils_received nmbs base u fc rx
  · cases hl
    exact handleWriteMultipleRegisters_received nmbs base u fc rx
  · cases hl
    exact handleReadFileRecord_received nmbs base u fc rx
  · cases hl
    exact handleWriteFileRecord_received nmbs base u fc rx
  · cases hl
    exact handleReadWriteRegisters_received nmbs base u fc rx
  · cases hl

/-- A function code without a layout has no handler. -/
theorem handlerOf_none (nmbs : NmbsServer σ) {fc : Byte} (hl : requestLayout fc=none) :
    handlerOf nmbs fc.toNat=fail .exceptionIllegalFunction := by
  rw [requestLayout] at hl
  unfold handlerOf
  generalize fc.toNat=n at hl ⊢
  split
  case h_11 => rfl
  all_goals cases hl

end CyclotronPico.Requests
