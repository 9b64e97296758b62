import CyclotronPico.Sessions
import CyclotronPico.WriteFrames

/-!
# Overhearing the other units

Between its own requests the server hears those of the other units and their
responses, of every function code that has a parser. A response is taken by
the layout that the library expects for its function code. For a write and
read of registers that is the layout of a write: the library is then out of
step with the bus, and what it takes for the next request lies in the middle
of a response.
-/

namespace CyclotronPico.Overhearing

open BitBuffer Effects PicoController Nanomodbus NanomodbusServer Frames Reception Requests
  Answers ServerAnswers Responses Polls SupplyInterface ModbusServer Handling Exchanges Sessions
  WriteFrames

/-! ### What the other units say -/

/-- A response of another unit in the format of its function code, before the
checksum. -/
inductive Replies (u fc : Byte) : List Byte → Prop where
  /-- Coils or discrete inputs. -/
  | bits (hfc : fc.toNat=1 ∨ fc.toNat=2) (count : Byte) (bs : List Byte)
      (hcount : bs.length=count.toNat) : Replies u fc (u::fc::count::bs)
  /-- Registers. -/
  | words (hfc : fc.toNat=3 ∨ fc.toNat=4) (count : Byte) (bs : List Byte)
      (hcount : bs.length=count.toNat) : Replies u fc (u::fc::count::bs)
  /-- What was written, as two words. -/
  | echo (hfc : fc.toNat=5 ∨ fc.toNat=15 ∨ fc.toNat=16) (bs : List Byte) (hbs : bs.length=4) :
      Replies u fc (u::fc::bs)
  /-- File records that were read: the first has its reference type, and lies
  in the response. -/
  | records (hfc : fc.toNat=20) (count first : Byte) (bs : List Byte)
      (hcount : bs.length+1=count.toNat) (hlow : 1≤first.toNat) (hhigh : first.toNat≤bs.length) :
      Replies u fc (u::fc::count::first::bs)
  /-- File records that were written: the first lies in the response. -/
  | recordsWritten (hfc : fc.toNat=21) (count : Byte) (bs : List Byte)
      (hcount : bs.length=count.toNat) (hfirst : 7+(wordAt bs 5).toNat*2≤count.toNat) :
      Replies u fc (u::fc::count::bs)
  /-- Registers that were read after others were written. -/
  | exchanged (hfc : fc.toNat=23) (count : Byte) (bs : List Byte)
      (hcount : bs.length=count.toNat) : Replies u fc (u::fc::count::bs)
  /-- An exception. -/
  | exception (hfc : fc.toNat<128) (code : Byte) : Replies u fc [u,fc+0x80#8,code]

/-- The response is one with the registers read by a write and read. -/
def Mistaken (fc : Byte) (data : List Byte) : Prop := fc.toNat=23 ∧ byteAt data 1=fc

/-- An exception code is the function code and a hundred and twenty-eight. -/
theorem exceptionCode_toNat {fc : Byte} (h : fc.toNat<128) :
    (fc+0x80#8).toNat=fc.toNat+128 := by
  rw [BitVec.toNat_add]
  simp only [BitVec.toNat_ofNat,Nat.reducePow,Nat.reduceMod]
  omega

/-! ### How a response is taken -/

/-- A whole message is taken whole. -/
theorem taken_whole {lay : Layout} (hs : Sound lay) {data : List Byte} (hf : Filled lay data)
    (rest : List Byte) : lay.taken (sealed data++rest)=some (sealed data).length := by
  have hspan := span_whole hs hf rest
  have hlen := sealed_length data
  rw [Filled] at hf
  rw [Layout.taken,hspan,List.length_append,if_neg (by omega)]

/-- A response that fills the layout expected for it is taken whole. -/
theorem response_whole {u fc : Byte} {as : List Byte} (hs : Sound (responseLayout fc))
    (hf : Filled (responseLayout fc) (u::fc::as)) (rest : List Byte) :
    responseTaken (responseLayout fc) u fc (sealed (u::fc::as)++rest)=
      some (sealed (u::fc::as)).length := by
  have hopen : sealed (u::fc::as)++rest=u::fc::(as++crcBytes (u::fc::as)++rest) := rfl
  rw [hopen,responseTaken_match,←hopen]
  exact taken_whole hs hf rest

/-- The responses with bits or file records are expected by their count. -/
theorem responseLayout_records {fc : Byte}
    (h : fc.toNat=1 ∨ fc.toNat=2 ∨ fc.toNat=20 ∨ fc.toNat=21) :
    responseLayout fc=recordsLayout := by
  rw [responseLayout]
  rcases h with h | h | h | h <;> simp only [h]

/-- The responses with registers are expected by their count. -/
theorem responseLayout_registers {fc : Byte} (h : fc.toNat=3 ∨ fc.toNat=4) :
    responseLayout fc=registersResLayout := by
  rw [responseLayout]
  rcases h with h | h <;> simp only [h]

/-- The responses to writes are expected to have two words; so is that to a
write and read. -/
theorem responseLayout_words {fc : Byte}
    (h : fc.toNat=5 ∨ fc.toNat=15 ∨ fc.toNat=16 ∨ fc.toNat=23) :
    responseLayout fc=fixedLayout 6 := by
  rw [responseLayout]
  rcases h with h | h | h | h <;> simp only [h]

/-- A response whose bytes are counted is taken whole. -/
theorem records_whole {u fc : Byte} (hfc : fc.toNat=1 ∨ fc.toNat=2 ∨ fc.toNat=20 ∨ fc.toNat=21)
    {count : Byte} {bs : List Byte} (hcount : bs.length=count.toNat) (rest : List Byte) :
    responseTaken (responseLayout fc) u fc (sealed (u::fc::count::bs)++rest)=
      some (sealed (u::fc::count::bs)).length := by
  refine response_whole ?_ ?_ rest
  · rw [responseLayout_records hfc]
    exact sound_records
  · rw [responseLayout_records hfc]
    exact (filled_counted recordsLayout rfl rfl u fc hcount).2

/-- Every response but that with the registers of a write and read is taken whole. -/
theorem reply_taken {u fc : Byte} {data : List Byte} (hd : Replies u fc data)
    (hm : ¬Mistaken fc data) (rest : List Byte) :
    responseTaken (responseLayout fc) u fc (sealed data++rest)=some (sealed data).length := by
  cases hd with
  | bits hfc count bs hcount => exact records_whole (by omega) hcount rest
  | words hfc count bs hcount =>
    refine response_whole ?_ ?_ rest
    · rw [responseLayout_registers hfc]
      exact sound_registersRes
    · rw [responseLayout_registers hfc]
      exact (filled_counted registersResLayout rfl rfl u fc hcount).2
  | echo hfc bs hbs =>
    refine response_whole ?_ ?_ rest
    · rw [responseLayout_words (by omega)]
      exact sound_fixed 6
    · rw [responseLayout_words (by omega),Filled,List.length_cons,List.length_cons,hbs]
      rfl
  | records hfc count first bs hcount hlow hhigh =>
    have hlong : (first::bs).length=count.toNat := hcount
    exact records_whole (by omega) hlong rest
  | recordsWritten hfc count bs hcount hfirst => exact records_whole (by omega) hcount rest
  | exchanged hfc count bs hcount => exact absurd ⟨hfc,rfl⟩ hm
  | exception hfc code =>
    have hadd := exceptionCode_toNat hfc
    have hne : fc+0x80#8≠fc := by
      intro h
      rw [h] at hadd
      omega
    have hfilled : Filled (fixedLayout 3) [u,fc+0x80#8,code] := rfl
    have hopen : sealed [u,fc+0x80#8,code]++rest=
        u::(fc+0x80#8)::(code::crcBytes [u,fc+0x80#8,code]++rest) := rfl
    rw [hopen,responseTaken,if_neg (not_not.mpr rfl),if_neg hne,if_pos hadd,←hopen]
    exact taken_whole (sound_fixed 3) hfilled rest

/-- Of a response with the registers of a write and read eight bytes are taken. -/
theorem mistaken_taken {u fc : Byte} {data : List Byte} (hd : Replies u fc data)
    (hm : Mistaken fc data) (rest : List Byte) :
    responseTaken (responseLayout fc) u fc (sealed data++rest)=
      if (sealed data++rest).length<8 then none else some 8 := by
  obtain ⟨h23,hbyte⟩ := hm
  cases hd with
  | bits hfc count bs hcount => omega
  | words hfc count bs hcount => omega
  | echo hfc bs hbs => omega
  | records hfc count first bs hcount hlow hhigh => omega
  | recordsWritten hfc count bs hcount hfirst => omega
  | exchanged hfc count bs hcount =>
    have hopen : sealed (u::fc::count::bs)++rest=
        u::fc::(count::bs++crcBytes (u::fc::count::bs)++rest) := rfl
    have hspan : (fixedLayout 6).span (sealed (u::fc::count::bs)++rest)=8 := rfl
    have hhead : (fixedLayout 6).head=6 := rfl
    rw [hopen,responseTaken_match,←hopen,responseLayout_words (by omega),Layout.taken,hspan,hhead]
    refine if_congr ?_ rfl rfl
    omega
  | exception hfc code =>
    have hadd := exceptionCode_toNat hfc
    have hsame : fc+0x80#8=fc := hbyte
    rw [hsame] at hadd
    omega

/-! ### The checksum of file records -/

/-- The checksum of a response with file records is looked for inside the
buffer. -/
theorem reply_inside {u fc : Byte} {data : List Byte} (hd : Replies u fc data)
    (hfc : fc.toNat=20 ∨ fc.toNat=21) (buf : Vector Byte 260) (rest : List Byte) :
    ¬ResponseLeaves u fc buf (sealed data++rest) := by
  rintro ⟨hheader,hthree,hcome,hleave⟩
  cases hd with
  | bits hfc' count bs hcount => omega
  | words hfc' count bs hcount => omega
  | echo hfc' bs hbs => omega
  | exchanged hfc' count bs hcount => omega
  | exception hfc' code =>
    have hadd := exceptionCode_toNat hfc'
    have hsame : fc+0x80#8=fc := (List.cons.inj (List.cons.inj hheader).2).1
    rw [hsame] at hadd
    omega
  | records hfc' count first bs hcount hlow hhigh =>
    have hsize : (byteAt (sealed (u::fc::count::first::bs)++rest) 2).toNat=count.toNat := rfl
    have hlong : 3<((sealed (u::fc::count::first::bs)++rest).take (3+count.toNat)).length := by
      rw [List.length_take]
      omega
    have hbyte : byteAt ((sealed (u::fc::count::first::bs)++rest).take (3+count.toNat)) 3=
        first := by
      rw [byteAt,List.getD_eq_getElem?_getD,List.getElem?_take_of_lt (by omega)]
      rfl
    have hsmall := count.isLt
    rw [hsize] at hcome hleave
    rw [checksumAt,if_pos hfc',overlay_byteAt buf (by omega) hlong,hbyte,BitVec.toNat_sub] at hleave
    simp only [BitVec.toNat_ofNat,Nat.reducePow,Nat.reduceMod] at hleave
    omega
  | recordsWritten hfc' count bs hcount hfirst =>
    have hsize : (byteAt (sealed (u::fc::count::bs)++rest) 2).toNat=count.toNat := rfl
    have hkept : (sealed (u::fc::count::bs)++rest).take (3+count.toNat)=u::fc::count::bs := by
      rw [sealed,List.append_assoc]
      refine List.take_left' ?_
      rw [List.length_cons,List.length_cons,List.length_cons,hcount]
      omega
    have hsmall := count.isLt
    have hlong : (u::fc::count::bs).length=3+count.toNat := by
      rw [List.length_cons,List.length_cons,List.length_cons,hcount]
      omega
    rw [hsize] at hcome hleave
    rw [hkept,checksumAt,if_neg (by omega),overlay_byteAt buf (by omega) (by omega),
      overlay_byteAt buf (by omega) (by omega)] at hleave
    have hword : (wordOf (byteAt (u::fc::count::bs) 8) (byteAt (u::fc::count::bs) 9)).toNat=
      (wordAt bs 5).toNat := rfl
    rw [BitVec.toNat_mul,hword] at hleave
    simp only [BitVec.toNat_ofNat,Nat.reducePow,Nat.reduceMod] at hleave
    omega

/-! ### One exchange -/

variable {τ : Type} (overshift : Overshift) (ps : PowerSupplyInterface τ)

/-- A round over a request for another unit and the response of that unit:
nothing is done but to talk to the supply after an error, nothing is
transmitted, and the response is taken as one of the layout expected. -/
theorem wait_overhears (m : Machine (App τ)) (r : Request) (hother : Foreign r.unit)
    {data : List Byte} (hd : Replies r.unit r.fc data) {rest : List (Option Byte)}
    (hrx : m.line.rx=(r.frame++sealed data).map some++rest) :
    ∃ t,waitAndHandleRequest overshift ps ⟨m,none⟩=⟨t,none⟩ ∧
      t.line.rx=lineAfter ((sealed data).map some++rest)
        (responseTaken (responseLayout r.fc) r.unit r.fc (sealed data++arrivals rest)) ∧
      t.line.tx=m.line.tx ∧ (t.app=m.app ∨ t.app=m.app.communicate ps) := by
  have harr : arrivals m.line.rx=r.frame++(sealed data++arrivals rest) := by
    rw [hrx,arrivals_append,List.append_assoc]
  have hopen : arrivals m.line.rx=r.unit::r.fc::(r.payload++crcBytes r.data++
      (sealed data++arrivals rest)) := harr.trans (r.opens _)
  have hreceive : r.lay.receive (arrivals m.line.rx)=.frame := by
    rw [harr]
    exact r.received _
  have hleft : (gotten m r.unit r.fc r.lay).line.rx=(sealed data).map some++rest := by
    have hdrop : (gotten m r.unit r.fc r.lay).line.rx=
        m.line.rx.drop (r.lay.span (arrivals m.line.rx)) := rfl
    rw [hdrop,harr,r.span,hrx,List.map_append,List.append_assoc]
    exact drop_message r.frame _
  have hcome : arrivals (gotten m r.unit r.fc r.lay).line.rx=sealed data++arrivals rest := by
    rw [hleft,arrivals_append]
  have hexit := poll_exit overshift ps m
  rcases hp : nmbsServerPoll (nmbsServer overshift ps) m with ⟨o,t⟩
  rw [hp] at hexit
  cases exit_opens overshift ps hexit ⟨⟨_,hopen⟩,r.known⟩ with
  | starved e t hr hs => cases hreceive.symm.trans hr
  | overrun x t hr hk => cases hreceive.symm.trans hr
  | badCrc t hu hr happ hline => cases hreceive.symm.trans hr
  | flushed t hu hr happ hline => cases hreceive.symm.trans hr
  | leaves x t hu hr hleaves hk =>
    obtain ⟨hfc,hleave⟩ := hleaves
    rw [hcome] at hleave
    exact absurd hleave (reply_inside hd hfc _ _)
  | dropped o t hu hr hleaves hx happ hline =>
    rw [hcome,hleft] at hline
    cases o with
    | ok _ =>
      exact ⟨t,wait_ok overshift ps rfl hp,congrArg Line.rx hline,
        (congrArg Line.tx hline).trans rfl,.inl happ⟩
    | err e =>
      refine ⟨_,wait_err overshift ps rfl hp,congrArg Line.rx hline,
        (congrArg Line.tx hline).trans rfl,.inr ?_⟩
      dsimp only
      rw [happ]
    | fault x => exact absurd rfl (hx x)
  | answered r' hu hr ha => exact absurd hother hu

/-- An exchange of two other parties on the bus. -/
structure Exchange where
  /-- The request. -/
  request : Request
  /-- It goes to another unit. -/
  other : Foreign request.unit
  /-- What that unit responds, before the checksum. -/
  response : List Byte
  /-- The response has the format of the function code. -/
  replies : Replies request.unit request.fc response

/-- An exchange on the line. -/
def Exchange.line (e : Exchange) : List (Option Byte) :=
  (e.request.frame++sealed e.response).map some

/-- The server is out of step after an exchange. -/
def Exchange.Misleads (e : Exchange) : Prop := Mistaken e.request.fc e.response

/-- A round over an exchange that does not mislead takes it whole. -/
theorem wait_steps (m : Machine (App τ)) (e : Exchange) (he : ¬e.Misleads)
    {rest : List (Option Byte)} (hrx : m.line.rx=e.line++rest) :
    ∃ t,waitAndHandleRequest overshift ps ⟨m,none⟩=⟨t,none⟩ ∧ t.line.rx=rest ∧
      t.line.tx=m.line.tx ∧ (t.app=m.app ∨ t.app=m.app.communicate ps) := by
  obtain ⟨t,ht,htrx,htx,happ⟩ := wait_overhears overshift ps m e.request e.other e.replies hrx
  rw [reply_taken e.replies he,lineAfter,drop_message] at htrx
  exact ⟨t,ht,htrx,htx,happ⟩

/-- The server stays in step: over any number of exchanges of other units, of
every function code and normal or exception, one round takes each whole,
nothing is transmitted, and the server at most talks to its supply; only the
registers of a write and read are left out. -/
theorem exchanges_overheard (m : Machine (App τ)) (exchanges : List Exchange)
    (hplain : ∀ e∈exchanges,¬e.Misleads) {rest : List (Option Byte)}
    (hrx : m.line.rx=exchanges.flatMap Exchange.line++rest) :
    ∃ t k,mainLoop overshift ps exchanges.length ⟨m,none⟩=⟨t,none⟩ ∧ t.line.rx=rest ∧
      t.line.tx=m.line.tx ∧ k≤exchanges.length ∧ t.app=(App.communicate ps)^[k] m.app := by
  induction exchanges generalizing m with
  | nil => exact ⟨m,0,rfl,hrx,rfl,le_rfl,rfl⟩
  | cons e exchanges ih =>
    rw [List.flatMap_cons,List.append_assoc] at hrx
    obtain ⟨t,ht,htrx,httx,htapp⟩ := wait_steps overshift ps m e (hplain e List.mem_cons_self) hrx
    obtain ⟨v,k,hv,hvrx,hvtx,hk,hvapp⟩ :=
      ih t (fun e' h => hplain e' (List.mem_cons_of_mem e h)) htrx
    have hrun : mainLoop overshift ps (e::exchanges).length ⟨m,none⟩=⟨v,none⟩ := by
      rw [List.length_cons,mainLoop,Function.iterate_succ_apply,ht]
      exact hv
    rw [List.length_cons]
    rcases htapp with hsame | htalked
    · refine ⟨v,k,hrun,hvrx,hvtx.trans httx,by omega,?_⟩
      rw [hvapp,hsame]
    · refine ⟨v,k+1,hrun,hvrx,hvtx.trans httx,by omega,?_⟩
      rw [hvapp,htalked,Function.iterate_succ_apply]

/-- A read of the records of another unit. -/
def readRecords : Request where
  unit := 2#8
  fc := 20#8
  payload := [7#8,6#8,0#8,4#8,0#8,1#8,0#8,1#8]
  lay := recordsLayout
  known := rfl
  filled := rfl
  fits := rfl
  covered := rfl

/-- A write and read of the registers of another unit. -/
def writeAndRead : Request where
  unit := 2#8
  fc := 23#8
  payload := [0#8,0#8,0#8,8#8,0#8,0#8,0#8,1#8,2#8,0#8,1#8]
  lay := readWriteLayout
  known := rfl
  filled := rfl
  fits := rfl
  covered := rfl

/-- Records that are read, and a write and read that is refused. -/
def shortExchanges : List Exchange :=
  [⟨readRecords,by decide,[2#8,20#8,4#8,3#8,6#8,0#8,9#8],
      .records rfl 4#8 3#8 [6#8,0#8,9#8] rfl (by decide) (by decide)⟩,
    ⟨writeAndRead,by decide,[2#8,151#8,2#8],.exception (by decide) 2#8⟩]

/-- The server takes the exchanges in two rounds. -/
theorem exchanges_overheard_short :
    ∃ t k,mainLoop (fun _ _ => 0#32) SubstituteSupply.powerSupply shortExchanges.length
        ⟨fresh (shortExchanges.flatMap Exchange.line),none⟩=⟨t,none⟩ ∧ t.line.rx=[] ∧
      t.line.tx=(fresh (shortExchanges.flatMap Exchange.line)).line.tx ∧
      k ≤ shortExchanges.length ∧ t.app=(App.communicate SubstituteSupply.powerSupply)^[k]
        (fresh (shortExchanges.flatMap Exchange.line)).app := by
  refine exchanges_overheard (fun _ _ => 0#32) SubstituteSupply.powerSupply
    (fresh (shortExchanges.flatMap Exchange.line)) shortExchanges ?_
    (by rw [fresh_rx,List.append_nil])
  intro e he
  rcases List.mem_cons.mp he with rfl | he
  · rintro ⟨h23,_⟩
    cases h23
  · obtain rfl := List.mem_singleton.mp he
    rintro ⟨_,hbyte⟩
    cases hbyte

/-! ### The registers of a write and read -/

/-- What a round over an exchange that misleads leaves of the line: what stands
from the ninth byte of the response on, where more than the response may have
been taken, or what stands behind a silence that comes earlier. -/
def Exchange.behind (e : Exchange) (rest : List (Option Byte)) : List (Option Byte) :=
  if (sealed e.response++arrivals rest).length<8 then
    afterSilence ((sealed e.response).map some++rest)
  else ((sealed e.response).map some++rest).drop 8

/-- A round over an exchange that misleads. -/
theorem wait_misled (m : Machine (App τ)) (e : Exchange) (he : e.Misleads)
    {rest : List (Option Byte)} (hrx : m.line.rx=e.line++rest) :
    ∃ t,waitAndHandleRequest overshift ps ⟨m,none⟩=⟨t,none⟩ ∧ t.line.rx=e.behind rest ∧
      t.line.tx=m.line.tx ∧ t.app.calls=m.app.calls := by
  obtain ⟨t,ht,htrx,htx,happ⟩ := wait_overhears overshift ps m e.request e.other e.replies hrx
  refine ⟨t,ht,?_,htx,?_⟩
  · rw [mistaken_taken e.replies he] at htrx
    rw [htrx,Exchange.behind]
    split <;> rfl
  · rcases happ with happ | happ
    · rw [happ]
    · rw [happ]
      rfl

/-- What stands from the ninth byte of a response that misleads on is what the
server receives next: the round behind the exchange commands the supply
exactly when a write frame starts there, and with the type and the value of
that frame, although its bytes may be registers of another unit; a write frame
of which this round has taken the first byte is not executed. -/
theorem misled_commands (m : Machine (App τ)) (e : Exchange) (he : e.Misleads)
    {rest : List (Option Byte)} (hrx : m.line.rx=e.line++rest) :
    ∃ t,waitAndHandleRequest overshift ps ⟨m,none⟩=⟨t,none⟩ ∧ t.line.rx=e.behind rest ∧
      t.line.tx=m.line.tx ∧ t.app.calls=m.app.calls ∧
      ((mainLoop overshift ps 2 ⟨m,none⟩).machine.app.calls≠m.app.calls ↔
        ∃ u q coils,WriteFields u q coils ∧ writeFrame u q coils <+: arrivals (e.behind rest)) ∧
      ∀ u q coils,WriteFields u q coils → writeFrame u q coils <+: arrivals (e.behind rest) →
        ∃ code,(mainLoop overshift ps 2 ⟨m,none⟩).machine.app.calls=m.app.calls++
          [⟨writtenType (writeFrame u q coils),writtenValue overshift (writeFrame u q coils),
            code⟩] := by
  obtain ⟨t,ht,hleft,htx,hcalls⟩ := wait_misled overshift ps m e he hrx
  have hsecond : (mainLoop overshift ps 2 ⟨m,none⟩).machine.app.calls=
      (nmbsServerPoll (nmbsServer overshift ps) t).2.app.calls := by
    rw [mainLoop_succ,mainLoop_succ,mainLoop,Function.iterate_zero,id,ht]
    exact (wait_of_poll overshift ps t).1
  have hcommand : ∀ u q coils,WriteFields u q coils →
      writeFrame u q coils <+: arrivals (e.behind rest) →
      ∃ code,(mainLoop overshift ps 2 ⟨m,none⟩).machine.app.calls=m.app.calls++
        [⟨writtenType (writeFrame u q coils),writtenValue overshift (writeFrame u q coils),
          code⟩] := by
    rintro u q coils hf ⟨behind,hbehind⟩
    rw [←hleft] at hbehind
    rw [hsecond,←hcalls]
    exact poll_write overshift ps hf hbehind.symm (poll_exit overshift ps t)
  refine ⟨t,ht,hleft,htx,hcalls,?_,hcommand⟩
  constructor
  · intro hmade
    rcases exit_calls overshift ps (poll_exit overshift ps t) with hnone | ⟨u,q,coils,hf,htaken⟩
    · exact absurd (hsecond.trans (hnone.trans hcalls)) hmade
    · have hstart := congrArg arrivals htaken
      rw [hleft,arrivals_append] at hstart
      exact ⟨u,q,coils,hf,_,hstart.symm⟩
  · rintro ⟨u,q,coils,hf,hbegins⟩ hsame
    obtain ⟨code,hcode⟩ := hcommand u q coils hf hbegins
    have hcount := congrArg List.length (hcode.symm.trans hsame)
    rw [List.length_append,List.length_singleton] at hcount
    omega

/-- An exchange whose registers spell a write of the current 1. -/
def misleading : Exchange where
  request := writeAndRead
  other := by decide
  response := [2#8,23#8,16#8]++(List.replicate 5 0#8++writeFrame 1#8 3 [7#8]++[0#8])
  replies := .exchanged rfl 16#8 _ rfl

/-- It makes the server set a current. -/
theorem misled_commands_one :
    ∃ code,(mainLoop (fun _ _ => 0#32) SubstituteSupply.powerSupply 2
        ⟨fresh misleading.line,none⟩).machine.app.calls=
      [⟨writtenType (writeFrame 1#8 3 [7#8]),
        writtenValue (fun _ _ => 0#32) (writeFrame 1#8 3 [7#8]),code⟩] := by
  have hrx : (fresh misleading.line).line.rx=misleading.line++[] := by
    rw [fresh_rx,List.append_nil]
  obtain ⟨t,_,_,_,_,_,hcommand⟩ := misled_commands (fun _ _ => 0#32) SubstituteSupply.powerSupply
    (fresh misleading.line) misleading ⟨rfl,rfl⟩ hrx
  refine hcommand 1#8 3 [7#8] ⟨.inr rfl,by decide,by decide,rfl⟩ ?_
  decide +kernel

/-- An exchange with a single register. -/
def oneRegister : Exchange where
  request := writeAndRead
  other := by decide
  response := [2#8,23#8,2#8,0#8,9#8]
  replies := .exchanged rfl 2#8 _ rfl

/-- The write that follows it is lost with its first byte. -/
example : (mainLoop (fun _ _ => 0#32) SubstituteSupply.powerSupply 12
    ⟨fresh (oneRegister.line++(writeFrame 1#8 3 [7#8]).map some),none⟩).machine.app.calls=[] := by
  decide +kernel

end CyclotronPico.Overhearing
