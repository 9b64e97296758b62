import CyclotronPico.Exchanges
import CyclotronPico.Handling
import CyclotronPico.Service

/-!
# Sessions on the bus

The server on a bus with other units. A session is a list of requests for
this server, exchanges of other units and silences; the server takes one of
them in each round of its main loop, and what it transmits and does is that
of an abstract node that sees the session item by item.
-/

namespace CyclotronPico.Sessions

open BitBuffer Effects PicoController Nanomodbus NanomodbusServer Frames Reception Requests
  Answers ServerAnswers Responses Polls SupplyInterface ModbusServer Handling Service Exchanges

/-! ### File records inside a message -/

/-- The walk over the file records of a message, as far as they lie in it. -/
def bytesWalk (bs : List Byte) (i size : ℕ) : Walk :=
  if i+7≤bs.length then
    let r : Subreq := ⟨byteAt bs i,wordAt bs (i+1),wordAt bs (i+3),wordAt bs (i+5)⟩
    if r.accepted 122=false then .refused .exceptionIllegalDataAddress
    else
      let size := (size+65536-(7+r.recordLength.toNat*2))%65536
      if 7 ≤ size then bytesWalk bs (i+7+r.recordLength.toNat*2) size
      else if size≠0 then .refused .exceptionIllegalDataValue else .accepted
  else .leaves
termination_by bs.length-i

/-- A byte of the buffer that a message starts with. -/
theorem overlay_byteAt (buf : Vector Byte 260) {bs : List Byte} {i : ℕ} (hi : i<260)
    (h : i<bs.length) : (overlay buf bs)[i]=byteAt bs i := by
  rw [overlay_get buf bs hi,byteAt,List.getD_eq_getElem?_getD,List.getElem?_eq_getElem h]
  rfl

/-- A record of the buffer that lies in the message is the one of the message. -/
theorem recordAt_bytes (buf : Vector Byte 260) {bs : List Byte} {i : ℕ} (hi : i+7≤260)
    (h : i+7≤bs.length) : recordAt (overlay buf bs) i hi=
      ⟨byteAt bs i,wordAt bs (i+1),wordAt bs (i+3),wordAt bs (i+5)⟩ := by
  rw [recordAt,overlay_byteAt buf (by omega) (by omega),overlay_byteAt buf (by omega) (by omega),
    overlay_byteAt buf (by omega) (by omega),overlay_byteAt buf (by omega) (by omega),
    overlay_byteAt buf (by omega) (by omega),overlay_byteAt buf (by omega) (by omega),
    overlay_byteAt buf (by omega) (by omega)]
  rfl

/-- A walk that does not leave the message is the walk over the buffer,
whatever the buffer holds behind the message. -/
theorem recordsWalk_bytes (buf : Vector Byte 260) {bs : List Byte} (hlen : bs.length≤260)
    {i size : ℕ} (h : bytesWalk bs i size≠.leaves) :
    recordsWalk (overlay buf bs) i size=bytesWalk bs i size := by
  fun_induction bytesWalk bs i size with
  | case1 i size hi r hr =>
    rw [recordsWalk,dif_pos (by omega)]
    dsimp only
    rw [recordAt_bytes buf (by omega) hi,if_pos hr]
  | case2 i size hi r hr rest hrest ih =>
    rw [recordsWalk,dif_pos (by omega)]
    dsimp only
    rw [recordAt_bytes buf (by omega) hi,if_neg hr,if_pos hrest]
    exact ih h
  | case3 i size hi r hr rest hrest hleft =>
    rw [recordsWalk,dif_pos (by omega)]
    dsimp only
    rw [recordAt_bytes buf (by omega) hi,if_neg hr,if_neg hrest,if_pos hleft]
  | case4 i size hi r hr rest hrest hleft =>
    rw [recordsWalk,dif_pos (by omega)]
    dsimp only
    rw [recordAt_bytes buf (by omega) hi,if_neg hr,if_neg hrest,if_neg hleft]
  | case5 i size hi => exact absurd rfl h

/-! ### The application of the supply -/

variable {τ : Type} (overshift : Overshift) (ps : PowerSupplyInterface τ)

/-- What the server of a supply offers: a read of the three registers, and a
write of at least three coils. -/
def supplyHandlers : Handlers (App τ) where
  readInputRegisters := some fun address quantity _ app =>
    if address.toNat≠0 ∨ quantity.toNat≠registersReadSize then
      ((.exceptionIllegalDataAddress,Vector.replicate 125 0#16),app)
    else ((.errorNone,readRegisters ps (app.communicate ps).powerSupply),app.communicate ps)
  writeMultipleCoils := some fun address quantity coils _ app =>
    if address.toNat≠0 ∨ quantity.toNat<coilsWriteMinCount then
      (.exceptionIllegalDataAddress,app)
    else if (ps.setStatus (dataTypeOf coils) (valueOf overshift coils quantity.toNat)
        app.powerSupply).1<0 then
      (.exceptionIllegalDataValue,
        App.setStatus ps (dataTypeOf coils) (valueOf overshift coils quantity.toNat) app)
    else (.errorNone,(App.setStatus ps (dataTypeOf coils)
      (valueOf overshift coils quantity.toNat) app).communicate ps)

/-- The server of a supply does what it offers. -/
theorem implements_supply :
    Implements (nmbsServer overshift ps) (supplyHandlers overshift ps) where
  readCoils := .none
  readDiscreteInputs := .none
  readHoldingRegisters := .none
  readInputRegisters := .some fun address quantity u _ app => by
    refine (handleReadData_run ps address quantity u app).trans ?_
    split <;> rfl
  writeSingleCoil := .none
  writeMultipleCoils := .some fun address quantity coils u hq app => by
    refine (handleWriteData_run overshift ps address quantity coils u app (by omega)).trans ?_
    split
    · rfl
    · split <;> rfl
  writeMultipleRegisters := .none
  readFileRecord := rfl
  writeFileRecord := rfl

/-! ### What comes on the bus -/

/-- A whole request. -/
structure Request where
  /-- The unit it goes to. -/
  unit : Byte
  /-- Its function code. -/
  fc : Byte
  /-- What follows the function code. -/
  payload : List Byte
  /-- The layout of its function code. -/
  lay : Layout
  /-- The function code has a parser. -/
  known : requestLayout fc=some lay
  /-- The payload has the length that the layout says. -/
  filled : Filled lay (unit::fc::payload)
  /-- The payload fits the arrays. -/
  fits : lay.overrunAt (lay.count (unit::fc::payload))=none
  /-- What is not covered by the checksum does not matter. -/
  covered : crcBytes ((unit::fc::payload).take (lay.covered (lay.count (unit::fc::payload))))=
    crcBytes (unit::fc::payload)

/-- The bytes of a request under its checksum. -/
def Request.data (r : Request) : List Byte := r.unit::r.fc::r.payload

/-- The bytes of a request. -/
def Request.frame (r : Request) : List Byte := sealed r.data

/-- How the walk over the file records of a request ends. -/
def Request.walk (r : Request) : Walk := bytesWalk r.frame 3 (byteAt r.frame 2).toNat

/-- Bytes that come before a silence and are lost in it: less than a header,
a request that is cut short, or a request for another unit with a wrong
checksum, which is flushed with what comes behind it. -/
inductive Lost (bs : List Byte) : Prop where
  /-- No header. -/
  | short (h : bs.length<2)
  /-- A request that is cut short. -/
  | cut (u fc : Byte) (as : List Byte) (lay : Layout) (hbs : bs=u::fc::as)
      (hl : requestLayout fc=some lay) (hr : lay.receive bs=.timeout)
  /-- A request for another unit with a wrong checksum, and what comes behind it. -/
  | flushed (u fc : Byte) (as : List Byte) (lay : Layout) (hbs : bs=u::fc::as)
      (hl : requestLayout fc=some lay) (hu : Foreign u) (hr : lay.receive bs=.badCrc)
      (hfew : (bs.drop (lay.span bs)).length<260)

/-- What happens on the bus. -/
inductive Item where
  /-- A request for this server or for every unit; if it writes file records,
  they lie in it. -/
  | request (r : Request) (hown : r.unit=0#8 ∨ r.unit=1#8)
      (hrecords : r.fc.toNat=21 → r.walk≠.leaves)
  /-- A request for another unit and the response of that unit. -/
  | exchange (r : Request) (hother : Foreign r.unit) (hplain : r.fc.toNat≤16)
      (response : List Byte) (hd : Responds r.unit r.fc r.frame response)
  /-- A request for this server or for every unit with a wrong checksum. -/
  | garbled (u fc : Byte) (as : List Byte) (lay : Layout) (hl : requestLayout fc=some lay)
      (hu : ¬Foreign u) (hr : lay.receive (u::fc::as)=.badCrc)
      (hspan : lay.span (u::fc::as)=(u::fc::as).length)
  /-- The header of a request whose function code has no parser. -/
  | unknown (u fc : Byte) (hl : requestLayout fc=none)
  /-- Bytes that are lost, with the silence behind them. -/
  | lost (bs : List Byte) (h : Lost bs)

/-- What an item is on the line. -/
def Item.line : Item → List (Option Byte)
  | request r _ _ => r.frame.map some
  | exchange r _ _ response _ => (r.frame++sealed response).map some
  | garbled u fc as _ _ _ _ _ => (u::fc::as).map some
  | unknown u fc _ => [some u,some fc]
  | lost bs _ => bs.map some++[none]

/-- What an abstract node does for an item: it answers the requests for it,
lets those of others pass, and after an error talks to the supply. -/
def Item.handle (state : App τ×List (List Byte)) : Item → App τ×List (List Byte)
  | request r _ _ =>
    let reply := serve (supplyHandlers overshift ps) r.walk (decide (r.unit=0#8)) r.unit r.fc
      r.frame state.1
    (reply.2,state.2++reply.1.messages r.unit r.fc (decide (r.unit=0#8)))
  | exchange _ _ _ _ _ | unknown _ _ _ => state
  | garbled _ _ _ _ _ _ _ _ | lost _ _ => (state.1.communicate ps,state.2)

/-! ### One item -/

/-- A request is received, whatever comes behind it. -/
theorem Request.received (r : Request) (rest : List Byte) :
    r.lay.receive (r.frame++rest)=.frame :=
  receive_whole (sound_request r.known) r.filled r.fits r.covered rest

/-- A request takes its own bytes. -/
theorem Request.span (r : Request) (rest : List Byte) :
    r.lay.span (r.frame++rest)=r.frame.length :=
  span_whole (sound_request r.known) r.filled rest

/-- A request starts with its unit and its function code. -/
theorem Request.opens (r : Request) (rest : List Byte) :
    r.frame++rest=r.unit::r.fc::(r.payload++crcBytes r.data++rest) := rfl

/-- The function code of a write of file records determines its layout. -/
theorem Request.records (r : Request) (h : r.fc.toNat=21) : r.lay=recordsLayout :=
  Option.some.inj (r.known.symm.trans (records_layout (.inr h)))

/-- A write of file records fits the buffer and stays in it whole. -/
theorem Request.records_kept (r : Request) (h : r.fc.toNat=21) (rest : List Byte) :
    r.lay.kept (r.frame++rest)=r.frame ∧ r.frame.length≤260 := by
  have hlay := r.records h
  have hcount := count_whole (sound_request r.known) r.filled rest
  have hfilled : r.data.length=r.lay.head+r.lay.count r.data := r.filled
  have hlen := sealed_length r.data
  rw [hlay] at hcount hfilled ⊢
  have hlt : recordsLayout.count r.data<256 := (byteAt r.data 2).isLt
  have hhead : recordsLayout.head=3 := rfl
  have hcovered : recordsLayout.covered (recordsLayout.count r.data)=r.data.length := by
    rw [hfilled]
    rfl
  refine ⟨?_,by rw [Request.frame]; omega⟩
  rw [Layout.kept]
  unfold Request.frame Request.data at *
  rw [hcount,hcovered,←hfilled,sealed,List.append_assoc,List.take_left,List.drop_left]
  rfl

/-- How the walk over file records ends plays no part for other requests. -/
theorem serve_walk {σ : Type} (h : Handlers σ) (w w' : Walk) (toAll : Bool) (u : Byte) {fc : Byte}
    (hfc : fc.toNat≠21) (frame : List Byte) (app : σ) :
    serve h w toAll u fc frame app=serve h w' toAll u fc frame app := by
  unfold serve
  generalize fc.toNat=n at hfc ⊢
  split
  case h_9 => exact absurd rfl hfc
  all_goals rfl

/-- What the server does for a request at the start of the line. -/
theorem served_request (m : Machine (App τ)) (r : Request) {rest : List (Option Byte)}
    (hrx : m.line.rx=r.frame.map some++rest) (hrecords : r.fc.toNat=21 → r.walk≠.leaves)
    (h : Handlers (App τ)) :
    (r.fc.toNat=21 → walkIn m r.lay≠.leaves) ∧
    served h m r.unit r.fc r.lay=
      serve h r.walk (decide (r.unit=0#8)) r.unit r.fc r.frame m.app := by
  have harr : arrivals m.line.rx=r.frame++arrivals rest := by
    rw [hrx,arrivals_append]
  have hframe : frameIn m r.lay=r.frame := by
    rw [frameIn,harr,r.span]
    exact List.take_left
  have hwalk : r.fc.toNat=21 → walkIn m r.lay=r.walk := by
    intro h21
    obtain ⟨hkept,hlen⟩ := r.records_kept h21 (arrivals rest)
    rw [walkIn,hframe,harr,hkept]
    exact recordsWalk_bytes m.msg.buf hlen (hrecords h21)
  refine ⟨fun h21 => ?_,?_⟩
  · rw [hwalk h21]
    exact hrecords h21
  · rw [served,hframe]
    by_cases h21 : r.fc.toNat=21
    · rw [hwalk h21]
    · exact serve_walk h _ _ _ _ h21 _ _

/-- What is left of a line after a message at its start. -/
theorem drop_message (bs : List Byte) (rest : List (Option Byte)) :
    (bs.map some++rest).drop bs.length=rest :=
  List.drop_left' (List.length_map some)

/-- A round over a request for this server. -/
theorem wait_request (m : Machine (App τ)) (r : Request) {rest : List (Option Byte)}
    (hown : r.unit=0#8 ∨ r.unit=1#8) (hrx : m.line.rx=r.frame.map some++rest)
    (hrecords : r.fc.toNat=21 → r.walk≠.leaves) :
    ∃ t,waitAndHandleRequest overshift ps ⟨m,none⟩=⟨t,none⟩ ∧ t.line.rx=rest ∧
      (t.app,t.line.tx)=(Item.request r hown hrecords).handle overshift ps (m.app,m.line.tx) := by
  have harr : arrivals m.line.rx=r.frame++arrivals rest := by
    rw [hrx,arrivals_append]
  obtain ⟨hleave,hserved⟩ := served_request m r hrx hrecords (supplyHandlers overshift ps)
  obtain ⟨t,ht,happ,hline⟩ := poll_serves (implements_supply overshift ps) m
    (harr.trans (r.opens _)) r.known hown (by rw [harr]; exact r.received _) hleave
  rw [hserved] at happ hline
  have hspan : r.lay.span (arrivals m.line.rx)=r.frame.length := by
    rw [harr,r.span]
  refine ⟨t,wait_ok overshift ps rfl ht,?_,?_⟩
  · rw [hline,hspan,hrx]
    exact drop_message r.frame rest
  · rw [happ,hline]
    rfl

/-- A message whose checksum is wrong fits the arrays. -/
theorem badCrc_fits {lay : Layout} {bs : List Byte} (h : lay.receive bs=.badCrc) :
    lay.overrunAt (lay.count bs)=none := by
  cases ho : lay.overrunAt (lay.count bs) with
  | none => rfl
  | some n =>
    rw [Layout.receive,ho] at h
    dsimp only at h
    split at h
    · cases h
    · split at h <;> cases h

/-- A message with a wrong checksum is one whatever comes behind it. -/
theorem badCrc_append {lay : Layout} (hs : Sound lay) {bs : List Byte}
    (hspan : lay.span bs=bs.length) (h : lay.receive bs=.badCrc) (rest : List Byte) :
    lay.span (bs++rest)=bs.length ∧ lay.receive (bs++rest)=.badCrc := by
  have hlen : lay.head+lay.count bs+2=bs.length := hspan
  have hfits := badCrc_fits h
  have hcovered := hs.2 (lay.count bs)
  have hcount : lay.count (bs++rest)=lay.count bs := by
    rw [Layout.count,Layout.count]
    cases hc : lay.countAt with
    | none => rfl
    | some i =>
      have hi := hs.1 i hc
      dsimp only
      rw [byteAt_append _ (by omega)]
  have hwhole : lay.span (bs++rest)=bs.length := by
    rw [Layout.span,hcount,hlen]
  have hchecked : lay.Checked (bs++rest) ↔ lay.Checked bs := by
    rw [Layout.Checked,Layout.Checked,hcount,List.drop_append_of_le_length (by omega),
      List.take_append_of_le_length (by rw [List.length_drop]; omega),
      List.take_append_of_le_length (by omega)]
  have htaken : ∀ {cs : List Byte},lay.span cs=bs.length → bs.length≤cs.length →
      lay.taken cs=some bs.length := by
    intro cs hcs hle
    rw [Layout.taken,if_neg (by omega),hcs]
  have hlong : bs.length≤(bs++rest).length := by
    rw [List.length_append]
    omega
  rw [lay.receive_of_fits hfits,htaken hspan le_rfl] at h
  rw [lay.receive_of_fits (by rw [hcount]; exact hfits),htaken hwhole hlong]
  refine ⟨hwhole,?_⟩
  dsimp only at h ⊢
  rw [if_congr hchecked rfl rfl]
  exact h

/-- A round that ends with an error talks to the supply. -/
theorem wait_error (m : Machine (App τ)) {e : NmbsError} {t : Machine (App τ)}
    {rest : List (Option Byte)} {led : Bool}
    (hp : nmbsServerPoll (nmbsServer overshift ps) m=(.err e,t)) (happ : t.app=m.app)
    (hline : t.line=⟨rest,m.line.tx,led⟩) :
    ∃ t,waitAndHandleRequest overshift ps ⟨m,none⟩=⟨t,none⟩ ∧ t.line.rx=rest ∧
      (t.app,t.line.tx)=(m.app.communicate ps,m.line.tx) := by
  refine ⟨_,wait_err overshift ps rfl hp,congrArg Line.rx hline,?_⟩
  dsimp only
  rw [happ,hline]

/-- A round over bytes that are lost. -/
theorem wait_lost (m : Machine (App τ)) {bs : List Byte} (h : Lost bs)
    {rest : List (Option Byte)} (hrx : m.line.rx=bs.map some++none::rest) :
    ∃ t,waitAndHandleRequest overshift ps ⟨m,none⟩=⟨t,none⟩ ∧ t.line.rx=rest ∧
      (t.app,t.line.tx)=(m.app.communicate ps,m.line.tx) := by
  have harr : arrivals m.line.rx=bs := by
    rw [hrx,arrivals_append,arrivals,List.append_nil]
  have hafter : afterSilence m.line.rx=rest := by
    rw [hrx]
    exact afterSilence_append bs (none::rest)
  have hexit := poll_exit overshift ps m
  rcases hp : nmbsServerPoll (nmbsServer overshift ps) m with ⟨o,t⟩
  rw [hp] at hexit
  cases h with
  | short h =>
    obtain ⟨e,t',ht,hs⟩ := poll_short overshift ps m (by rw [harr]; exact h)
    have hline := hs.2
    rw [hafter] at hline
    exact wait_error overshift ps m ht hs.1 hline
  | cut u fc as lay hbs hl hr =>
    cases exit_opens overshift ps hexit ⟨⟨as,harr.trans hbs⟩,hl⟩ with
    | starved e t hr' hs =>
      have hline := hs.2
      rw [hafter] at hline
      exact wait_error overshift ps m hp hs.1 hline
    | overrun x t hr' hk => cases hr.symm.trans (harr ▸ hr')
    | badCrc t hu' hr' happ hline => cases hr.symm.trans (harr ▸ hr')
    | flushed t hu' hr' happ hline => cases hr.symm.trans (harr ▸ hr')
    | leaves x t hu' hr' hleaves hk => cases hr.symm.trans (harr ▸ hr')
    | dropped o t hu' hr' hleaves hx happ hline => cases hr.symm.trans (harr ▸ hr')
    | answered r hu' hr' ha => cases hr.symm.trans (harr ▸ hr')
  | flushed u fc as lay hbs hl hu hr hfew =>
    cases exit_opens overshift ps hexit ⟨⟨as,harr.trans hbs⟩,hl⟩ with
    | starved e t hr' hs => cases hr.symm.trans (harr ▸ hr')
    | overrun x t hr' hk => cases hr.symm.trans (harr ▸ hr')
    | badCrc t hu' hr' happ hline => exact absurd hu hu'
    | flushed t hu' hr' happ hline =>
      have hcome := lay.receive_whole (.inl hr')
      have hnone : flushTaken (arrivals (m.line.rx.drop (lay.span (arrivals m.line.rx)))).length=
          none := by
        rw [arrivals_drop _ hcome,harr,flushTaken,if_pos hfew]
      have hrest : lineAfter (m.line.rx.drop (lay.span (arrivals m.line.rx))) none=rest :=
        (afterSilence_drop m.line.rx hcome).trans hafter
      rw [hnone,hrest] at hline
      exact wait_error overshift ps m hp happ hline
    | leaves x t hu' hr' hleaves hk => cases hr.symm.trans (harr ▸ hr')
    | dropped o t hu' hr' hleaves hx happ hline => cases hr.symm.trans (harr ▸ hr')
    | answered r hu' hr' ha => cases hr.symm.trans (harr ▸ hr')

/-- A round over a request for this server with a wrong checksum. -/
theorem wait_garbled (m : Machine (App τ)) {u fc : Byte} {as : List Byte} {lay : Layout}
    (hl : requestLayout fc=some lay) (hu : ¬Foreign u)
    (hr : lay.receive (u::fc::as)=.badCrc) (hspan : lay.span (u::fc::as)=(u::fc::as).length)
    {rest : List (Option Byte)} (hrx : m.line.rx=(u::fc::as).map some++rest) :
    ∃ t,waitAndHandleRequest overshift ps ⟨m,none⟩=⟨t,none⟩ ∧ t.line.rx=rest ∧
      (t.app,t.line.tx)=(m.app.communicate ps,m.line.tx) := by
  have harr : arrivals m.line.rx=u::fc::as++arrivals rest := by
    rw [hrx,arrivals_append]
  obtain ⟨hwhole,hbad⟩ := badCrc_append (sound_request hl) hspan hr (arrivals rest)
  rw [←harr] at hwhole hbad
  have hexit := poll_exit overshift ps m
  rcases hp : nmbsServerPoll (nmbsServer overshift ps) m with ⟨o,t⟩
  rw [hp] at hexit
  cases exit_opens overshift ps hexit ⟨⟨_,harr⟩,hl⟩ with
  | starved e t hr' hs => cases hbad.symm.trans hr'
  | overrun x t hr' hk => cases hbad.symm.trans hr'
  | badCrc t hu' hr' happ hline =>
    rw [hwhole,hrx,drop_message] at hline
    exact wait_error overshift ps m hp happ hline
  | flushed t hu' hr' happ hline => exact absurd hu' hu
  | leaves x t hu' hr' hleaves hk => cases hbad.symm.trans hr'
  | dropped o t hu' hr' hleaves hx happ hline => cases hbad.symm.trans hr'
  | answered r hu' hr' ha => cases hbad.symm.trans hr'

/-- A round over a header whose function code has no parser. -/
theorem wait_unknown (m : Machine (App τ)) {u fc : Byte} (hl : requestLayout fc=none)
    {rest : List (Option Byte)} (hrx : m.line.rx=some u::some fc::rest) :
    ∃ t,waitAndHandleRequest overshift ps ⟨m,none⟩=⟨t,none⟩ ∧ t.line.rx=rest ∧
      (t.app,t.line.tx)=(m.app,m.line.tx) := by
  have harr : arrivals m.line.rx=u::fc::arrivals rest := by
    rw [hrx]
    rfl
  have hexit := poll_exit overshift ps m
  rcases hp : nmbsServerPoll (nmbsServer overshift ps) m with ⟨o,t⟩
  rw [hp] at hexit
  cases hexit with
  | short e t hshort hs =>
    rw [harr,List.length_cons,List.length_cons] at hshort
    omega
  | unknown t hbs hl' happ hline =>
    refine ⟨t,wait_ok overshift ps rfl hp,?_,?_⟩
    · rw [hline,hrx]
      rfl
    · rw [happ,hline]
  | request ho h =>
    obtain ⟨⟨as,has⟩,hsome⟩ := ho
    obtain ⟨_,hrest⟩ := List.cons.inj (has.symm.trans harr)
    obtain ⟨rfl,_⟩ := List.cons.inj hrest
    rw [hl] at hsome
    cases hsome

/-- A request that is received for another unit is followed by dropping the
response to it. -/
theorem handler_foreign (m : Machine (App τ)) {u fc : Byte} {as : List Byte} {lay : Layout}
    (hbs : arrivals m.line.rx=u::fc::as) (hl : requestLayout fc=some lay) (hu : Foreign u)
    (hr : lay.receive (arrivals m.line.rx)=.frame) :
    handlerOf (nmbsServer overshift ps) fc.toNat
      (reading (tagged m u fc (decide (u=0#8)) (decide (Foreign u))) [u,fc] []
        (m.line.rx.drop 2) true)=dropResponse fc (frameOf m lay) (gotten m u fc lay) := by
  obtain ⟨_,hrest⟩ := arrivals_header hbs
  have hspan : 2≤lay.span (arrivals m.line.rx) := by
    rw [Layout.span]
    omega
  have hline : (m.line.rx.drop 2).drop (lay.span (arrivals m.line.rx)-2)=
      m.line.rx.drop (lay.span (arrivals m.line.rx)) := by
    rw [List.drop_drop,Nat.add_sub_cancel' hspan]
  have hreceived := handlerOf_received (nmbsServer overshift ps)
    (tagged m u fc (decide (u=0#8)) (decide (Foreign u))) u fc (m.line.rx.drop 2) hl
  unfold Received at hreceived
  rw [hrest,←hbs] at hreceived
  dsimp only at hreceived
  rw [hline,hr] at hreceived
  have hignored : ignored (gotten m u fc lay)=(.ok true,gotten m u fc lay) := by
    have hflag : ignored (gotten m u fc lay)=(.ok (decide (Foreign u)),gotten m u fc lay) := rfl
    rw [hflag,decide_eq_true hu]
  rw [answerOrDrop] at hreceived
  exact hreceived.trans ((bind_ok hignored).trans rfl)

/-- An exception is not an error of the poll. -/
theorem afterError_exception {σ : Type} {e : NmbsError} (he : nmbsErrorIsException e=true)
    (s : Machine σ) : afterError e s=(.ok (),s) := by
  rw [afterError,if_neg (fun h => Bool.noConfusion (he.symm.trans h.2))]
  rfl

/-- A poll over a request for another unit and the response of that unit. -/
theorem poll_exchange (m : Machine (App τ)) (r : Request) {rest : List (Option Byte)}
    (hother : Foreign r.unit) (hplain : r.fc.toNat≤16) {response : List Byte}
    (hd : Responds r.unit r.fc r.frame response)
    (hrx : m.line.rx=(r.frame++sealed response).map some++rest) :
    ∃ t,nmbsServerPoll (nmbsServer overshift ps) m=(.ok (),t) ∧ t.line.rx=rest ∧
      (t.app,t.line.tx)=(m.app,m.line.tx) := by
  have harr : arrivals m.line.rx=r.frame++(sealed response++arrivals rest) := by
    rw [hrx,arrivals_append,List.append_assoc]
  have hspan : r.lay.span (arrivals m.line.rx)=r.frame.length := by
    rw [harr,r.span]
  have hframe : frameOf m r.lay=r.frame := by
    rw [frameOf,hspan,harr]
    exact List.take_left
  have hleft : (gotten m r.unit r.fc r.lay).line.rx=(sealed response).map some++rest := by
    have hdrop : (gotten m r.unit r.fc r.lay).line.rx=
        m.line.rx.drop (r.lay.span (arrivals m.line.rx)) := rfl
    rw [hdrop,hspan,hrx,List.map_append,List.append_assoc]
    exact drop_message r.frame _
  have hcome : arrivals (gotten m r.unit r.fc r.lay).line.rx=sealed response++arrivals rest := by
    rw [hleft,arrivals_append]
  have hopen : arrivals m.line.rx=r.unit::r.fc::(r.payload++crcBytes r.data++
      (sealed response++arrivals rest)) := harr.trans (r.opens _)
  obtain ⟨happ,hline,ho⟩ := dropResponse_passed (s:=gotten m r.unit r.fc r.lay) r.frame
    r.known hplain hd hcome
  have hhandler := handler_foreign overshift ps m hopen r.known hother (by
    rw [harr]
    exact r.received _)
  rw [hframe] at hhandler
  rcases hrun : dropResponse r.fc r.frame (gotten m r.unit r.fc r.lay) with ⟨o,t⟩
  have hfc : (gotten m r.unit r.fc r.lay).msg.fc=r.fc := rfl
  rw [hfc,hrun] at happ hline ho
  have hpoll : nmbsServerPoll (nmbsServer overshift ps) m=(.ok (),t) := by
    have hheader := poll_header overshift ps m hopen (hhandler.trans hrun)
    rcases ho with ho | ⟨e,he,ho⟩
    · obtain rfl : o=.ok () := ho
      exact hheader
    · obtain rfl : o=.err e := ho
      exact hheader.trans (afterError_exception he t)
  refine ⟨t,hpoll,?_,?_⟩
  · dsimp only at hline
    rw [hline,hleft]
    exact drop_message (sealed response) rest
  · dsimp only at hline happ
    rw [hline,happ]
    rfl

/-- A round over a request for another unit and the response of that unit. -/
theorem wait_exchange (m : Machine (App τ)) (r : Request) {rest : List (Option Byte)}
    (hother : Foreign r.unit) (hplain : r.fc.toNat≤16) {response : List Byte}
    (hd : Responds r.unit r.fc r.frame response)
    (hrx : m.line.rx=(r.frame++sealed response).map some++rest) :
    ∃ t,waitAndHandleRequest overshift ps ⟨m,none⟩=⟨t,none⟩ ∧ t.line.rx=rest ∧
      (t.app,t.line.tx)=(m.app,m.line.tx) := by
  obtain ⟨t,ht,hrest⟩ := poll_exchange overshift ps m r hother hplain hd hrx
  exact ⟨t,wait_ok overshift ps rfl ht,hrest⟩

/-- A round over an item does what the abstract node does for it. -/
theorem wait_item (m : Machine (App τ)) (item : Item) {rest : List (Option Byte)}
    (hrx : m.line.rx=item.line++rest) :
    ∃ t,waitAndHandleRequest overshift ps ⟨m,none⟩=⟨t,none⟩ ∧ t.line.rx=rest ∧
      (t.app,t.line.tx)=item.handle overshift ps (m.app,m.line.tx) := by
  cases item with
  | request r hown hrecords => exact wait_request overshift ps m r hown hrx hrecords
  | exchange r hother hplain response hd =>
    exact wait_exchange overshift ps m r hother hplain hd hrx
  | garbled u fc as lay hl hu hr hspan => exact wait_garbled overshift ps m hl hu hr hspan hrx
  | unknown u fc hl => exact wait_unknown overshift ps m hl hrx
  | lost bs h =>
    rw [Item.line,List.append_assoc] at hrx
    exact wait_lost overshift ps m h hrx

/-! ### Sessions -/

/-- A session on the line. -/
def sessionLine (items : List Item) : List (Option Byte) := items.flatMap Item.line

/-- What an abstract node does in a session. -/
def sessionHandle (state : App τ×List (List Byte)) (items : List Item) :
    App τ×List (List Byte) :=
  items.foldl (Item.handle overshift ps) state

/-- A read of the three registers. -/
def readThree : Request where
  unit := 1#8
  fc := 4#8
  payload := [0#8,0#8,0#8,3#8]
  lay := fixedLayout 6
  known := rfl
  filled := rfl
  fits := rfl
  covered := rfl

/-- A read of one coil of another unit. -/
def readOther : Request where
  unit := 2#8
  fc := 1#8
  payload := [0#8,0#8,0#8,1#8]
  lay := fixedLayout 6
  known := rfl
  filled := rfl
  fits := rfl
  covered := rfl

/-- A read, an exchange of another unit, and a silence. -/
def shortSession : List Item :=
  [.request readThree (.inr rfl) (fun h => by cases h),
    .exchange readOther (by decide) (by decide) [2#8,1#8,1#8,1#8] (.bits (.inl rfl) 1#8 [1#8] rfl),
    .lost [] (.short Nat.zero_lt_two)]

end CyclotronPico.Sessions
