import CyclotronPico.RemoteControl

/-!
# Agreement of the two servers

A server of the substitute supply stands in for the server of the 200 A
supply: over every noisy session that sets no more than the switch and the
current the two take the same bytes and send message for message the same,
except for what is measured, which only the answers to reads hold.
-/

namespace CyclotronPico.ServerAgreement

open BitBuffer Effects FloatRounding PicoController Nanomodbus NanomodbusServer Frames Requests
  Answers ServerAnswers SupplyInterface ModbusServer Handling SetPoints ReadRegisters Service
  Sessions LineErrors SupplyService SupplyAgreement RemoteControl
open Supply200A (PowerSupply200A powerSupply200A psStatusRemoteControlPos)
open SubstituteSupply (PowerSupply powerSupply)

variable (overshift : Overshift) (fp : FloatUnit)

/-! ### Messages that differ in what is measured -/

/-- Two messages are equal, or they are answers to a read that report the same
settings. -/
inductive Alike : List Byte → List Byte → Prop where
  /-- Equal messages. -/
  | same (message : List Byte) : Alike message message
  /-- Answers with equal polarity and switch set and equal current set. -/
  | read (u fc : Byte) (first first' second second' last : Word)
      (polarity : second.getLsbD 14=second'.getLsbD 14)
      (power : second.getLsbD 15=second'.getLsbD 15) :
      Alike (sealed ([u,fc]++([6#8]++wordBytes first++wordBytes second++wordBytes last)))
        (sealed ([u,fc]++([6#8]++wordBytes first'++wordBytes second'++wordBytes last)))

/-- An item that sets no polarity and no reset. -/
def Common : Item → Prop
  | .request r _ _ => IsWrite r.fc r.frame →
      (writtenType r.frame).toNat≠1 ∧ (writtenType r.frame).toNat≠2
  | _ => True

/-- What arrives sets no polarity and no reset. -/
def CommonPassage : Passage → Prop
  | .clear item => Common item
  | .hit _ _ _ | .astray _ _ _ => True

/-! ### Servers in step -/

/-- The supplies of two servers correspond and report the same settings, and
their readings fit. -/
structure InStep (a : App PowerSupply) (b : App PowerSupply200A) : Prop where
  /-- The settings correspond. -/
  corresponds : Corresponds a.powerSupply b.powerSupply
  /-- The settings are reported alike. -/
  agree : Agree fp a.powerSupply b.powerSupply
  /-- The readings of the substitute supply fit. -/
  substitute : SubstituteBounds a.powerSupply
  /-- The readings of the 200 A supply fit. -/
  supply : AverageBounds b.powerSupply

variable {fp} {a : App PowerSupply} {b : App PowerSupply200A}

/-- A cycle of both supplies. -/
theorem inStep_cycle (hc : Corresponds a.powerSupply b.powerSupply)
    (hs : SubstituteBounds a.powerSupply) :
    InStep fp (a.communicate powerSupply) (b.communicate (powerSupply200A fp)) where
  corresponds := corresponds_cycle fp hc
  agree := agree_cycle fp hc
  substitute := hs
  supply := by
    have hmem := averaged_mem fp b.powerSupply.psSpi.reply b.powerSupply.psSpi.sent.length
    change AverageBounds (Supply200A.safeCommunicationWithPS fp b.powerSupply)
    rw [SupplyCycle.safeCommunicationWithPS_eq]
    split <;> exact hmem

/-- Servers that were just built. -/
theorem inStep_init {reply : ℕ → Vector Byte 6}
    (hremote : ∀ k,bitAt (reply k) psStatusRemoteControlPos=true) :
    InStep fp ⟨{},[]⟩ ⟨PowerSupply200A.init reply,[]⟩ where
  corresponds := corresponds_init hremote
  agree := by
    have hnone : ∀ call∈([] : List (Byte×Word)),call.1.toNat≠1 ∧ call.1.toNat≠2 :=
      fun _ h => absurd h List.not_mem_nil
    exact (supplies_agree fp hremote hnone).2
  substitute := substituteKeeps_init.bounds
  supply := (supplyKeeps_init fp hremote).bounds

/-- Both servers accept or decline a parameter that is common, and stay in
step after a cycle. -/
theorem inStep_set (h : InStep fp a b) {dataType : Byte} (value : Word)
    (h1 : dataType.toNat≠1) (h2 : dataType.toNat≠2) :
    (powerSupply.setStatus dataType value a.powerSupply).1=
      ((powerSupply200A fp).setStatus dataType value b.powerSupply).1 ∧
    ((powerSupply.setStatus dataType value a.powerSupply).1<0 →
      InStep fp (App.setStatus powerSupply dataType value a)
        (App.setStatus (powerSupply200A fp) dataType value b)) ∧
    InStep fp ((App.setStatus powerSupply dataType value a).communicate powerSupply)
      ((App.setStatus (powerSupply200A fp) dataType value b).communicate (powerSupply200A fp)) := by
  obtain ⟨hcode,hafter⟩ := corresponds_setStatus fp h.corresponds value h1 h2
  refine ⟨hcode,fun hneg => ?_,inStep_cycle hafter (substituteBounds_set h.substitute _ _)⟩
  have hneg' : (Supply200A.setStatus dataType value b.powerSupply).1<0 := hcode ▸ hneg
  have hsame := Latch.setStatus_declined hneg'
  have hone : ¬(1 : ℤ)<0 := by decide
  have hq : (SubstituteSupply.setStatus dataType value a.powerSupply).2=a.powerSupply := by
    change (SubstituteSupply.setStatus dataType value a.powerSupply).1<0 at hneg
    rcases SubstituteSupply.setStatus_cases dataType value a.powerSupply with
      ⟨_,hs⟩ | ⟨_,hs⟩ | ⟨_,hs⟩ | ⟨_,hs⟩ | ⟨_,hs⟩
    · rw [hs] at hneg
      exact absurd hneg hone
    · rw [hs] at hneg
      exact absurd hneg hone
    · rw [hs] at hneg
      exact absurd hneg hone
    · rw [hs] at hneg
      exact absurd hneg hone
    · rw [hs]
  have ha : (App.setStatus powerSupply dataType value a).powerSupply=a.powerSupply := hq
  have hb : (App.setStatus (powerSupply200A fp) dataType value b).powerSupply=b.powerSupply := hsame
  constructor
  · rw [ha,hb]
    exact h.corresponds
  · rw [ha,hb]
    exact h.agree
  · rw [ha]
    exact h.substitute
  · rw [hb]
    exact h.supply

/-- The answers of servers in step to a read are alike. -/
theorem alike_read (u fc : Byte) (h : InStep fp a b) :
    Alike (sealed ([u,fc]++wordsBody 3#16 (readRegisters powerSupply a.powerSupply)))
      (sealed ([u,fc]++wordsBody 3#16 (readRegisters (powerSupply200A fp) b.powerSupply))) := by
  have ha := encodes_of_bounded (substitute_bounded h.substitute)
  have hb := encodes_of_bounded (supply200A_bounded fp h.supply)
  have hlast : registerAt (readRegisters powerSupply a.powerSupply) 2=
      registerAt (readRegisters (powerSupply200A fp) b.powerSupply) 2 :=
    ha.lastSet.trans (h.agree.current.trans hb.lastSet.symm)
  rw [wordsBody_three,wordsBody_three,hlast]
  exact .read u fc _ _ _ _ _ (ha.polaritySet.trans (h.agree.polarity.trans hb.polaritySet.symm))
    (ha.isOnSet.trans (h.agree.isOn.trans hb.isOnSet.symm))

/-- Equal replies give equal messages. -/
theorem alike_same (r : Reply) (u fc : Byte) (toAll : Bool) :
    List.Forall₂ Alike (r.messages u fc toAll) (r.messages u fc toAll) :=
  List.forall₂_same.mpr fun message _ => .same message

/-- Servers in step serve a request alike. -/
theorem serve_alike (walk : Walk) (toAll : Bool) (u : Byte) {fc : Byte} {frame : List Byte}
    {lay : Layout} (hl : requestLayout fc=some lay) (h : InStep fp a b)
    (hcommon : IsWrite fc frame → (writtenType frame).toNat≠1 ∧ (writtenType frame).toNat≠2) :
    let r := serve (supplyHandlers overshift powerSupply) walk toAll u fc frame a
    let r' := serve (supplyHandlers overshift (powerSupply200A fp)) walk toAll u fc frame b
    InStep fp r.2 r'.2 ∧
      List.Forall₂ Alike (r.1.messages u fc toAll) (r'.1.messages u fc toAll) := by
  intro r r'
  by_cases hr : IsRead fc frame
  · have hafter : InStep fp (a.communicate powerSupply) (b.communicate (powerSupply200A fp)) :=
      inStep_cycle h.corresponds h.substitute
    rw [show r=_ from serve_read overshift powerSupply walk toAll u hr a,
      show r'=_ from serve_read overshift (powerSupply200A fp) walk toAll u hr b]
    refine ⟨hafter,?_⟩
    cases toAll with
    | true => exact .nil
    | false => exact .cons (alike_read u fc hafter) .nil
  · by_cases hw : IsWrite fc frame
    · obtain ⟨h1,h2⟩ := hcommon hw
      obtain ⟨hcode,hdeclined,hwritten⟩ := inStep_set h (writtenValue overshift frame) h1 h2
      rw [show r=_ from serve_write overshift powerSupply walk toAll u hw a,
        show r'=_ from serve_write overshift (powerSupply200A fp) walk toAll u hw b]
      have hcode' : writtenCode overshift powerSupply frame a=
        writtenCode overshift (powerSupply200A fp) frame b := hcode
      rw [←hcode']
      by_cases hneg : writtenCode overshift powerSupply frame a<0
      · rw [if_pos hneg,if_pos hneg]
        exact ⟨hdeclined hneg,alike_same _ u fc toAll⟩
      · rw [if_neg hneg,if_neg hneg]
        exact ⟨hwritten,alike_same _ u fc toAll⟩
    · rw [show r=_ from serve_refused overshift powerSupply walk toAll u hl hr hw a,
        show r'=_ from serve_refused overshift (powerSupply200A fp) walk toAll u hl hr hw b]
      exact ⟨h,alike_same _ u fc toAll⟩

/-! ### Sessions -/

/-- Servers in step handle what arrives alike. -/
theorem handle_alike (h : InStep fp a b) {tx tx' : List (List Byte)}
    (htx : List.Forall₂ Alike tx tx') {p : Passage} (hcommon : CommonPassage p) :
    let s := p.handle overshift powerSupply (a,tx)
    let s' := p.handle overshift (powerSupply200A fp) (b,tx')
    InStep fp s.1 s'.1 ∧ List.Forall₂ Alike s.2 s'.2 := by
  have hcycle : InStep fp (a.communicate powerSupply) (b.communicate (powerSupply200A fp)) :=
    inStep_cycle h.corresponds h.substitute
  cases p with
  | clear item =>
    cases item with
    | request r hown hrecords =>
      obtain ⟨hafter,halike⟩ := serve_alike overshift r.walk (decide (r.unit=0#8)) r.unit r.known h
        hcommon
      exact ⟨hafter,List.rel_append htx halike⟩
    | exchange | unknown => exact ⟨h,htx⟩
    | garbled | lost => exact ⟨hcycle,htx⟩
  | hit | astray => exact ⟨hcycle,htx⟩

/-- Servers in step stay in step over a session. -/
theorem session_alike (passages : List Passage) (hcommon : ∀ p∈passages,CommonPassage p)
    (h : InStep fp a b) {tx tx' : List (List Byte)} (htx : List.Forall₂ Alike tx tx') :
    let s := passages.foldl (Passage.handle overshift powerSupply) (a,tx)
    let s' := passages.foldl (Passage.handle overshift (powerSupply200A fp)) (b,tx')
    InStep fp s.1 s'.1 ∧ List.Forall₂ Alike s.2 s'.2 := by
  induction passages generalizing a b tx tx' with
  | nil => exact ⟨h,htx⟩
  | cons p passages ih =>
    obtain ⟨hafter,halike⟩ := handle_alike overshift h htx (hcommon p List.mem_cons_self)
    exact ih (fun q hq => hcommon q (List.mem_cons_of_mem p hq)) hafter halike

/-- A command for the current that arrives twice, and a read. -/
def commandAndRead : List Passage := setCurrentTries++[Passage.clear readItem]

/-- Only the current is set. -/
theorem commandAndRead_common (p : Passage) (hp : p∈commandAndRead) : CommonPassage p := by
  have hset : Common (commandItem setCurrentCommand) := by
    intro _
    have htype : writtenType setCurrentCommand.request.frame=3#8 :=
      setCurrentCommand.decoded_type (.inr rfl)
    rw [htype]
    decide
  have hread : Common readItem := fun hw => by cases hw.1
  rcases List.mem_append.mp hp with hp | hp
  · rcases List.mem_cons.mp hp with rfl | hp
    · trivial
    · rcases List.mem_cons.mp hp with rfl | hp
      · exact hset
      · rw [List.mem_singleton.mp hp]
        exact hset
  · rw [List.mem_singleton.mp hp]
    exact hread

end CyclotronPico.ServerAgreement
