import CyclotronPico.Latch
import CyclotronPico.Transmissions

/-!
# Refused requests

The server refuses a request before it asks the supply, or because the supply
declines a parameter. A supply that declines leaves its state as it was, so a
refusal never leaves a trace in the supply.
-/

namespace CyclotronPico.Refusals

open BitBuffer Effects PicoController Nanomodbus NanomodbusServer Frames Reception Requests
  Answers ServerAnswers Responses Polls FloatRounding SupplyInterface
open ModbusServer Handling Transmissions Latch
open Supply200A (PowerSupply200A powerSupply200A)
open SubstituteSupply (PowerSupply powerSupply)

variable {τ : Type} (overshift : Overshift) (ps : PowerSupplyInterface τ)

/-- An exception response: the top bit of its function code is set. -/
def IsException (message : List Byte) : Prop := 128≤(byteAt message 1).toNat

instance (message : List Byte) : Decidable (IsException message) :=
  inferInstanceAs (Decidable (128≤(byteAt message 1).toNat))

/-- The messages transmitted between two states of a run. -/
def transmitted (s t : Server τ) : List (List Byte) :=
  t.machine.line.tx.drop s.machine.line.tx.length

/-- A supply that declines a parameter keeps its state. -/
def Declines : Prop :=
  ∀ dataType value p,(ps.setStatus dataType value p).1<0 → (ps.setStatus dataType value p).2=p

/-- The substitute supply declines without a change. -/
theorem declines_substitute : Declines powerSupply := by
  intro dataType value p h
  change (SubstituteSupply.setStatus dataType value p).1<0 at h
  change (SubstituteSupply.setStatus dataType value p).2=p
  rcases SubstituteSupply.setStatus_cases dataType value p with
    ⟨_,he⟩ | ⟨_,he⟩ | ⟨_,he⟩ | ⟨_,he⟩ | ⟨_,he⟩
  · rw [he] at h
    cases h
  · rw [he] at h
    cases h
  · rw [he] at h
    cases h
  · rw [he] at h
    cases h
  · rw [he]

/-- The 200 A supply declines without a change. -/
theorem declines_supply200A (fp : FloatUnit) : Declines (powerSupply200A fp) :=
  fun _ _ _ h => setStatus_declined h

/-- The answer to a read or a write is no exception response. -/
theorem echo_not_exception {u fc : Byte} (hfc : fc.toNat<128) (body : List Byte) :
    ¬IsException (sealed (u::fc::body)) := by
  have hcode : byteAt (sealed (u::fc::body)) 1=fc := rfl
  rw [IsException,hcode]
  omega

/-- A request that is answered with an exception response leaves the supply alone. -/
theorem answer_exception (hps : Declines ps) {fc : Byte} {frame : List Byte}
    {s : Machine (App τ)} {r : Outcome NmbsError Fault Unit×Machine (App τ)}
    (h : Answer overshift ps fc frame s r) (hfc : s.msg.fc=fc) {message : List Byte}
    (hm : message∈r.2.line.tx.drop s.line.tx.length) (he : IsException message) :
    r.1=.ok () ∧ r.2.app.powerSupply=s.app.powerSupply := by
  have hsilent : ∀ {t : Machine (App τ)},t.line.tx=s.line.tx →
      message∉t.line.tx.drop s.line.tx.length := by
    intro t ht hmem
    rw [ht,List.drop_length] at hmem
    cases hmem
  have hanswered : ∀ {body : List Byte} {t : Machine (App τ)},fc.toNat<128 →
      Answered s (sealed (s.msg.unitId::fc::body)) t →
      message∉t.line.tx.drop s.line.tx.length := by
    intro body t hsmall hline hmem
    rw [Answered] at hline
    split at hline
    · exact hsilent (congrArg Line.tx hline) hmem
    · rw [hline,List.drop_left,List.mem_singleton] at hmem
      rw [hmem] at he
      exact echo_not_exception hsmall body he
  cases h with
  | left x t h21 hleave hk => exact absurd hm (hsilent hk.2)
  | refused e t hread hw hleave hexc hsent => exact ⟨rfl,congrArg App.powerSupply hsent.1⟩
  | read t hread happ hline =>
    rw [hfc] at hline
    have h4 := hread.1
    exact absurd hm (hanswered (by omega) hline)
  | declined t hw hcode happ hline =>
    exact ⟨rfl,(congrArg App.powerSupply happ).trans (hps _ _ _ hcode)⟩
  | written t hw hcode happ hline =>
    rw [hfc] at hline
    have h15 := hw.1
    exact absurd hm (hanswered (by omega) hline)

/-- A poll that transmits an exception response leaves the supply alone. -/
theorem exit_exception (hps : Declines ps) {s : Machine (App τ)}
    {r : Outcome NmbsError Fault Unit×Machine (App τ)} (h : Exit overshift ps s r)
    {message : List Byte} (hm : message∈r.2.line.tx.drop s.line.tx.length)
    (he : IsException message) : r.1=.ok () ∧ r.2.app.powerSupply=s.app.powerSupply := by
  by_cases hadmitted : ∃ u fc lay,Admitted s u fc lay
  · obtain ⟨u,fc,lay,ho,hu,hr,_⟩ := hadmitted
    exact answer_exception overshift ps hps (s:=gotten s u fc lay)
      (exit_answered overshift ps (exit_opens overshift ps h ho) hu hr) rfl hm he
  · have hquiet := exit_unadmitted overshift ps h fun u fc lay ha => hadmitted ⟨u,fc,lay,ha⟩
    rw [hquiet,List.drop_length] at hm
    cases hm

/-- A round that transmits an exception response leaves the supply alone. -/
theorem wait_exception (hps : Declines ps) (s : Server τ) {message : List Byte}
    (hm : message∈transmitted s (waitAndHandleRequest overshift ps s)) (he : IsException message) :
    (waitAndHandleRequest overshift ps s).machine.app.powerSupply=s.machine.app.powerSupply := by
  rw [transmitted] at hm
  cases hf : s.fault with
  | some x => rw [wait_stopped overshift ps hf]
  | none =>
    have hexit := poll_exit overshift ps s.machine
    rcases hp : nmbsServerPoll (nmbsServer overshift ps) s.machine with ⟨_ | e | x,t⟩
    · rw [wait_ok overshift ps hf hp] at hm ⊢
      rw [hp] at hexit
      exact (exit_exception overshift ps hps hexit hm he).2
    · rw [wait_err overshift ps hf hp] at hm
      rw [hp] at hexit
      cases (exit_exception overshift ps hps hexit hm he).1
    · rw [wait_fault overshift ps hf hp] at hm
      rw [hp] at hexit
      cases (exit_exception overshift ps hps hexit hm he).1

/-- A round that transmits an exception response exchanges no frame with the
200 A supply, and leaves every field of either supply as it was. -/
theorem refusal_leaves_supply :
    (∀ (overshift : Overshift) (s : Server PowerSupply) (message : List Byte),
      message∈transmitted s (waitAndHandleRequest overshift powerSupply s) →
      IsException message →
      (waitAndHandleRequest overshift powerSupply s).machine.app.powerSupply=
        s.machine.app.powerSupply) ∧
    ∀ (fp : FloatUnit) (overshift : Overshift) (s : Server PowerSupply200A) (message : List Byte),
      message∈transmitted s (waitAndHandleRequest overshift (powerSupply200A fp) s) →
      IsException message →
      framesSince s (waitAndHandleRequest overshift (powerSupply200A fp) s)=[] ∧
      (waitAndHandleRequest overshift (powerSupply200A fp) s).machine.app.powerSupply=
        s.machine.app.powerSupply := by
  refine ⟨fun overshift s message => wait_exception overshift powerSupply declines_substitute s,?_⟩
  intro fp overshift s message hm he
  have hsame := wait_exception overshift (powerSupply200A fp) (declines_supply200A fp) s hm he
  refine ⟨?_,hsame⟩
  rw [framesSince,framesOf,framesOf,hsame,List.drop_length]

/-- A read of one coil. -/
def coilRead : List (Option Byte) := (sealed [1#8,1#8,0#8,0#8,0#8,1#8]).map some

/-- It is refused by a server of any supply that has just been built. -/
theorem coilRead_refused (p : τ) :
    ∃ message∈transmitted (Server.init p coilRead)
      (waitAndHandleRequest overshift ps (Server.init p coilRead)),IsException message := by
  have hl : requestLayout 1#8=some (fixedLayout 6) := rfl
  have hf : Filled (fixedLayout 6) [1#8,1#8,0#8,0#8,0#8,1#8] := rfl
  have hreceive := receive_sealed hl hf []
  rw [List.append_nil] at hreceive
  generalize hs : Server.init p coilRead=s
  have hnone : s.fault=none := by rw [←hs]; rfl
  have harr : arrivals s.machine.line.rx=sealed [1#8,1#8,0#8,0#8,0#8,1#8] := by
    rw [←hs]
    exact arrivals_bytes _
  have hadmitted : Admitted s.machine 1#8 1#8 (fixedLayout 6) := by
    refine ⟨⟨⟨_,harr⟩,hl⟩,fun hu => hu.2 rfl,?_,fun h21 => by cases h21⟩
    rw [harr]
    exact hreceive.mpr ⟨rfl,rfl⟩
  obtain ⟨m,f⟩ := s
  obtain rfl : f=none := hnone
  obtain ⟨message,hto,htx⟩ := (exit_admitted overshift ps (poll_exit overshift ps m)
    hadmitted).2 (fun h => by cases h.1)
  refine ⟨message,?_,?_⟩
  · rw [transmitted,(wait_of_poll overshift ps m).2,htx,List.drop_left]
    exact List.mem_singleton_self message
  · rcases hto with ⟨h4 | h15,_⟩ | ⟨code,_,_,rfl⟩
    · cases h4
    · cases h15
    · have hcode : byteAt (sealed [1#8,1#8+0x80#8,code]) 1=0x81#8 := rfl
      rw [IsException,hcode]
      decide

/-- A read of one coil leaves either supply alone. -/
theorem refusal_leaves_supply_coils :
    (waitAndHandleRequest (fun _ _ => 0#32) powerSupply (Server.init {} coilRead)).machine.app.powerSupply=
      (Server.init {} coilRead).machine.app.powerSupply ∧
    ∀ (fp : FloatUnit) (reply : ℕ → Vector Byte 6),
      framesSince (Server.init (PowerSupply200A.init reply) coilRead)
        (waitAndHandleRequest (fun _ _ => 0#32) (powerSupply200A fp)
          (Server.init (PowerSupply200A.init reply) coilRead))=[] ∧
      (waitAndHandleRequest (fun _ _ => 0#32) (powerSupply200A fp)
        (Server.init (PowerSupply200A.init reply) coilRead)).machine.app.powerSupply=
          (Server.init (PowerSupply200A.init reply) coilRead).machine.app.powerSupply := by
  obtain ⟨message,hm,he⟩ := coilRead_refused (fun _ _ => 0#32) powerSupply {}
  refine ⟨refusal_leaves_supply.1 _ _ message hm he,fun fp reply => ?_⟩
  obtain ⟨message,hm,he⟩ := coilRead_refused (fun _ _ => 0#32) (powerSupply200A fp)
    (PowerSupply200A.init reply)
  exact refusal_leaves_supply.2 fp _ _ message hm he

end CyclotronPico.Refusals
