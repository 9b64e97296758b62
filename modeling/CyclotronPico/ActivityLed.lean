import CyclotronPico.Handling

/-!
# The activity LED

The first byte of a message lights the LED, and the last one puts it out, as
does a silence or a transmission. Two headers are not followed by a last
byte: the one of a request whose function code has no parser, and one that
comes where the response to a request for another unit is expected but does
not belong to it. After these the LED stays lit.
-/

namespace CyclotronPico.ActivityLed

open BitBuffer Effects PicoController Nanomodbus NanomodbusServer Frames Reception Answers
  ServerAnswers Responses Polls SupplyInterface ModbusServer Handling

variable {τ : Type} (overshift : Overshift) (ps : PowerSupplyInterface τ)

/-! ### Messages that leave the LED lit -/

/-- A header comes that is not the one of the response to a request: of another
unit, or with a function code that is neither the same nor its exception. -/
def StrayHeader (u fc : Byte) : List Byte → Prop
  | u'::fc'::_ => u'≠u ∨ fc'≠fc ∧ fc'.toNat≠fc.toNat+128
  | _ => False

/-- What arrives leaves the LED lit: a header without a parser, or a correct
request for another unit with a stray header after it. -/
def LeavesLit : List Byte → Prop
  | u::fc::as =>
    match requestLayout fc with
    | none => True
    | some lay => Foreign u ∧ lay.receive (u::fc::as)=.frame ∧
        StrayHeader u fc ((u::fc::as).drop (lay.span (u::fc::as)))
  | _ => False

/-- Nothing but a header is ever two bytes long. -/
theorem taken_ne_two {lay : Layout} (h : 1≤lay.head) (bs : List Byte) : lay.taken bs≠some 2 := by
  rw [Layout.taken]
  intro h2
  split at h2
  · cases h2
  · have hspan := Option.some.inj h2
    rw [Layout.span] at hspan
    omega

/-- Dropping a response takes two bytes exactly when they are a stray header. -/
theorem responseTaken_two {lay : Layout} (h : 1≤lay.head) (u fc : Byte) (bs : List Byte) :
    responseTaken lay u fc bs=some 2 ↔ StrayHeader u fc bs := by
  match bs with
  | [] => exact iff_of_false nofun id
  | [_] => exact iff_of_false nofun id
  | u'::fc'::as =>
    rw [responseTaken,StrayHeader]
    by_cases hu : u'≠u
    · rw [if_pos hu]
      exact iff_of_true rfl (.inl hu)
    · rw [if_neg hu]
      by_cases hfc : fc'=fc
      · rw [if_pos hfc]
        exact iff_of_false (taken_ne_two h _) (fun hs => hs.elim hu fun hs => hs.1 hfc)
      · rw [if_neg hfc]
        by_cases hexc : fc'.toNat=fc.toNat+128
        · rw [if_pos hexc]
          exact iff_of_false (taken_ne_two (by decide) _) (fun hs => hs.elim hu fun hs => hs.2 hexc)
        · rw [if_neg hexc]
          exact iff_of_true rfl (.inr ⟨hfc,hexc⟩)

/-- A response has a head. -/
theorem responseLayout_head (fc : Byte) : 1≤(responseLayout fc).head := by
  rw [responseLayout]
  split <;> decide

/-! ### One round -/

/-- A poll that does not leave the arrays leaves the LED lit exactly after a
message that does so. -/
theorem exit_led {s : Machine (App τ)} {r : Outcome NmbsError Fault Unit×Machine (App τ)}
    (h : Exit overshift ps s r) (hx : ∀ x,r.1≠.fault x) :
    r.2.line.led=true ↔ LeavesLit (arrivals s.line.rx) := by
  cases h with
  | short e t hshort hs =>
    have hdark : ¬LeavesLit (arrivals s.line.rx) := by
      match arrivals s.line.rx,hshort with
      | [],_ => exact id
      | [_],_ => exact id
    refine iff_of_false ?_ hdark
    rw [hs.2]
    exact Bool.false_ne_true
  | unknown t hbs hl happ hline =>
    rw [hline,hbs,LeavesLit,hl]
    exact iff_of_true rfl trivial
  | @request u fc lay r ho hexit =>
    obtain ⟨⟨as,has⟩,hl⟩ := ho
    have hlit : LeavesLit (arrivals s.line.rx) ↔ Foreign u ∧
        lay.receive (arrivals s.line.rx)=.frame ∧
        StrayHeader u fc ((arrivals s.line.rx).drop (lay.span (arrivals s.line.rx))) := by
      rw [has,LeavesLit,hl]
    rw [hlit]
    cases hexit with
    | starved e t hr hs =>
      rw [hs.2]
      exact iff_of_false Bool.false_ne_true fun h => by cases hr.symm.trans h.2.1
    | overrun x t hr hk => exact absurd rfl (hx x)
    | badCrc t hu hr happ hline =>
      rw [hline]
      exact iff_of_false Bool.false_ne_true fun h => by cases hr.symm.trans h.2.1
    | flushed t hu hr happ hline =>
      rw [hline]
      exact iff_of_false Bool.false_ne_true fun h => by cases hr.symm.trans h.2.1
    | leaves x t hu hr hleaves hk => exact absurd rfl (hx x)
    | dropped o t hu hr hleaves hnone happ hline =>
      have hcome := lay.receive_whole (.inr hr)
      have hrx : (gotten s u fc lay).line.rx=s.line.rx.drop (lay.span (arrivals s.line.rx)) := rfl
      rw [hline,hrx,arrivals_drop _ hcome,decide_eq_true_iff,
        responseTaken_two (responseLayout_head fc)]
      exact ⟨fun h => ⟨hu,hr,h⟩,fun h => h.2.2⟩
    | answered r hu hr ha =>
      have hdark : r.2.line.led=false := by
        rcases answer_line_cases overshift ps ha hx with hkept | ⟨message,hsent⟩
        · rw [hkept]
          rfl
        · rw [hsent]
      rw [hdark]
      exact iff_of_false Bool.false_ne_true fun h => hu h.1

/-- A round that does not leave the arrays leaves the LED dark exactly when no
message that leaves it lit has arrived. -/
theorem wait_led {s : Server τ} (h : (waitAndHandleRequest overshift ps s).fault=none) :
    (waitAndHandleRequest overshift ps s).machine.line.led=false ↔
      ¬LeavesLit (arrivals s.machine.line.rx) := by
  have hnone := wait_returned overshift ps h
  obtain ⟨m,f⟩ := s
  obtain rfl : f=none := hnone
  rw [←Bool.not_eq_true,not_iff_not,(wait_of_poll overshift ps m).2]
  exact exit_led overshift ps (poll_exit overshift ps m) (poll_returned overshift ps h)

/-! ### Runs -/

/-- In a run that does not leave the arrays the LED is dark after every round
exactly when no round begins with a message that leaves it lit. -/
theorem led_dark_iff {s : Server τ} {n : ℕ} (h : (mainLoop overshift ps n s).fault=none) :
    (∀ k,k<n → (mainLoop overshift ps (k+1) s).machine.line.led=false) ↔
      ∀ k,k<n → ¬LeavesLit (arrivals (mainLoop overshift ps k s).machine.line.rx) := by
  have hround : ∀ k,k<n → ((mainLoop overshift ps (k+1) s).machine.line.led=false ↔
      ¬LeavesLit (arrivals (mainLoop overshift ps k s).machine.line.rx)) := by
    intro k hk
    have hreturned := mainLoop_returned overshift ps h (k:=k+1) hk
    rw [mainLoop_succ] at hreturned ⊢
    exact wait_led overshift ps hreturned
  constructor
  · exact fun hdark k hk => (hround k hk).mp (hdark k hk)
  · exact fun hnone k hk => (hround k hk).mpr (hnone k hk)

/-- A read of the three input registers, a silence and a read for another unit. -/
def readLine : List (Option Byte) :=
  (sealed [1#8,4#8,0#8,0#8,0#8,3#8]).map some++none::(sealed [2#8,4#8,0#8,0#8,0#8,3#8]).map some

/-- The first read is answered, and no round leaves the LED lit. -/
theorem led_dark_reads :
    (mainLoop (fun _ _ => 0#32) SubstituteSupply.powerSupply 3
      ⟨fresh readLine,none⟩).machine.line.tx.length=1 ∧
    ∀ k,k<3 → ¬LeavesLit (arrivals (mainLoop (fun _ _ => 0#32) SubstituteSupply.powerSupply k
      ⟨fresh readLine,none⟩).machine.line.rx) :=
  ⟨by decide +kernel,(led_dark_iff (fun _ _ => 0#32) SubstituteSupply.powerSupply
    (s:=⟨fresh readLine,none⟩) (n:=3) (by decide +kernel)).mp (by decide +kernel)⟩

/-- A header without a parser is all that a round takes, and lights the LED. -/
theorem wait_unknown {m : Machine (App τ)} {u fc : Byte} {as : List Byte}
    (hbs : arrivals m.line.rx=u::fc::as) (hl : requestLayout fc=none) :
    (waitAndHandleRequest overshift ps ⟨m,none⟩).fault=none ∧
    (waitAndHandleRequest overshift ps ⟨m,none⟩).machine.line.led=true := by
  have hexit := poll_exit overshift ps m
  rcases hp : nmbsServerPoll (nmbsServer overshift ps) m with ⟨o,t⟩
  rw [hp] at hexit
  cases hexit with
  | short e t hshort hs =>
    rw [hbs,List.length_cons,List.length_cons] at hshort
    omega
  | unknown t hbs' hl' happ hline =>
    rw [wait_ok overshift ps (s:=⟨m,none⟩) rfl hp,hline]
    exact ⟨rfl,rfl⟩
  | request ho hexit =>
    obtain ⟨⟨as',has⟩,hl'⟩ := ho
    obtain ⟨_,hrest⟩ := List.cons.inj (hbs.symm.trans has)
    obtain ⟨rfl,_⟩ := List.cons.inj hrest
    cases hl.symm.trans hl'

/-- A write of one register, for which the library has no parser. -/
def registerWrite : List Byte := sealed [1#8,6#8,0#8,0#8,0#8,1#8]

/-- After it a fresh server waits with its LED lit. -/
theorem led_lit_register :
    (mainLoop (fun _ _ => 0#32) SubstituteSupply.powerSupply 1
      ⟨fresh (registerWrite.map some),none⟩).fault=none ∧
    (mainLoop (fun _ _ => 0#32) SubstituteSupply.powerSupply 1
      ⟨fresh (registerWrite.map some),none⟩).machine.line.led=true := by
  have hbs : arrivals (fresh (registerWrite.map some)).line.rx=
      1#8::6#8::[0#8,0#8,0#8,1#8]++crcBytes [1#8,6#8,0#8,0#8,0#8,1#8] := by
    rw [fresh_rx,arrivals_bytes]
    rfl
  rw [mainLoop_succ]
  exact wait_unknown (fun _ _ => 0#32) SubstituteSupply.powerSupply hbs rfl

end CyclotronPico.ActivityLed
