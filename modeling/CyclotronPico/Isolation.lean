import CyclotronPico.WriteFrames

/-!
# Bursts

A line that brings bursts of bytes with silences between them. Polls over a
burst start at its first byte and then wherever the poll before has stopped;
after a request with an unknown function code that is two bytes on, so that
what was meant as the content of a request is received as one. As long as no
request for this server lies where a later poll starts, and no write frame is
followed by more bytes, the supply is commanded by whole bursts only and the
rest of a burst is never executed.
-/

namespace CyclotronPico.Isolation

open BitBuffer Effects PicoController Nanomodbus NanomodbusServer Frames Reception Requests
  ServerAnswers Responses Polls SupplyInterface ModbusServer Handling WriteFrames

variable {τ : Type} (overshift : Overshift) (ps : PowerSupplyInterface τ)

/-- Bursts on the line, each followed by a silence. -/
def onLine (bursts : List (List Byte)) : List (Option Byte) :=
  bursts.flatMap fun burst => burst.map some++[none]

/-- What is left of a burst where a poll starts. -/
inductive PollStart (burst : List Byte) : List Byte → Prop where
  /-- The first poll starts at the first byte. -/
  | first : PollStart burst burst
  /-- The next one starts after the bytes that a poll takes. -/
  | next {bs : List Byte} {n : ℕ} (h : PollStart burst bs) (hn : pollTaken bs=some n) :
      PollStart burst (bs.drop n)

/-- A write frame for this server. -/
def IsWriteFrame (bs : List Byte) : Prop :=
  ∃ u q coils,WriteFields u q coils ∧ bs=writeFrame u q coils

/-- The bytes begin with a request for this server or for every unit that is
received, or that leads out of an array. -/
def Requested (bs : List Byte) : Prop :=
  ∃ u fc as lay,bs=u::fc::as ∧ requestLayout fc=some lay ∧ ¬Foreign u ∧
    (lay.receive bs=.frame ∨ lay.receive bs=.overrun)

/-- A write frame at the start of the burst is the whole burst, and no request
lies where a later poll over it starts. -/
def Isolated (burst : List Byte) : Prop :=
  (∀ frame rest,IsWriteFrame frame → burst=frame++rest → frame=burst) ∧
    ∀ bs,PollStart burst bs → bs.length<burst.length → ¬Requested bs

/-- A call of `setStatus` has the parameter of a write frame. -/
def MadeBy (frame : List Byte) (call : SetStatusCall) : Prop :=
  IsWriteFrame frame ∧ call.dataType=writtenType frame ∧ call.value=writtenValue overshift frame

/-- The calls stem from different bursts, in the order in which they came,
each of which is a write frame with the parameter of the call. -/
def Stems (bursts : List (List Byte)) (calls : List SetStatusCall) : Prop :=
  ∃ frames,List.Sublist frames bursts ∧ List.Forall₂ (MadeBy overshift) frames calls

/-- A poll executes nothing: no request for this server is received, and the
application and what was transmitted stay. -/
def Untouched (m : Machine (App τ)) : Prop :=
  (¬∃ u fc lay,Opens m u fc lay ∧ ¬Foreign u ∧ lay.receive (arrivals m.line.rx)=.frame) ∧
    Kept m (nmbsServerPoll (nmbsServer overshift ps) m).2

/-- A round makes no call, or the one of a burst. -/
def CallsBy (burst : List Byte) (m : Machine (App τ)) : Prop :=
  (waitAndHandleRequest overshift ps ⟨m,none⟩).machine.app.calls=m.app.calls ∨
    ∃ call,MadeBy overshift burst call ∧
      (waitAndHandleRequest overshift ps ⟨m,none⟩).machine.app.calls=m.app.calls++[call]

/-- What the next round of a server does, by where its line stands. -/
inductive RoundApart (bursts : List (List Byte)) : Server τ → Prop where
  /-- The run has left defined behaviour. -/
  | stopped {s : Server τ} (h : s.fault≠none) : RoundApart bursts s
  /-- Behind the last burst nothing is executed. -/
  | over {m : Machine (App τ)} (hrx : m.line.rx=[]) (h : Untouched overshift ps m) :
      RoundApart bursts ⟨m,none⟩
  /-- At the start of a burst a call stems from this burst as a whole. -/
  | whole {m : Machine (App τ)} {burst : List Byte} {todo : List (List Byte)}
      (hb : burst::todo<:+bursts) (hrx : m.line.rx=burst.map some++none::onLine todo)
      (h : CallsBy overshift ps burst m) : RoundApart bursts ⟨m,none⟩
  /-- In the middle or at the end of a burst nothing is executed. -/
  | middle {m : Machine (App τ)} {burst bs : List Byte} {todo : List (List Byte)}
      (hb : burst::todo<:+bursts) (hp : PollStart burst bs)
      (hlen : bs.length<burst.length) (hrx : m.line.rx=bs.map some++none::onLine todo)
      (h : Untouched overshift ps m) : RoundApart bursts ⟨m,none⟩

/-- Over a number of rounds the calls stem from whole bursts, each from that
over which it is made, and nothing else in a burst is executed. -/
def KeptApart (bursts : List (List Byte)) (m : Machine (App τ)) (n : ℕ) : Prop :=
  (∃ calls,(mainLoop overshift ps n ⟨m,none⟩).machine.app.calls=m.app.calls++calls ∧
    Stems overshift bursts calls) ∧
  ∀ k<n,RoundApart overshift ps bursts (mainLoop overshift ps k ⟨m,none⟩)

/-! ### Calls and bursts -/

/-- No call stems from no burst. -/
theorem stems_nil (bursts : List (List Byte)) : Stems overshift bursts [] :=
  ⟨[],List.nil_sublist bursts,.nil⟩

/-- A call that stems from a burst. -/
theorem stems_single {burst : List Byte} {call : SetStatusCall} (h : MadeBy overshift burst call) :
    Stems overshift [burst] [call] := ⟨[burst],.refl _,.cons h .nil⟩

/-- Calls that stem from some bursts and calls that stem from later ones. -/
theorem stems_append {bursts bursts' : List (List Byte)} {calls calls' : List SetStatusCall}
    (h : Stems overshift bursts calls) (h' : Stems overshift bursts' calls') :
    Stems overshift (bursts++bursts') (calls++calls') := by
  obtain ⟨frames,hsub,hmade⟩ := h
  obtain ⟨frames',hsub',hmade'⟩ := h'
  exact ⟨frames++frames',hsub.append hsub',List.rel_append hmade hmade'⟩

/-- The first burst on the line. -/
theorem onLine_cons (burst : List Byte) (bursts : List (List Byte)) :
    onLine (burst::bursts)=burst.map some++none::onLine bursts := by
  rw [onLine,List.flatMap_cons,List.append_assoc]
  rfl

/-- The bytes of a burst come before its silence. -/
theorem arrivals_burst (bs : List Byte) (rest : List (Option Byte)) :
    arrivals (bs.map some++none::rest)=bs := by
  rw [arrivals_append,arrivals,List.append_nil]

/-- What a poll leaves of a burst and of the line behind it. -/
theorem lineAfter_burst (bs : List Byte) (rest : List (Option Byte)) :
    lineAfter (bs.map some++none::rest) (pollTaken bs)=
      match pollTaken bs with
      | some n => (bs.drop n).map some++none::rest
      | none => rest := by
  cases h : pollTaken bs with
  | none => exact afterSilence_append bs (none::rest)
  | some n =>
    have hn : n≤(bs.map some).length := by
      rw [List.length_map]
      exact (pollTaken_bounds h).2
    dsimp only
    rw [lineAfter,List.drop_append_of_le_length hn,List.map_drop]

/-- No poll starts before the burst does. -/
theorem pollStart_length {burst bs : List Byte} (h : PollStart burst bs) :
    bs.length≤burst.length := by
  induction h with
  | first => exact le_rfl
  | next h hn ih => exact (List.drop_sublist _ _).length_le.trans ih

/-! ### One round -/

/-- Where the server stands, with some of the bursts to come. -/
inductive Stands (bursts todo : List (List Byte)) : Server τ → Prop where
  /-- The run has left defined behaviour. -/
  | stopped {s : Server τ} (h : s.fault≠none) : Stands bursts todo s
  /-- The next burst is about to come. -/
  | between {m : Machine (App τ)} (hrx : m.line.rx=onLine todo) : Stands bursts todo ⟨m,none⟩
  /-- The end of a burst is left. -/
  | inside {m : Machine (App τ)} {burst bs : List Byte} (hb : burst::todo<:+bursts)
      (hp : PollStart burst bs) (hlen : bs.length<burst.length)
      (hrx : m.line.rx=bs.map some++none::onLine todo) : Stands bursts todo ⟨m,none⟩

/-- After a poll over a burst. -/
theorem wait_stands {m : Machine (App τ)} {burst bs : List Byte} {bursts todo : List (List Byte)}
    (hb : burst::todo<:+bursts) (hp : PollStart burst bs)
    (hrx : m.line.rx=bs.map some++none::onLine todo) :
    Stands bursts todo (waitAndHandleRequest overshift ps ⟨m,none⟩) := by
  by_cases hf : (waitAndHandleRequest overshift ps ⟨m,none⟩).fault=none
  · have hline := wait_line overshift ps m hf
    rw [hrx,arrivals_burst,lineAfter_burst] at hline
    generalize waitAndHandleRequest overshift ps ⟨m,none⟩=s at hf hline ⊢
    obtain ⟨t,f⟩ := s
    obtain rfl : f=none := hf
    cases hn : pollTaken bs with
    | none =>
      rw [hn] at hline
      exact .between hline
    | some n =>
      rw [hn] at hline
      have hlen := pollStart_length hp
      have hbounds := pollTaken_bounds hn
      have hshort : (bs.drop n).length<burst.length := by
        rw [List.length_drop]
        omega
      exact .inside hb (.next hp hn) hshort hline
  · exact .stopped hf

/-- A poll that starts at no request for this server executes nothing. -/
theorem poll_untouched {m : Machine (App τ)} {bs : List Byte} (harr : arrivals m.line.rx=bs)
    (hno : ¬Requested bs) : Untouched overshift ps m := by
  have hnone : ¬∃ u fc lay,Opens m u fc lay ∧ ¬Foreign u ∧
      lay.receive (arrivals m.line.rx)=.frame := by
    rintro ⟨u,fc,lay,⟨⟨as,has⟩,hl⟩,hu,hr⟩
    rw [harr] at has hr
    exact hno ⟨u,fc,as,lay,has,hl,hu,.inl hr⟩
  rcases exit_cases overshift ps (poll_exit overshift ps m) with ⟨u,fc,lay,ho,hu,hr,_⟩ | hk
  · exact absurd ⟨u,fc,lay,ho,hu,hr⟩ hnone
  · exact ⟨hnone,hk⟩

/-- A poll behind the last burst executes nothing. -/
theorem poll_over {m : Machine (App τ)} (hrx : m.line.rx=[]) : Untouched overshift ps m := by
  refine poll_untouched overshift ps (congrArg arrivals hrx) ?_
  rintro ⟨u,fc,as,lay,hbs,_⟩
  cases hbs

/-- A round whose poll executes nothing makes no call. -/
theorem wait_untouched {m : Machine (App τ)} (h : Untouched overshift ps m) :
    (waitAndHandleRequest overshift ps ⟨m,none⟩).machine.app.calls=m.app.calls :=
  (wait_of_poll overshift ps m).1.trans (congrArg App.calls h.2.1)

/-- The first poll over a burst makes a call only when the burst is a write frame. -/
theorem wait_burst {m : Machine (App τ)} {burst : List Byte} {rest : List (Option Byte)}
    (hi : Isolated burst) (hrx : m.line.rx=burst.map some++none::rest) :
    CallsBy overshift ps burst m := by
  by_cases h : IsWriteFrame burst
  · obtain ⟨u,q,coils,hf,rfl⟩ := h
    have harr : arrivals m.line.rx=writeFrame u q coils++[] := by
      rw [hrx,arrivals_burst,List.append_nil]
    obtain ⟨code,hcode⟩ := poll_write overshift ps hf harr (poll_exit overshift ps m)
    refine .inr ⟨_,?_,(wait_of_poll overshift ps m).1.trans hcode⟩
    exact ⟨⟨u,q,coils,hf,rfl⟩,rfl,rfl⟩
  · left
    rw [(wait_of_poll overshift ps m).1]
    rcases exit_calls overshift ps (poll_exit overshift ps m) with hsame | ⟨u,q,coils,hf,htaken⟩
    · exact hsame
    · have harr := congrArg arrivals htaken
      rw [hrx,arrivals_burst,arrivals_append] at harr
      have hwhole := hi.1 _ _ ⟨u,q,coils,hf,rfl⟩ harr
      rw [←hwhole] at h
      exact absurd ⟨u,q,coils,hf,rfl⟩ h

/-- A round behind the last burst makes no call and leaves the server there. -/
theorem wait_over {bursts : List (List Byte)} {m : Machine (App τ)} (hrx : m.line.rx=[]) :
    (waitAndHandleRequest overshift ps ⟨m,none⟩).machine.app.calls=m.app.calls ∧
      Stands bursts [] (waitAndHandleRequest overshift ps ⟨m,none⟩) := by
  have hshort : (arrivals m.line.rx).length<2 := by
    rw [hrx]
    exact Nat.two_pos
  obtain ⟨t,ht,_,hline⟩ := wait_silent overshift ps (s:=⟨m,none⟩) rfl hshort
  refine ⟨wait_untouched overshift ps (poll_over overshift ps hrx),?_⟩
  rw [ht]
  refine .between ?_
  rw [hline,hrx]
  rfl

section Bursts

variable {bursts : List (List Byte)} (hi : ∀ burst∈bursts,Isolated burst)

include hi

/-- Wherever the server stands, its next round keeps the bursts apart. -/
theorem stands_apart {todo : List (List Byte)} {s : Server τ} (htodo : todo<:+bursts)
    (h : Stands bursts todo s) : RoundApart overshift ps bursts s := by
  cases h with
  | stopped h => exact .stopped h
  | inside hb hp hlen hrx =>
    have hno := (hi _ (hb.subset List.mem_cons_self)).2 _ hp hlen
    refine .middle hb hp hlen hrx (poll_untouched overshift ps ?_ hno)
    rw [hrx,arrivals_burst]
  | between hrx =>
    match todo with
    | [] => exact .over hrx (poll_over overshift ps hrx)
    | burst::todo =>
      rw [onLine_cons] at hrx
      exact .whole htodo hrx
        (wait_burst overshift ps (hi burst (htodo.subset List.mem_cons_self)) hrx)

/-- A round handles some of the bursts to come, and its calls stem from them. -/
theorem wait_stems {todo : List (List Byte)} {s : Server τ} (htodo : todo<:+bursts)
    (h : Stands bursts todo s) :
    ∃ past todo' calls,todo=past++todo' ∧
      (waitAndHandleRequest overshift ps s).machine.app.calls=s.machine.app.calls++calls ∧
      Stems overshift past calls ∧ Stands bursts todo' (waitAndHandleRequest overshift ps s) := by
  have happ : ∀ calls : List SetStatusCall,calls=calls++[] := fun _ => (List.append_nil _).symm
  cases h with
  | @stopped s h =>
    obtain ⟨x,hx⟩ := Option.ne_none_iff_exists'.mp h
    rw [wait_stopped overshift ps hx]
    exact ⟨[],todo,[],rfl,happ _,stems_nil overshift [],.stopped h⟩
  | @inside m burst bs hb hp hlen hrx =>
    have hno := (hi _ (hb.subset List.mem_cons_self)).2 _ hp hlen
    have hidle := wait_untouched overshift ps (poll_untouched overshift ps (m:=m)
      (by rw [hrx,arrivals_burst]) hno)
    exact ⟨[],todo,[],rfl,hidle.trans (happ _),stems_nil overshift [],
      wait_stands overshift ps hb hp hrx⟩
  | @between m hrx =>
    match todo with
    | [] =>
      obtain ⟨hidle,hstands⟩ := wait_over overshift ps hrx
      exact ⟨[],[],[],rfl,hidle.trans (happ _),stems_nil overshift [],hstands⟩
    | burst::todo =>
      rw [onLine_cons] at hrx
      have hstands := wait_stands overshift ps htodo .first hrx
      rcases wait_burst overshift ps (hi burst (htodo.subset List.mem_cons_self)) hrx with
        hsame | ⟨call,hmade,hcall⟩
      · exact ⟨[burst],todo,[],rfl,hsame.trans (happ _),stems_nil overshift _,hstands⟩
      · exact ⟨[burst],todo,[call],rfl,hcall,stems_single overshift hmade,hstands⟩

/-! ### Runs -/

/-- After any number of rounds the calls stem from bursts that have come, and
the server stands before or in those to come. -/
theorem run_stands {s : Server τ} (h : Stands bursts bursts s) (n : ℕ) :
    ∃ past todo calls,bursts=past++todo ∧
      (mainLoop overshift ps n s).machine.app.calls=s.machine.app.calls++calls ∧
      Stems overshift past calls ∧ Stands bursts todo (mainLoop overshift ps n s) := by
  induction n with
  | zero => exact ⟨[],bursts,[],rfl,(List.append_nil _).symm,stems_nil overshift [],h⟩
  | succ n ih =>
    obtain ⟨past,todo,calls,hbursts,hcalls,hstems,hstands⟩ := ih
    have htodo : todo<:+bursts := ⟨past,hbursts.symm⟩
    obtain ⟨past',todo',calls',rfl,hcalls',hstems',hstands'⟩ :=
      wait_stems overshift ps hi htodo hstands
    rw [mainLoop_succ]
    refine ⟨past++past',todo',calls++calls',?_,?_,stems_append overshift hstems hstems',hstands'⟩
    · rw [hbursts,List.append_assoc]
    · rw [hcalls',hcalls,List.append_assoc]

end Bursts

/-- Calls that stem from the first of some bursts stem from them all. -/
theorem stems_mono {past todo : List (List Byte)} {calls : List SetStatusCall}
    (h : Stems overshift past calls) : Stems overshift (past++todo) calls := by
  obtain ⟨frames,hsub,hmade⟩ := h
  exact ⟨frames,hsub.trans (List.sublist_append_left _ _),hmade⟩

/-- A write frame at the start of another is the other. -/
theorem writeFrame_prefix {frame burst rest : List Byte} (h : IsWriteFrame frame)
    (hb : IsWriteFrame burst) (he : frame++rest=burst) : frame=burst := by
  obtain ⟨u,q,coils,hf,rfl⟩ := h
  obtain ⟨u',q',coils',hf',rfl⟩ := hb
  have hspan := (writeFrame_received hf rest).2.1
  have hspan' := (writeFrame_received hf' []).2.1
  rw [List.append_nil] at hspan'
  have hlen := congrArg List.length he
  rw [he,hspan'] at hspan
  rw [List.length_append] at hlen
  have hrest : rest=[] := List.length_eq_zero_iff.mp (by omega)
  rw [←he,hrest,List.append_nil]

/-- A burst that is a write frame is isolated: the first poll takes all of it. -/
theorem isolated_writeFrame {burst : List Byte} (h : IsWriteFrame burst) : Isolated burst := by
  have hstart : ∀ bs,PollStart burst bs → bs=burst ∨ bs=[] := by
    intro bs hp
    induction hp with
    | first => exact .inl rfl
    | next hp hn ih =>
      rcases ih with rfl | rfl
      · obtain ⟨u,q,coils,hf,rfl⟩ := h
        have hunit : ¬Foreign u := fun hu => hf.unit.elim hu.1 hu.2
        obtain ⟨hr,hspan,_⟩ := writeFrame_received hf []
        rw [List.append_nil] at hr hspan
        have hl : requestLayout 15#8=some coilsLayout := rfl
        have htaken : pollTaken (writeFrame u q coils)=
            some (coilsLayout.span (writeFrame u q coils)) :=
          (pollTaken_own hl hunit).trans (if_pos (.inr hr))
        rw [hspan] at htaken
        obtain rfl := Option.some.inj (hn.symm.trans htaken)
        exact .inr List.drop_length
      · cases hn
  refine ⟨fun frame rest hframe he => writeFrame_prefix hframe h he.symm,fun bs hp hlen => ?_⟩
  rintro ⟨u,fc,as,lay,hbs,_⟩
  rcases hstart _ hp with rfl | rfl
  · exact lt_irrefl _ hlen
  · cases hbs

/-- A write of one register, whose function code has no handler. -/
def registerBurst : List Byte := sealed [1#8,6#8,0#8,0#8,0#8,1#8]

/-- Later polls over it start at its third and its fifth byte, and receive nothing. -/
theorem isolated_register : Isolated registerBurst := by
  have hclosed : ∀ bs∈[registerBurst,registerBurst.drop 2,registerBurst.drop 4],
      ∀ n∈pollTaken bs,
        bs.drop n∈[registerBurst,registerBurst.drop 2,registerBurst.drop 4] := by
    decide +kernel
  have hstart : ∀ bs,PollStart registerBurst bs →
      bs∈[registerBurst,registerBurst.drop 2,registerBurst.drop 4] := by
    intro bs hp
    induction hp with
    | first => exact List.mem_cons_self
    | next hp hn ih => exact hclosed _ ih _ hn
  constructor
  · rintro frame rest ⟨u,q,coils,hf,rfl⟩ he
    cases (List.cons.inj (List.cons.inj he).2).1
  · rintro bs hp hlen ⟨u,fc,as,lay,hbs,hl,_,hr⟩
    rcases List.mem_cons.mp (hstart bs hp) with rfl | hrest
    · exact lt_irrefl _ hlen
    rcases List.mem_cons.mp hrest with rfl | hrest
    · obtain ⟨rfl,htail⟩ := List.cons.inj (hbs.symm.trans rfl)
      obtain ⟨rfl,_⟩ := List.cons.inj htail
      cases hl
    · obtain rfl := List.mem_singleton.mp hrest
      obtain ⟨rfl,htail⟩ := List.cons.inj (hbs.symm.trans rfl)
      obtain ⟨rfl,_⟩ := List.cons.inj htail
      obtain rfl := Option.some.inj hl
      revert hr
      decide +kernel

/-! ### A write frame in the middle of a burst -/

/-- Behind a header with an unknown function code a write frame commands the supply. -/
theorem stray_called {m : Machine (App τ)} {u fc : Byte} {frame : List Byte}
    {rest : List (Option Byte)} (hfc : requestLayout fc=none) (hframe : IsWriteFrame frame)
    (hrx : m.line.rx=(u::fc::frame).map some++none::rest) :
    ∃ call,(mainLoop overshift ps 2 ⟨m,none⟩).machine.app.calls=m.app.calls++[call] := by
  have hbs : arrivals m.line.rx=u::fc::frame := by rw [hrx,arrivals_burst]
  have hfirst : ∃ t,waitAndHandleRequest overshift ps ⟨m,none⟩=⟨t,none⟩ ∧ t.app=m.app ∧
      t.line.rx=frame.map some++none::rest := by
    have hexit := poll_exit overshift ps m
    rcases hp : nmbsServerPoll (nmbsServer overshift ps) m with ⟨o,t⟩
    rw [hp] at hexit
    cases hexit with
    | short e t hshort hs =>
      rw [hbs,List.length_cons,List.length_cons] at hshort
      omega
    | unknown t hbs' hl happ hline =>
      refine ⟨t,wait_ok overshift ps (s:=⟨m,none⟩) rfl hp,happ,?_⟩
      rw [hline,hrx]
      rfl
    | request ho h =>
      obtain ⟨⟨as,has⟩,hl⟩ := ho
      obtain ⟨rfl,htail⟩ := List.cons.inj (hbs.symm.trans has)
      obtain ⟨rfl,_⟩ := List.cons.inj htail
      cases hfc.symm.trans hl
  obtain ⟨t,ht,happ,hline⟩ := hfirst
  obtain ⟨u',q,coils,hf,rfl⟩ := hframe
  have harr : arrivals t.line.rx=writeFrame u' q coils++[] := by
    rw [hline,arrivals_burst,List.append_nil]
  obtain ⟨code,hcode⟩ := poll_write overshift ps hf harr (poll_exit overshift ps t)
  rw [mainLoop_succ,mainLoop_succ,mainLoop,Function.iterate_zero,id,ht,
    (wait_of_poll overshift ps t).1,←happ]
  exact ⟨_,hcode⟩

/-- A request with function code 6 whose content is a write of the current 1. -/
def strayBurst : List Byte := [1#8,6#8]++writeFrame 1#8 3 [7#8]

end CyclotronPico.Isolation
