import CyclotronPico.LineErrors
import CyclotronPico.Progress
import CyclotronPico.WriteFrames

/-!
# Synchronisation at silences

Whatever bytes came before a silence, the rounds that work them off end with
it: none takes bytes from both sides. What comes after the silence is handled
as by a server that has just started to listen. Bytes in which no write frame
lies command nothing, and over bytes in which no request lies the server only
talks to the supply.
-/

namespace CyclotronPico.Resynchronisation

open BitBuffer Effects PicoController Nanomodbus NanomodbusServer Frames Responses Polls
  SupplyInterface ModbusServer Handling WriteFrames Sessions LineErrors

variable {τ : Type} (overshift : Overshift) (ps : PowerSupplyInterface τ)

/-- A write frame for this server lies somewhere in the bytes. -/
def HoldsWrite (bs : List Byte) : Prop :=
  ∃ u q coils,WriteFields u q coils ∧ writeFrame u q coils<:+:bs

/-- Bytes behind others hold no write frame that all do not hold. -/
theorem holdsWrite_drop {bs : List Byte} {n : ℕ} (h : HoldsWrite (bs.drop n)) : HoldsWrite bs := by
  obtain ⟨u,q,coils,hf,hin⟩ := h
  exact ⟨u,q,coils,hf,hin.trans (List.drop_suffix n bs).isInfix⟩

/-- A request for this server or for every unit lies somewhere in the bytes. -/
def HoldsRequest (bs : List Byte) : Prop :=
  ∃ u fc as lay,u::fc::as<:+bs ∧ requestLayout fc=some lay ∧ ¬Foreign u ∧
    lay.receive (u::fc::as)=.frame

/-- Bytes behind others hold no request that all do not hold. -/
theorem holdsRequest_drop {bs : List Byte} {n : ℕ} (h : HoldsRequest (bs.drop n)) :
    HoldsRequest bs := by
  obtain ⟨u,fc,as,lay,hin,hrest⟩ := h
  exact ⟨u,fc,as,lay,hin.trans (List.drop_suffix n bs),hrest⟩

/-- From one state to another the server has transmitted nothing, and has
exchanged frames with the supply a number of times and done nothing else. -/
def OnlyTalked (m t : Machine (App τ)) (k : ℕ) : Prop :=
  t.line.tx=m.line.tx ∧ ∃ j≤k,t.app=(App.communicate ps)^[j] m.app

/-- Talking to the supply some times and then some more. -/
theorem onlyTalked_trans {m t v : Machine (App τ)} {k l : ℕ} (h : OnlyTalked ps m t k)
    (h' : OnlyTalked ps t v l) : OnlyTalked ps m v (l+k) := by
  obtain ⟨htx,i,hi,happ⟩ := h
  obtain ⟨htx',j,hj,happ'⟩ := h'
  refine ⟨htx'.trans htx,j+i,by omega,?_⟩
  rw [happ',happ,Function.iterate_add_apply]

/-- A round whose poll answers no request only talks to the supply. -/
theorem wait_talked (m : Machine (App τ)) {garbage : List Byte}
    (harr : arrivals m.line.rx=garbage) :
    OnlyTalked ps m (waitAndHandleRequest overshift ps ⟨m,none⟩).machine 1 ∨
      HoldsRequest garbage := by
  rcases exit_cases overshift ps (poll_exit overshift ps m) with ⟨u,fc,lay,ho,hu,hr,_⟩ | hk
  · obtain ⟨⟨as,has⟩,hl⟩ := ho
    rw [harr] at has
    rw [harr,has] at hr
    exact .inr ⟨u,fc,as,lay,has ▸ List.suffix_refl _,hl,hu,hr⟩
  · left
    obtain ⟨happ,htx⟩ := hk
    rcases hp : nmbsServerPoll (nmbsServer overshift ps) m with ⟨o,t⟩
    rw [hp] at happ htx
    rcases o with _ | e | x
    · rw [wait_ok overshift ps (s:=⟨m,none⟩) rfl hp]
      exact ⟨htx,0,Nat.zero_le 1,happ⟩
    · rw [wait_err overshift ps (s:=⟨m,none⟩) rfl hp]
      exact ⟨htx,1,le_rfl,congrArg (App.communicate ps) happ⟩
    · rw [wait_fault overshift ps (s:=⟨m,none⟩) rfl hp]
      exact ⟨htx,0,Nat.zero_le 1,happ⟩

/-- A round over bytes before a silence ends with the silence, or it takes at
least two of the bytes and no more; it calls nothing unless they begin with a
write frame, and only talks to the supply unless they begin with a request. -/
theorem wait_garbage (m : Machine (App τ)) {garbage : List Byte} {after : List (Option Byte)}
    (hrx : m.line.rx=garbage.map some++none::after) {t : Machine (App τ)}
    (ht : waitAndHandleRequest overshift ps ⟨m,none⟩=⟨t,none⟩) :
    (t.line.rx=after ∨ ∃ n,2≤n ∧ n≤garbage.length ∧
      t.line.rx=(garbage.drop n).map some++none::after) ∧
    (t.app.calls=m.app.calls ∨ HoldsWrite garbage) ∧
    (OnlyTalked ps m t 1 ∨ HoldsRequest garbage) := by
  have harr : arrivals m.line.rx=garbage := by
    rw [hrx,arrivals_append,arrivals,List.append_nil]
  have hf : (waitAndHandleRequest overshift ps ⟨m,none⟩).fault=none := congrArg Server.fault ht
  have hline := wait_line overshift ps m hf
  rw [ht,harr] at hline
  have htalked := wait_talked overshift ps m harr
  rw [ht] at htalked
  refine ⟨?_,?_,htalked⟩
  · cases htaken : pollTaken garbage with
    | none =>
      rw [htaken,lineAfter,hrx,afterSilence_append] at hline
      exact .inl hline
    | some n =>
      obtain ⟨htwo,hle⟩ := pollTaken_bounds htaken
      have hlen : n≤(garbage.map some).length := by
        rw [List.length_map]
        exact hle
      rw [htaken,lineAfter,hrx,List.drop_append_of_le_length hlen,←List.map_drop] at hline
      exact .inr ⟨n,htwo,hle,hline⟩
  · obtain ⟨hcalls,_⟩ := wait_of_poll overshift ps m
    rw [ht] at hcalls
    rcases exit_calls overshift ps (poll_exit overshift ps m) with hsame | ⟨u,q,coils,hf,hframe⟩
    · exact .inl (hcalls.trans hsame)
    · refine .inr ⟨u,q,coils,hf,?_⟩
      have hbegin := congrArg arrivals hframe
      rw [harr,arrivals_append] at hbegin
      rw [hbegin]
      exact (List.prefix_append _ _).isInfix

/-- The bytes before a silence are worked off with the silence. -/
theorem garbage_worked_off (m : Machine (App τ)) (garbage : List Byte)
    {after : List (Option Byte)} (hrx : m.line.rx=garbage.map some++none::after) :
    ∃ k,2*k≤garbage.length+2 ∧ ((mainLoop overshift ps k ⟨m,none⟩).fault≠none ∨
      ∃ t,mainLoop overshift ps k ⟨m,none⟩=⟨t,none⟩ ∧ t.line.rx=after ∧
        (t.app.calls=m.app.calls ∨ HoldsWrite garbage) ∧
        (OnlyTalked ps m t k ∨ HoldsRequest garbage)) := by
  induction hn : garbage.length using Nat.strong_induction_on generalizing m garbage with
  | _ n ih =>
    cases hround : waitAndHandleRequest overshift ps ⟨m,none⟩ with
    | mk t fault =>
      have hone : mainLoop overshift ps 1 ⟨m,none⟩=⟨t,fault⟩ := hround
      cases fault with
      | some x =>
        refine ⟨1,by omega,.inl ?_⟩
        rw [hone]
        exact Option.some_ne_none x
      | none =>
        obtain ⟨hend | ⟨j,htwo,hle,hmore⟩,hcalls,htalked⟩ :=
          wait_garbage overshift ps m hrx hround
        · exact ⟨1,by omega,.inr ⟨t,hone,hend,hcalls,htalked⟩⟩
        · have hshort : (garbage.drop j).length<n := by
            rw [List.length_drop]
            omega
          obtain ⟨k,hk,hrun⟩ := ih _ hshort t (garbage.drop j) hmore rfl
          have hsplit : mainLoop overshift ps (k+1) ⟨m,none⟩=
              mainLoop overshift ps k ⟨t,none⟩ := by
            rw [mainLoop,Function.iterate_succ_apply,hround]
            rfl
          rw [List.length_drop] at hk
          refine ⟨k+1,by omega,?_⟩
          rw [hsplit]
          rcases hrun with hfault | ⟨v,hv,hvrx,hvcalls,hvtalked⟩
          · exact .inl hfault
          · refine .inr ⟨v,hv,hvrx,?_,?_⟩
            · rcases hvcalls with hsame | hwrite
              · exact hcalls.imp_left hsame.trans
              · exact .inr (holdsWrite_drop hwrite)
            · rcases hvtalked with hlater | hrequest
              · exact htalked.imp_left fun hfirst => onlyTalked_trans ps hfirst hlater
              · exact .inr (holdsRequest_drop hrequest)

/-- A header without a handler, the beginning of a read, and a silence before a session. -/
def strayLine : List (Option Byte) :=
  [9#8,9#8,1#8,4#8,0#8,0#8,0#8].map some++none::(shortPassages.flatMap Passage.line++[])

end CyclotronPico.Resynchronisation
