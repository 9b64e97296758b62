import CyclotronPico.Handling

/-!
# Working off the line

Every round takes at least two bytes or a silence from the line, or all that
is left, whatever the bytes are. What has come is worked off in half as many
rounds as there are bytes, and one for each silence; then the server talks
to the supply once in every round and transmits nothing.
-/

namespace CyclotronPico.Progress

open BitBuffer Effects PicoController Nanomodbus NanomodbusServer Frames Reception Responses Polls
  SupplyInterface ModbusServer Handling

variable {τ : Type} (overshift : Overshift) (ps : PowerSupplyInterface τ)

/-- What is left to be worked off: one for each byte, two for each silence. -/
def pending : List (Option Byte) → ℕ
  | [] => 0
  | some _::rx => pending rx+1
  | none::rx => pending rx+2

/-- Bytes that are taken are no longer left. -/
theorem pending_drop (rx : List (Option Byte)) {n : ℕ} (h : n≤(arrivals rx).length) :
    pending (rx.drop n)+n=pending rx := by
  induction n generalizing rx with
  | zero => rfl
  | succ n ih =>
    match rx,h with
    | some b::rx,h =>
      have hrest := ih rx (by rw [arrivals,List.length_cons] at h; omega)
      rw [List.drop_succ_cons,pending]
      omega
    | none::rx,h => rw [arrivals,List.length_nil] at h; omega
    | [],h => rw [arrivals,List.length_nil] at h; omega

/-- A silence that has passed is no longer left. -/
theorem pending_afterSilence (rx : List (Option Byte)) :
    afterSilence rx=[] ∨ pending (afterSilence rx)+2≤pending rx := by
  induction rx with
  | nil => exact .inl rfl
  | cons x rx ih =>
    cases x with
    | none => exact .inr le_rfl
    | some b =>
      rw [afterSilence,pending]
      rcases ih with h | h
      · exact .inl h
      · exact .inr (by omega)

/-- Nothing is left of a line without elements only. -/
theorem pending_zero {rx : List (Option Byte)} (h : pending rx=0) : rx=[] := by
  match rx,h with
  | [],_ => rfl
  | some _::rx,h => rw [pending] at h; omega
  | none::rx,h => rw [pending] at h; omega

/-- A poll works off at least two, or all. -/
theorem pending_lineAfter (rx : List (Option Byte)) :
    lineAfter rx (pollTaken (arrivals rx))=[] ∨
      pending (lineAfter rx (pollTaken (arrivals rx)))+2≤pending rx := by
  cases h : pollTaken (arrivals rx) with
  | none => exact pending_afterSilence rx
  | some n =>
    obtain ⟨htwo,hle⟩ := pollTaken_bounds h
    have hdrop := pending_drop rx hle
    refine .inr ?_
    rw [lineAfter]
    omega

/-- A round that stays inside the arrays works off at least two, or all. -/
theorem wait_pending {s : Server τ} (h : (waitAndHandleRequest overshift ps s).fault=none) :
    (waitAndHandleRequest overshift ps s).machine.line.rx=[] ∨
      pending (waitAndHandleRequest overshift ps s).machine.line.rx+2≤
        pending s.machine.line.rx := by
  have hs := wait_returned overshift ps h
  rcases s with ⟨m,f⟩
  dsimp only at hs
  subst hs
  rw [wait_line overshift ps m h]
  exact pending_lineAfter m.line.rx

/-- After each number of rounds all is worked off, or two for each round. -/
theorem run_pending {s : Server τ} {n : ℕ} (h : (mainLoop overshift ps n s).fault=none) :
    (mainLoop overshift ps n s).machine.line.rx=[] ∨
      pending (mainLoop overshift ps n s).machine.line.rx+2*n≤pending s.machine.line.rx := by
  induction n with
  | zero => exact .inr le_rfl
  | succ n ih =>
    have hbefore := ih (mainLoop_returned overshift ps h (Nat.le_succ n))
    rw [mainLoop_succ] at h ⊢
    rcases wait_pending overshift ps h with hnext | hnext
    · exact .inl hnext
    · rcases hbefore with hnil | hmore
      · rw [hnil] at hnext
        exact absurd hnext (by rw [pending]; omega)
      · exact .inr (by omega)

/-- Over an empty line every round talks to the supply, and transmits nothing. -/
theorem idle_rounds {s : Server τ} (hf : s.fault=none) (hrx : s.machine.line.rx=[]) (k : ℕ) :
    ∃ t,mainLoop overshift ps k s=⟨t,none⟩ ∧ t.line.rx=[] ∧ t.line.tx=s.machine.line.tx ∧
      t.app=(App.communicate ps)^[k] s.machine.app := by
  induction k with
  | zero => exact ⟨s.machine,congrArg (Server.mk s.machine) hf,hrx,rfl,rfl⟩
  | succ k ih =>
    obtain ⟨t,ht,htrx,httx,happ⟩ := ih
    have hshort : (arrivals t.line.rx).length<2 := by
      rw [htrx]
      exact Nat.zero_lt_two
    obtain ⟨v,hv,hvapp,hvline⟩ := wait_silent overshift ps (s:=⟨t,none⟩) rfl hshort
    dsimp only at hvapp hvline
    refine ⟨v,?_,?_,?_,?_⟩
    · rw [mainLoop_succ,ht,hv]
    · rw [hvline,htrx]
      rfl
    · rw [hvline,httx]
    · rw [hvapp,happ,Function.iterate_succ_apply']

/-- Whatever has come on the line, and whatever state the server is in: once
there were as many rounds as half the bytes and all the silences, the line
is worked off, and from then on the server talks to the supply exactly once
in every round and transmits nothing, unless a round has left the arrays. -/
theorem line_worked_off {s : Server τ} {n : ℕ} (h : (mainLoop overshift ps n s).fault=none)
    (hn : pending s.machine.line.rx≤2*n) (k : ℕ) :
    (mainLoop overshift ps n s).machine.line.rx=[] ∧
    (mainLoop overshift ps (k+n) s).fault=none ∧
    (mainLoop overshift ps (k+n) s).machine.line.tx=
      (mainLoop overshift ps n s).machine.line.tx ∧
    (mainLoop overshift ps (k+n) s).machine.app=
      (App.communicate ps)^[k] (mainLoop overshift ps n s).machine.app := by
  have hempty : (mainLoop overshift ps n s).machine.line.rx=[] := by
    rcases run_pending overshift ps h with hrx | hrx
    · exact hrx
    · exact pending_zero (by omega)
  have hsplit : mainLoop overshift ps (k+n) s=
      mainLoop overshift ps k (mainLoop overshift ps n s) :=
    Function.iterate_add_apply (waitAndHandleRequest overshift ps) k n s
  obtain ⟨t,ht,htrx,httx,happ⟩ := idle_rounds overshift ps h hempty k
  rw [hsplit,ht]
  exact ⟨hempty,rfl,httx,happ⟩

/-- A read, a silence and a write. -/
def requestLine : List (Option Byte) :=
  (sealed [1#8,4#8,0#8,0#8,0#8,3#8]).map some++none::
    (sealed [1#8,15#8,0#8,0#8,0#8,3#8,1#8,7#8]).map some

/-- They are worked off in ten rounds with two messages transmitted, and three
more rounds talk to the supply only. -/
theorem line_worked_off_ten :
    (mainLoop (fun _ _ => 0#32) SubstituteSupply.powerSupply 10
      ⟨fresh requestLine,none⟩).machine.line.tx.length=2 ∧
    (mainLoop (fun _ _ => 0#32) SubstituteSupply.powerSupply 10
      ⟨fresh requestLine,none⟩).machine.line.rx=[] ∧
    (mainLoop (fun _ _ => 0#32) SubstituteSupply.powerSupply (3+10)
      ⟨fresh requestLine,none⟩).fault=none ∧
    (mainLoop (fun _ _ => 0#32) SubstituteSupply.powerSupply (3+10)
      ⟨fresh requestLine,none⟩).machine.line.tx=
    (mainLoop (fun _ _ => 0#32) SubstituteSupply.powerSupply 10
      ⟨fresh requestLine,none⟩).machine.line.tx ∧
    (mainLoop (fun _ _ => 0#32) SubstituteSupply.powerSupply (3+10)
      ⟨fresh requestLine,none⟩).machine.app=
    (App.communicate SubstituteSupply.powerSupply)^[3] (mainLoop (fun _ _ => 0#32)
      SubstituteSupply.powerSupply 10 ⟨fresh requestLine,none⟩).machine.app :=
  ⟨by decide +kernel,line_worked_off (fun _ _ => 0#32) SubstituteSupply.powerSupply
    (s:=⟨fresh requestLine,none⟩) (n:=10) (by decide +kernel) (by decide) 3⟩

end CyclotronPico.Progress
