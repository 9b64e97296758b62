import CyclotronPico.Polls
import CyclotronPico.SubstituteSupply

/-!
# Handling one request

One round of the main loop, as the application sees it: it does nothing, it
exchanges frames with the supply, or it sets a parameter that the supply
accepts or declines. Whatever such a round preserves, the main loop does.
-/

namespace CyclotronPico.Handling

open BitBuffer Effects PicoController Nanomodbus NanomodbusServer Frames Reception ServerAnswers
  Responses Polls SupplyInterface ModbusServer

variable {τ : Type} (overshift : Overshift) (ps : PowerSupplyInterface τ)

/-- What handling one request does to the application. -/
inductive Handled (app : App τ) : App τ → Prop where
  /-- Nothing. -/
  | idle : Handled app app
  /-- Set points and readings are exchanged. -/
  | exchanged : Handled app (app.communicate ps)
  /-- The supply declines a parameter. -/
  | declined (dataType : Byte) (value : Word)
      (hcode : (ps.setStatus dataType value app.powerSupply).1<0) :
      Handled app (App.setStatus ps dataType value app)
  /-- The supply accepts a parameter; then set points and readings are exchanged. -/
  | written (dataType : Byte) (value : Word)
      (hcode : ¬(ps.setStatus dataType value app.powerSupply).1<0) :
      Handled app ((App.setStatus ps dataType value app).communicate ps)

/-- A round whose poll returned. -/
theorem wait_ok {s : Server τ} (h : s.fault=none) {t : Machine (App τ)}
    (hp : nmbsServerPoll (nmbsServer overshift ps) s.machine=(.ok (),t)) :
    waitAndHandleRequest overshift ps s=⟨t,none⟩ := by
  rw [waitAndHandleRequest,h]
  dsimp only
  rw [hp]

/-- A round whose poll failed. -/
theorem wait_err {s : Server τ} (h : s.fault=none) {e : NmbsError} {t : Machine (App τ)}
    (hp : nmbsServerPoll (nmbsServer overshift ps) s.machine=(.err e,t)) :
    waitAndHandleRequest overshift ps s=⟨{t with app := t.app.communicate ps},none⟩ := by
  rw [waitAndHandleRequest,h]
  dsimp only
  rw [hp]

/-- A round whose poll left defined behaviour. -/
theorem wait_fault {s : Server τ} (h : s.fault=none) {x : Fault} {t : Machine (App τ)}
    (hp : nmbsServerPoll (nmbsServer overshift ps) s.machine=(.fault x,t)) :
    waitAndHandleRequest overshift ps s=⟨t,some x⟩ := by
  rw [waitAndHandleRequest,h]
  dsimp only
  rw [hp]

/-- A server that has left defined behaviour stays where it is. -/
theorem wait_stopped {s : Server τ} {x : Fault} (h : s.fault=some x) :
    waitAndHandleRequest overshift ps s=s := by
  rw [waitAndHandleRequest,h]

/-- A round over a line that is silent before a header is complete. -/
theorem wait_silent {s : Server τ} (h : s.fault=none)
    (hrx : (arrivals s.machine.line.rx).length<2) :
    ∃ t,waitAndHandleRequest overshift ps s=⟨t,none⟩ ∧ t.app=s.machine.app.communicate ps ∧
      t.line=⟨afterSilence s.machine.line.rx,s.machine.line.tx,false⟩ := by
  obtain ⟨e,t,ht,hs⟩ := poll_short overshift ps s.machine hrx
  refine ⟨_,wait_err overshift ps h ht,?_,hs.2⟩
  dsimp only
  rw [hs.1]

/-- Whatever a poll did, the round has its calls and its line. -/
theorem wait_of_poll (m : Machine (App τ)) :
    (waitAndHandleRequest overshift ps ⟨m,none⟩).machine.app.calls=
      (nmbsServerPoll (nmbsServer overshift ps) m).2.app.calls ∧
    (waitAndHandleRequest overshift ps ⟨m,none⟩).machine.line=
      (nmbsServerPoll (nmbsServer overshift ps) m).2.line := by
  rcases hp : nmbsServerPoll (nmbsServer overshift ps) m with ⟨o,t⟩
  rcases o with _ | e | x
  · rw [wait_ok overshift ps (s:=⟨m,none⟩) rfl hp]
    exact ⟨rfl,rfl⟩
  · rw [wait_err overshift ps (s:=⟨m,none⟩) rfl hp]
    exact ⟨rfl,rfl⟩
  · rw [wait_fault overshift ps (s:=⟨m,none⟩) rfl hp]
    exact ⟨rfl,rfl⟩

/-- A round that does not leave the arrays started from a server that had not
left them. -/
theorem wait_returned {s : Server τ} (h : (waitAndHandleRequest overshift ps s).fault=none) :
    s.fault=none := by
  cases hs : s.fault with
  | none => rfl
  | some x =>
    rw [wait_stopped overshift ps hs,hs] at h
    cases h

/-- The poll of a round that does not leave the arrays does not leave them. -/
theorem poll_returned {m : Machine (App τ)}
    (h : (waitAndHandleRequest overshift ps ⟨m,none⟩).fault=none) (x : Fault) :
    (nmbsServerPoll (nmbsServer overshift ps) m).1≠.fault x := by
  intro hx
  rcases hp : nmbsServerPoll (nmbsServer overshift ps) m with ⟨o,t⟩
  rw [hp] at hx
  obtain rfl : o=.fault x := hx
  rw [wait_fault overshift ps (s:=⟨m,none⟩) rfl hp] at h
  cases h

/-- The line after a round that does not leave the arrays. -/
theorem wait_line (m : Machine (App τ)) (h : (waitAndHandleRequest overshift ps ⟨m,none⟩).fault=none) :
    (waitAndHandleRequest overshift ps ⟨m,none⟩).machine.line.rx=
      lineAfter m.line.rx (pollTaken (arrivals m.line.rx)) := by
  rw [(wait_of_poll overshift ps m).2]
  exact exit_line overshift ps (poll_exit overshift ps m) (poll_returned overshift ps h)

/-- A round is one of the four. -/
theorem wait_handled (s : Server τ) :
    Handled ps s.machine.app (waitAndHandleRequest overshift ps s).machine.app := by
  cases h : s.fault with
  | some x =>
    rw [wait_stopped overshift ps h]
    exact .idle
  | none =>
    have hexit := poll_exit overshift ps s.machine
    rcases hp : nmbsServerPoll (nmbsServer overshift ps) s.machine with ⟨o,t⟩
    rw [hp] at hexit
    have hkept : t.app=s.machine.app →
        Handled ps s.machine.app (waitAndHandleRequest overshift ps s).machine.app := by
      intro happ
      rcases o with _ | e | x
      · rw [wait_ok overshift ps h hp,happ]
        exact .idle
      · rw [wait_err overshift ps h hp]
        dsimp only
        rw [happ]
        exact .exchanged
      · rw [wait_fault overshift ps h hp,happ]
        exact .idle
    rcases exit_cases overshift ps hexit with ⟨u,fc,lay,ho,hu,hr,ha⟩ | hk
    · cases ha with
      | left x t hfc hleave hk => exact hkept hk.1
      | refused e t hread hw hleave he hsent => exact hkept hsent.1
      | read t hread happ hline =>
        rw [wait_ok overshift ps h hp,happ]
        exact .exchanged
      | declined t hw hcode happ hline =>
        rw [wait_ok overshift ps h hp,happ]
        exact .declined _ _ hcode
      | written t hw hcode happ hline =>
        rw [wait_ok overshift ps h hp,happ]
        exact .written _ _ hcode
    · exact hkept hk.1

/-- What every round preserves holds after any number of rounds. -/
theorem mainLoop_preserves {P : Server τ → Prop}
    (hstep : ∀ s,P s → P (waitAndHandleRequest overshift ps s)) {s : Server τ} (h : P s) (n : ℕ) :
    P (mainLoop overshift ps n s) :=
  Function.Iterate.rec P h hstep n

/-- One more round of the main loop. -/
theorem mainLoop_succ (n : ℕ) (s : Server τ) :
    mainLoop overshift ps (n+1) s=waitAndHandleRequest overshift ps (mainLoop overshift ps n s) :=
  Function.iterate_succ_apply' _ _ _

/-- A run that has not left the arrays never did. -/
theorem mainLoop_returned {s : Server τ} {n : ℕ} (h : (mainLoop overshift ps n s).fault=none)
    {k : ℕ} (hk : k≤n) : (mainLoop overshift ps k s).fault=none := by
  induction n with
  | zero =>
    obtain rfl := Nat.le_zero.mp hk
    exact h
  | succ n ih =>
    rcases Nat.le_succ_iff.mp hk with hle | rfl
    · rw [mainLoop_succ] at h
      exact ih (wait_returned overshift ps h) hle
    · exact h

/-- What every round preserves of the application holds after any number of rounds. -/
theorem mainLoop_app {P : App τ → Prop} (hstep : ∀ {app app'},Handled ps app app' → P app → P app')
    {s : Server τ} (h : P s.machine.app) (n : ℕ) :
    P (mainLoop overshift ps n s).machine.app :=
  mainLoop_preserves overshift ps (P:=fun s => P s.machine.app)
    (fun s hs => hstep (wait_handled overshift ps s) hs) h n

/-- A server of the substitute supply that has just been built. -/
def fresh (rx : List (Option Byte)) : Machine (App SubstituteSupply.PowerSupply) :=
  (Server.init {} rx).machine

/-- The line of a server that has just been built. -/
theorem fresh_rx (rx : List (Option Byte)) : (fresh rx).line.rx=rx := rfl

end CyclotronPico.Handling
