import CyclotronPico.BitBuffer
import Mathlib.Data.List.Enum
import Mathlib.Data.Nat.Count
import Mathlib.Algebra.Order.Ring.Nat

/-!
# Writing the serial line under Linux

The write function that stands in for the one of the microcontroller. A
counter of its calls, which wraps, and three switches for tests decide which
messages are dropped or replaced; the others go to the system, which may take
fewer bytes than it is handed.
-/

namespace CyclotronPico.LinuxWrites

open BitBuffer

/-- The largest number of the counter's type. -/
def int32Max : ℕ := 2147483647

/-- The switches for tests; zero turns one off. -/
structure TestSwitches where
  /-- Every so many requests one is not answered. -/
  answersOneOfNRequests : ℕ
  /-- Every so many requests one is answered with random bytes. -/
  oneOfNRequestsIsRandomBytes : ℕ
  /-- Every so many requests one is answered with an error. -/
  errorResponseToOneOfNReadRequests : ℕ

/-- The counter of the calls and what was written to the port. -/
structure Port where
  /-- The counter. -/
  requestCounter : ℕ
  /-- What the system took of each message, oldest first. -/
  written : List (List Byte)

/-- A call: the message, and how many bytes the system will take of what it is
handed, or none if the port cannot be opened or written. -/
structure Call where
  /-- The message. -/
  buf : List Byte
  /-- How many bytes the system will take. -/
  taken : Option ℕ

/-- The bytes of a text. -/
def text (s : String) : List Byte := s.toList.map fun c => BitVec.ofNat 8 c.toNat

/-- What the system takes of a message. -/
def Call.takes (c : Call) (message : List Byte) : List (List Byte) :=
  c.taken.toList.map fun n => message.take n

/-- Write to the port. -/
def Port.write (port : Port) (c : Call) (message : List Byte) : Port :=
  {port with written := port.written++c.takes message}

/-- A switch is on and the counter has reached a multiple of it. -/
def due (switch counter : ℕ) : Prop := switch≠0 ∧ counter%switch=0

instance (switch counter : ℕ) : Decidable (due switch counter) :=
  inferInstanceAs (Decidable (switch≠0 ∧ counter%switch=0))

/-- Write a message: the number returned, and the port afterwards. -/
def writeSerialLinux (switches : TestSwitches) (port : Port) (c : Call) : ℤ×Port :=
  let port := {port with requestCounter := (port.requestCounter+1)%int32Max}
  if due switches.answersOneOfNRequests port.requestCounter then (-1,port)
  else if due switches.oneOfNRequestsIsRandomBytes port.requestCounter then
    (c.buf.length,port.write c (text "HELLO"))
  else if due switches.errorResponseToOneOfNReadRequests port.requestCounter then
    (c.buf.length,port.write c (text "018402C2C1"))
  else if c.taken=none then (-1,port)
  else (c.buf.length,port.write c c.buf)

/-- A sequence of calls: the numbers returned, and the port afterwards. -/
def writeAll (switches : TestSwitches) (port : Port) : List Call → List ℤ×Port
  | [] => ([],port)
  | c::calls =>
    let result := writeSerialLinux switches port c
    let rest := writeAll switches result.2 calls
    (result.1::rest.1,rest.2)

/-! ### The fate of a message -/

/-- What becomes of a message. -/
inductive Fate where
  /-- It is dropped. -/
  | unanswered
  /-- Random bytes are written in its place. -/
  | randomBytes
  /-- The text of an error response is written in its place. -/
  | errorResponse
  /-- It is written. -/
  | passed
  deriving DecidableEq

/-- The fate of the message of a call, given the counter in that call. -/
def fate (switches : TestSwitches) (counter : ℕ) : Fate :=
  if due switches.answersOneOfNRequests counter then .unanswered
  else if due switches.oneOfNRequestsIsRandomBytes counter then .randomBytes
  else if due switches.errorResponseToOneOfNReadRequests counter then .errorResponse
  else .passed

/-- The number that a call returns. -/
def Fate.returned (c : Call) : Fate → ℤ
  | unanswered => -1
  | randomBytes | errorResponse => c.buf.length
  | passed => if c.taken=none then -1 else c.buf.length

/-- What a call writes. -/
def Fate.writes (c : Call) : Fate → List (List Byte)
  | unanswered => []
  | randomBytes => c.takes (text "HELLO")
  | errorResponse => c.takes (text "018402C2C1")
  | passed => c.takes c.buf

/-- A call does what the fate of its message says. -/
theorem writeSerialLinux_fate (switches : TestSwitches) (port : Port) (c : Call) :
    let counter := (port.requestCounter+1)%int32Max
    writeSerialLinux switches port c=((fate switches counter).returned c,
      ⟨counter,port.written++(fate switches counter).writes c⟩) := by
  intro counter
  rw [writeSerialLinux,fate]
  dsimp only
  split
  · simp [Fate.returned,Fate.writes,counter]
  · split
    · rfl
    · split
      · rfl
      · rw [Fate.returned,Fate.writes]
        split
        · rename_i hnone
          simp [Call.takes,hnone,counter]
        · rfl

/-- The calls after so many others. -/
theorem writeAll_run (switches : TestSwitches) (calls : List Call) (n : ℕ)
    (written : List (List Byte)) :
    writeAll switches ⟨n%int32Max,written⟩ calls=
      ((calls.zipIdx (n+1)).map fun c => (fate switches (c.2%int32Max)).returned c.1,
        ⟨(n+calls.length)%int32Max,written++
          (calls.zipIdx (n+1)).flatMap fun c => (fate switches (c.2%int32Max)).writes c.1⟩) := by
  induction calls generalizing n written with
  | nil => simp [writeAll]
  | cons c calls ih =>
    have hcounter : (n%int32Max+1)%int32Max=(n+1)%int32Max := Nat.mod_add_mod n int32Max 1
    rw [writeAll,writeSerialLinux_fate]
    dsimp only
    rw [hcounter,ih (n+1)]
    have hlength : n+1+calls.length=n+(c::calls).length := by
      rw [List.length_cons]
      omega
    rw [hlength,List.zipIdx_cons,List.map_cons,List.flatMap_cons,List.append_assoc]

/-! ### How many messages are dropped -/

/-- How often a switch is due in the first calls: once for every multiple, and
once more whenever the counter wraps. -/
theorem due_count {switch : ℕ} (h : switch≠0) (n : ℕ) :
    ((List.range' 1 n).filter fun k => due switch (k%int32Max)).length=
      n/int32Max*((int32Max-1)/switch+1)+n%int32Max/switch := by
  induction n with
  | zero => simp
  | succ n ih =>
    have hrange : List.range' 1 (n+1)=List.range' 1 n++[n+1] := by
      rw [List.range'_concat,Nat.one_mul,Nat.add_comm 1 n]
    have hlast : ([n+1].filter fun k => due switch (k%int32Max)).length=
        if (n+1)%int32Max%switch=0 then 1 else 0 := by
      by_cases hdue : (n+1)%int32Max%switch=0
      · simp [due,h,hdue]
      · simp [due,hdue]
    rw [hrange,List.filter_append,List.length_append,ih,hlast]
    by_cases hwrap : n%int32Max=int32Max-1
    · -- the counter wraps to zero, which every switch divides
      have hmod : (n+1)%int32Max=0 := by
        unfold int32Max at hwrap ⊢
        omega
      have hdiv : (n+1)/int32Max=n/int32Max+1 := by
        unfold int32Max at hwrap ⊢
        omega
      rw [hmod,hdiv,hwrap,Nat.zero_mod,if_pos rfl,Nat.zero_div,Nat.succ_mul]
      omega
    · have hmod : (n+1)%int32Max=n%int32Max+1 := by
        unfold int32Max at hwrap ⊢
        omega
      have hdiv : (n+1)/int32Max=n/int32Max := by
        unfold int32Max at hwrap ⊢
        omega
      rw [hmod,hdiv,Nat.succ_div,if_congr Nat.dvd_iff_mod_eq_zero.symm rfl rfl,Nat.add_assoc]

/-- A message is dropped when the first switch is due. -/
theorem fate_unanswered (switches : TestSwitches) (counter : ℕ) :
    fate switches counter=.unanswered ↔ due switches.answersOneOfNRequests counter := by
  rw [fate]
  split
  · exact iff_of_true rfl ‹_›
  · refine iff_of_false (fun h => ?_) ‹_›
    split at h
    · cases h
    · split at h <;> cases h

/-- With the switches off every message is written. -/
theorem fate_passed (counter : ℕ) : fate ⟨0,0,0⟩ counter=.passed := by
  simp [fate,due]

/-- Over every run of calls from the start of the program, for any switches and
messages and whatever the system takes: the fate of each message is decided by
the number of its call, modulo the largest number of the counter's type; the
numbers returned and the bytes written are those of the fates, in order; so
many messages are dropped as the counter meets multiples, one more with every
wrap; and with the switches off every message goes to the system unchanged. -/
theorem writes_run (switches : TestSwitches) (calls : List Call) :
    let fates := (List.range' 1 calls.length).map fun k => fate switches (k%int32Max)
    let run := writeAll switches ⟨0,[]⟩ calls
    run.1=List.zipWith Fate.returned calls fates ∧
    run.2=⟨calls.length%int32Max,(List.zipWith Fate.writes calls fates).flatten⟩ ∧
    (switches.answersOneOfNRequests≠0 → fates.count .unanswered=
      calls.length/int32Max*((int32Max-1)/switches.answersOneOfNRequests+1)+
        calls.length%int32Max/switches.answersOneOfNRequests) ∧
    (switches=⟨0,0,0⟩ → run.2.written=calls.flatMap fun c => c.takes c.buf) := by
  intro fates run
  have hrun : run=_ := writeAll_run switches calls 0 []
  have hzip : ∀ {α : Type} (f : Call → Fate → α),
      ((calls.zipIdx 1).map fun c => f c.1 (fate switches (c.2%int32Max)))=
        List.zipWith f calls fates := by
    intro α f
    rw [List.zipIdx_eq_zip_range',List.zipWith_map_right,List.zip,List.map_zipWith]
  rw [hrun]
  refine ⟨hzip Fate.returned,?_,fun hon => ?_,fun hoff => ?_⟩
  · simp only [Nat.zero_add,List.nil_append,List.flatMap,hzip Fate.writes]
  · rw [←due_count hon,List.count,List.countP_map,List.countP_eq_length_filter]
    refine congrArg (fun p => (List.filter p _).length) (funext fun k => ?_)
    exact Bool.eq_iff_iff.mpr ((beq_iff_eq.trans (fate_unanswered switches _)).trans
      decide_eq_true_iff.symm)
  · have hfst : ((calls.zipIdx 1).map Prod.fst)=calls := List.zipIdx_map_fst 1 calls
    subst hoff
    simp only [fate_passed,Fate.writes,List.nil_append]
    conv_rhs => rw [←hfst,List.flatMap_map]

end CyclotronPico.LinuxWrites
