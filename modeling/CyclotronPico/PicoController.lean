import CyclotronPico.BitBuffer

/-!
# The serial line of the controller

The two transport functions the controller hands to the Modbus library. The
line is what it will still bring: a byte that arrives within the receive
timeout, or a silence that outlasts it; past the end the line is silent.
How long the two timeouts are decides only which gaps count as silences.
-/

namespace CyclotronPico.PicoController

open BitBuffer

/-- The serial line and the activity LED. -/
structure Line where
  /-- What the line will bring: `some` byte in time, `none` for a silence. -/
  rx : List (Option Byte)
  /-- The messages transmitted so far, oldest first. -/
  tx : List (List Byte)
  /-- The level last written to the LED pin. -/
  led : Bool

/-- Write the LED pin. -/
def gpioPut (l : Line) (level : Bool) : Line := {l with led := level}

/-- Wait for a byte no longer than the timeout, and take it. -/
def uartRead (l : Line) : Option Byte×Line :=
  match l.rx with
  | some b::rx => (some b,{l with rx := rx})
  | none::rx => (none,{l with rx := rx})
  | [] => (none,l)

/-- The loop of `readUart` over the bytes still wanted: the bytes read,
whether all of them came, and the line afterwards. -/
def readUartLoop (firstByteFromMsg : Bool) : ℕ → Line → List Byte×Bool×Line
  | 0,l => ([],true,l)
  | count+1,l =>
    match uartRead l with
    | (none,l) => ([],false,gpioPut l false)
    | (some b,l) =>
      let l := if firstByteFromMsg=true then gpioPut l true else l
      let rest := readUartLoop firstByteFromMsg count l
      (b::rest.1,rest.2)

/-- Read `count` bytes, giving up at the first silence: the bytes stored, the
number returned, and the line afterwards. -/
def readUart (count : ℕ) (firstByteFromMsg lastByteFromMsg : Bool) (l : Line) :
    List Byte×ℤ×Line :=
  let read := readUartLoop firstByteFromMsg count l
  if read.2.1=true then
    (read.1,count,if lastByteFromMsg=true then gpioPut read.2.2 false else read.2.2)
  else (read.1,read.1.length,read.2.2)

/-- Transmit a message, with the LED lit while it lasts. -/
def writeUart (buf : List Byte) (l : Line) : ℤ×Line :=
  let l := gpioPut l true
  let l := {l with tx := l.tx++[buf]}
  (buf.length,gpioPut l false)

/-! ### Bytes before the next silence -/

/-- The bytes that come before the next silence. -/
def arrivals : List (Option Byte) → List Byte
  | some b::rx => b::arrivals rx
  | none::_ => []
  | [] => []

/-- What is left of the line after the next silence. -/
def afterSilence : List (Option Byte) → List (Option Byte)
  | some _::rx => afterSilence rx
  | none::rx => rx
  | [] => []

/-- Bytes put in front of a line arrive first. -/
theorem arrivals_append (bs : List Byte) (rx : List (Option Byte)) :
    arrivals (bs.map some++rx)=bs++arrivals rx := by
  induction bs with
  | nil => rfl
  | cons b bs ih => simp only [List.map_cons,List.cons_append,arrivals,ih]

/-- Bytes alone on the line all arrive. -/
theorem arrivals_bytes (bs : List Byte) : arrivals (bs.map some)=bs := by
  have happ := arrivals_append bs []
  rw [List.append_nil,arrivals,List.append_nil] at happ
  exact happ

/-- Bytes put in front of a line come before its next silence. -/
theorem afterSilence_append (bs : List Byte) (rx : List (Option Byte)) :
    afterSilence (bs.map some++rx)=afterSilence rx := by
  induction bs with
  | nil => rfl
  | cons b bs ih => simp only [List.map_cons,List.cons_append,afterSilence,ih]

/-- The line begins with its arrivals; taking some of them leaves the others. -/
theorem arrivals_take (rx : List (Option Byte)) {count : ℕ} (h : count≤(arrivals rx).length) :
    ∃ rest,rx=((arrivals rx).take count).map some++rest := by
  induction count generalizing rx with
  | zero => exact ⟨rx,rfl⟩
  | succ count ih =>
    match rx,h with
    | some b::rx,h =>
      obtain ⟨rest,hrest⟩ := ih rx (by simpa only [arrivals,List.length_cons,
        Nat.add_le_add_iff_right] using h)
      refine ⟨rest,?_⟩
      rw [arrivals,List.take_succ_cons,List.map_cons,List.cons_append,←hrest]
    | none::rx,h => simp only [arrivals,List.length_nil,Nat.le_zero_eq,Nat.add_one_ne_zero] at h
    | [],h => simp only [arrivals,List.length_nil,Nat.le_zero_eq,Nat.add_one_ne_zero] at h

/-- Taking arrivals off the line leaves the line without its first elements. -/
theorem arrivals_split (rx : List (Option Byte)) {count : ℕ} (h : count≤(arrivals rx).length) :
    rx=((arrivals rx).take count).map some++rx.drop count := by
  obtain ⟨rest,hrest⟩ := arrivals_take rx h
  have hl : (((arrivals rx).take count).map some).length=count := by
    rw [List.length_map,List.length_take,Nat.min_eq_left h]
  have hd := congrArg (List.drop count) hrest
  rw [List.drop_left' hl] at hd
  rw [hd]
  exact hrest

/-- After some arrivals are taken the others still arrive. -/
theorem arrivals_drop (rx : List (Option Byte)) {count : ℕ} (h : count≤(arrivals rx).length) :
    arrivals (rx.drop count)=(arrivals rx).drop count := by
  have hs := congrArg arrivals (arrivals_split rx h)
  rw [arrivals_append] at hs
  have ht := List.take_append_drop count (arrivals rx)
  exact List.append_cancel_left (hs.symm.trans ht.symm)

/-- Behind a header the rest of what has come still arrives. -/
theorem arrivals_header {rx : List (Option Byte)} {u fc : Byte} {as : List Byte}
    (h : arrivals rx=u::fc::as) : 2≤(arrivals rx).length ∧ arrivals (rx.drop 2)=as := by
  have h2 : 2≤(arrivals rx).length := by
    rw [h,List.length_cons,List.length_cons]
    omega
  refine ⟨h2,?_⟩
  rw [arrivals_drop _ h2,h,List.drop_succ_cons,List.drop_succ_cons,List.drop_zero]

/-- Taking arrivals does not move the next silence. -/
theorem afterSilence_drop (rx : List (Option Byte)) {count : ℕ} (h : count≤(arrivals rx).length) :
    afterSilence (rx.drop count)=afterSilence rx := by
  have hs := congrArg afterSilence (arrivals_split rx h)
  rw [afterSilence_append] at hs
  exact hs.symm

/-- The LED after the bytes of a read have come. -/
def litBy (first : Bool) (bs : List Byte) (led : Bool) : Bool :=
  if first=true ∧ bs≠[] then true else led

/-- Enough bytes: the loop takes them and leaves the rest of the line. -/
theorem readUartLoop_full (first : Bool) (bs : List Byte) (l : Line) {rest : List (Option Byte)}
    (h : l.rx=bs.map some++rest) :
    readUartLoop first bs.length l=(bs,true,{l with rx := rest, led := litBy first bs l.led}) := by
  induction bs generalizing l with
  | nil =>
    cases l
    simp only [List.map_nil,List.nil_append] at h
    subst h
    simp only [List.length_nil,readUartLoop,litBy,ne_eq,not_true_eq_false,and_false,if_false]
  | cons b bs ih =>
    cases l
    simp only [List.map_cons,List.cons_append] at h
    subst h
    rw [List.length_cons,readUartLoop]
    simp only [uartRead]
    cases first with
    | false =>
      rw [if_neg Bool.false_ne_true,ih _ rfl]
      simp only [litBy,Bool.false_eq_true,false_and,if_false]
    | true =>
      rw [if_pos rfl,ih _ rfl]
      simp only [litBy,gpioPut,ne_eq,true_and,ite_self,reduceCtorEq,not_false_eq_true,if_true]

/-- Too few bytes: the loop takes what comes and gives up at the silence. -/
theorem readUartLoop_short (first : Bool) {count : ℕ} (l : Line)
    (h : (arrivals l.rx).length<count) :
    readUartLoop first count l=
      (arrivals l.rx,false,{l with rx := afterSilence l.rx, led := false}) := by
  induction count generalizing l with
  | zero => exact absurd h (Nat.not_lt_zero _)
  | succ count ih =>
    rw [readUartLoop]
    obtain ⟨rx,tx,led⟩ := l
    match rx,h with
    | [],_ => simp only [uartRead,gpioPut,arrivals,afterSilence]
    | none::rx,_ => simp only [uartRead,gpioPut,arrivals,afterSilence]
    | some b::rx,h =>
      simp only [uartRead,arrivals,afterSilence]
      have hrest : (arrivals rx).length<count := by
        simpa only [arrivals,List.length_cons,Nat.add_lt_add_iff_right] using h
      cases first with
      | false => rw [if_neg Bool.false_ne_true,ih _ hrest]
      | true => rw [if_pos rfl,ih _ hrest,gpioPut]

/-- A read that gets its bytes returns their number. -/
theorem readUart_full (first last : Bool) (bs : List Byte) (l : Line) {rest : List (Option Byte)}
    (h : l.rx=bs.map some++rest) :
    readUart bs.length first last l=
      (bs,(bs.length : ℤ),{l with rx := rest, led := !last && litBy first bs l.led}) := by
  rw [readUart,readUartLoop_full first bs l h]
  dsimp only
  rw [if_pos rfl]
  cases last <;> rfl

/-- A read cut short by a silence returns the number of bytes that came. -/
theorem readUart_short (first last : Bool) {count : ℕ} (l : Line)
    (h : (arrivals l.rx).length<count) :
    readUart count first last l=
      (arrivals l.rx,((arrivals l.rx).length : ℤ),
        {l with rx := afterSilence l.rx, led := false}) := by
  rw [readUart,readUartLoop_short first l h]
  dsimp only
  rw [if_neg Bool.false_ne_true]

/-- Transmitting appends the message and leaves the LED dark. -/
theorem writeUart_eq (buf : List Byte) (l : Line) :
    writeUart buf l=((buf.length : ℤ),{l with tx := l.tx++[buf], led := false}) := rfl

end CyclotronPico.PicoController
