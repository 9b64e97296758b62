import CyclotronPico.Nanomodbus

/-!
# Layouts of messages

What a message of the library looks like on the line: a head of fixed size,
possibly a byte count with that many bytes after it, and the checksum. A
layout also says which bytes the checksum covers and at which byte a message
leaves the arrays it is received into. Receiving a message is then a
function of the bytes that arrive.
-/

namespace CyclotronPico.Frames

open BitBuffer Nanomodbus

/-- The checksum as it travels: low byte first. -/
def crcBytes (data : List Byte) : List Byte :=
  [(crcRegister data).setWidth 8,(crcRegister data>>>8).setWidth 8]

/-- A message with its checksum. -/
def sealed (data : List Byte) : List Byte := data++crcBytes data

/-- A word from its two bytes. -/
def wordOf (high low : Byte) : Word := (high.setWidth 16)<<<8|||low.setWidth 16

/-- The byte at a place of a message. -/
def byteAt (bs : List Byte) (i : ℕ) : Byte := bs.getD i 0#8

/-- The word at a place of a message, high byte first. -/
def wordAt (bs : List Byte) (i : ℕ) : Word := wordOf (byteAt bs i) (byteAt bs (i+1))

/-- The layout of a kind of message. -/
structure Layout where
  /-- Bytes before the counted ones, with the unit, the function code and the count. -/
  head : ℕ
  /-- Where the byte count stands, if there is one. -/
  countAt : Option ℕ
  /-- Bytes under the checksum, given the count. -/
  covered : ℕ → ℕ
  /-- For a count too large for the arrays, the number of bytes whose arrival
  leaves them. -/
  overrunAt : ℕ → Option ℕ

/-- How the reception of a message ends. -/
inductive Receipt where
  /-- A silence came first. -/
  | timeout
  /-- The message left the arrays. -/
  | overrun
  /-- The checksum does not match. -/
  | badCrc
  /-- A message was received. -/
  | frame
  deriving DecidableEq

namespace Layout

variable (lay : Layout)

/-- The byte count of a message. -/
def count (bs : List Byte) : ℕ :=
  match lay.countAt with
  | none => 0
  | some i => (byteAt bs i).toNat

/-- The length of a message. -/
def span (bs : List Byte) : ℕ := lay.head+lay.count bs+2

/-- How the reception of a message ends, given the bytes before the next silence. -/
def receive (bs : List Byte) : Receipt :=
  if bs.length<lay.head then .timeout
  else match lay.overrunAt (lay.count bs) with
    | some m => if m≤bs.length then .overrun else .timeout
    | none =>
      if bs.length<lay.span bs then .timeout
      else if (bs.drop (lay.head+lay.count bs)).take 2=crcBytes (bs.take (lay.covered (lay.count bs)))
        then .frame else .badCrc

/-- The bytes taken from the line by a message that does not overrun, none
when a silence comes first. -/
def taken (bs : List Byte) : Option ℕ :=
  if bs.length<lay.head ∨ bs.length<lay.span bs then none else some (lay.span bs)

/-- The bytes a received message is checked against its own last two. -/
def Checked (bs : List Byte) : Prop :=
  (bs.drop (lay.head+lay.count bs)).take 2=crcBytes (bs.take (lay.covered (lay.count bs)))

instance (bs : List Byte) : Decidable (lay.Checked bs) :=
  inferInstanceAs (Decidable ((bs.drop (lay.head+lay.count bs)).take 2=
    crcBytes (bs.take (lay.covered (lay.count bs)))))

/-- Receiving a message whose content fits the arrays. -/
theorem receive_of_fits {bs : List Byte} (ho : lay.overrunAt (lay.count bs)=none) :
    lay.receive bs=match lay.taken bs with
      | none => .timeout
      | some _ => if lay.Checked bs then .frame else .badCrc := by
  unfold receive taken Checked
  rw [ho]
  by_cases h1 : bs.length<lay.head
  · rw [if_pos h1,if_pos (Or.inl h1)]
  · by_cases h2 : bs.length<lay.span bs
    · rw [if_neg h1,if_pos (Or.inr h2)]
      exact if_pos h2
    · rw [if_neg h1,if_neg (not_or.mpr ⟨h1,h2⟩)]
      exact if_neg h2

/-- A message is received when it has come, fits and has its checksum. -/
theorem receive_frame_iff (bs : List Byte) :
    lay.receive bs=.frame ↔ lay.head≤bs.length ∧ lay.overrunAt (lay.count bs)=none ∧
      lay.span bs≤bs.length ∧ lay.Checked bs := by
  rw [receive,Checked]
  by_cases h1 : bs.length<lay.head
  · rw [if_pos h1]
    exact iff_of_false (by simp) (fun h => by omega)
  · rw [if_neg h1]
    cases ho : lay.overrunAt (lay.count bs) with
    | some m =>
      dsimp only
      refine iff_of_false ?_ (fun h => by cases h.2.1)
      split <;> simp
    | none =>
      dsimp only
      by_cases h2 : bs.length<lay.span bs
      · rw [if_pos h2]
        exact iff_of_false (by simp) (fun h => by omega)
      · rw [if_neg h2]
        split
        · rename_i hc
          exact iff_of_true rfl ⟨by omega,rfl,by omega,hc⟩
        · rename_i hc
          exact iff_of_false (by simp) (fun h => hc h.2.2.2)

/-- A message leaves the arrays when its head has come, its count is too large
and the byte that does not fit has come. -/
theorem receive_overrun_iff (bs : List Byte) :
    lay.receive bs=.overrun ↔ lay.head≤bs.length ∧
      ∃ m,lay.overrunAt (lay.count bs)=some m ∧ m≤bs.length := by
  rw [receive]
  by_cases h1 : bs.length<lay.head
  · rw [if_pos h1]
    exact iff_of_false (by simp) (fun h => by omega)
  · rw [if_neg h1]
    cases ho : lay.overrunAt (lay.count bs) with
    | some m =>
      dsimp only
      by_cases h2 : m≤bs.length
      · rw [if_pos h2]
        exact iff_of_true rfl ⟨by omega,m,rfl,h2⟩
      · rw [if_neg h2]
        refine iff_of_false (by simp) ?_
        rintro ⟨_,m',hm,hle⟩
        obtain rfl : m=m' := Option.some.inj hm
        exact h2 hle
    | none =>
      dsimp only
      refine iff_of_false ?_ (fun h => by obtain ⟨_,m,hm,_⟩ := h; cases hm)
      split
      · simp
      · split <;> simp

/-- A message that is checked has come whole. -/
theorem receive_whole {bs : List Byte} (h : lay.receive bs=.badCrc ∨ lay.receive bs=.frame) :
    lay.span bs≤bs.length := by
  by_contra hspan
  have hcut : lay.receive bs=.timeout ∨ lay.receive bs=.overrun := by
    rw [receive]
    split
    · exact .inl rfl
    · split
      · split
        · exact .inr rfl
        · exact .inl rfl
      · rw [if_pos (not_le.mp hspan)]
        exact .inl rfl
  rcases h with h | h <;> rcases hcut with hc | hc <;> cases h.symm.trans hc

/-- What a received message leaves before the cursor. -/
def kept (bs : List Byte) : List Byte :=
  bs.take (lay.covered (lay.count bs))++(bs.drop (lay.head+lay.count bs)).take 2

end Layout

/-- A message of fixed size. -/
def fixedLayout (head : ℕ) : Layout := ⟨head,none,fun _ => head,fun _ => none⟩

/-- A write of coils: at most 250 coil bytes fit the bitfield. -/
def coilsLayout : Layout :=
  ⟨7,some 6,fun c => 7+c,fun c => if c≤250 then none else some (7+min c 254)⟩

/-- A write of registers: at most 123 fit the local array, and the checksum
is expected after the last whole register. -/
def registersLayout : Layout :=
  ⟨7,some 6,fun c => 7+2*(c/2),fun c => if c≤247 then none else some (7+min c 254)⟩

/-- A request for file records. -/
def recordsLayout : Layout := ⟨3,some 2,fun c => 3+c,fun _ => none⟩

/-- A write and read of registers: the local array fits every count, the
message buffer does not. -/
def readWriteLayout : Layout :=
  ⟨11,some 10,fun c => 11+2*(c/2),
    fun c => if c≤247 then none else if c<250 then some (13+c) else some 261⟩

/-- The layouts of the requests that have a parser. -/
def requestLayout (fc : Byte) : Option Layout :=
  match fc.toNat with
  | 1 | 2 | 3 | 4 | 5 => some (fixedLayout 6)
  | 15 => some coilsLayout
  | 16 => some registersLayout
  | 20 | 21 => some recordsLayout
  | 23 => some readWriteLayout
  | _ => none

/-! ### Messages with their checksum -/

/-- Requests for file records have one layout. -/
theorem records_layout {fc : Byte} (h : fc.toNat=20 ∨ fc.toNat=21) :
    requestLayout fc=some recordsLayout := by
  rw [requestLayout]
  rcases h with h | h
  · rw [h]
    rfl
  · rw [h]
    rfl

/-- A byte of a message is the same with the checksum and more behind it. -/
theorem byteAt_append {bs : List Byte} (cs : List Byte) {i : ℕ} (h : i<bs.length) :
    byteAt (bs++cs) i=byteAt bs i := by
  rw [byteAt,byteAt,List.getD_eq_getElem?_getD,List.getD_eq_getElem?_getD,
    List.getElem?_append_left h]

/-- The checksum is two bytes longer. -/
theorem sealed_length (data : List Byte) : (sealed data).length=data.length+2 := by
  rw [sealed,List.length_append]
  rfl

/-- The byte count of a request stands in its head, and no more bytes are
covered than come. -/
theorem requestLayout_fits {fc : Byte} {lay : Layout} (h : requestLayout fc=some lay) :
    (∀ i,lay.countAt=some i → i<lay.head) ∧ ∀ c,lay.covered c≤lay.head+c := by
  have hfixed : ∀ head,(∀ i,(fixedLayout head).countAt=some i → i<(fixedLayout head).head) ∧
      ∀ c,(fixedLayout head).covered c≤(fixedLayout head).head+c :=
    fun head => ⟨fun _ => nofun,fun c => Nat.le_add_right head c⟩
  have hcounted : ∀ {lay : Layout} {k : ℕ},lay.countAt=some k → k<lay.head →
      (∀ c,lay.covered c≤lay.head+c) →
      (∀ i,lay.countAt=some i → i<lay.head) ∧ ∀ c,lay.covered c≤lay.head+c := by
    intro lay k hk hlt hcovered
    refine ⟨fun i hi => ?_,hcovered⟩
    obtain rfl := Option.some.inj (hk.symm.trans hi)
    exact hlt
  rw [requestLayout] at h
  split at h
  · rw [←Option.some.inj h]; exact hfixed 6
  · rw [←Option.some.inj h]; exact hfixed 6
  · rw [←Option.some.inj h]; exact hfixed 6
  · rw [←Option.some.inj h]; exact hfixed 6
  · rw [←Option.some.inj h]; exact hfixed 6
  · rw [←Option.some.inj h]
    exact hcounted (k:=6) rfl (by decide) (fun c => le_rfl)
  · rw [←Option.some.inj h]
    refine hcounted (k:=6) rfl (by decide) (fun c => ?_)
    simp only [registersLayout]
    omega
  · rw [←Option.some.inj h]
    exact hcounted (k:=2) rfl (by decide) (fun c => le_rfl)
  · rw [←Option.some.inj h]
    exact hcounted (k:=2) rfl (by decide) (fun c => le_rfl)
  · rw [←Option.some.inj h]
    refine hcounted (k:=10) rfl (by decide) (fun c => ?_)
    simp only [readWriteLayout]
    omega
  · cases h

/-- A request whose content has the length that its layout says. -/
def Filled (lay : Layout) (data : List Byte) : Prop := data.length=lay.head+lay.count data

section Sealed

variable {fc : Byte} {lay : Layout} {data : List Byte}

/-- A request with its checksum has the byte count of the request. -/
theorem count_sealed (hl : requestLayout fc=some lay) (hf : Filled lay data)
    (rest : List Byte) : lay.count (sealed data++rest)=lay.count data := by
  have hfits := (requestLayout_fits hl).1
  rw [Filled] at hf
  rw [Layout.count,Layout.count]
  cases hc : lay.countAt with
  | none => rfl
  | some i =>
    have hi := hfits i hc
    dsimp only
    rw [sealed,List.append_assoc,byteAt_append _ (by omega)]

/-- A request with its checksum is a whole message. -/
theorem span_sealed (hl : requestLayout fc=some lay) (hf : Filled lay data)
    (rest : List Byte) : lay.span (sealed data++rest)=(sealed data).length := by
  rw [Layout.span,count_sealed hl hf,sealed_length,hf]

/-- A request with its checksum is received when it fits and all of it, or
nothing that matters, is covered by the checksum. -/
theorem receive_sealed (hl : requestLayout fc=some lay) (hf : Filled lay data)
    (rest : List Byte) :
    lay.receive (sealed data++rest)=.frame ↔ lay.overrunAt (lay.count data)=none ∧
      crcBytes (data.take (lay.covered (lay.count data)))=crcBytes data := by
  have hcovered := (requestLayout_fits hl).2 (lay.count data)
  have hcount := count_sealed hl hf rest
  have hspan := span_sealed hl hf rest
  have hlen := sealed_length data
  have hchecksum : ((sealed data++rest).drop (lay.head+lay.count data)).take 2=crcBytes data := by
    rw [sealed,List.append_assoc,List.drop_left' hf]
    rfl
  have hdata : (sealed data++rest).take (lay.covered (lay.count data))=
      data.take (lay.covered (lay.count data)) := by
    rw [sealed,List.append_assoc,List.take_append_of_le_length]
    exact hcovered.trans_eq hf.symm
  rw [Filled] at hf
  rw [lay.receive_frame_iff,hspan,Layout.Checked,hcount,hchecksum,hdata,List.length_append,hlen]
  constructor
  · rintro ⟨_,hover,_,hcheck⟩
    exact ⟨hover,hcheck.symm⟩
  · rintro ⟨hover,hcheck⟩
    exact ⟨by omega,hover,by omega,hcheck.symm⟩

end Sealed

/-- The value of a word of two bytes. -/
theorem wordOf_toNat (high low : Byte) : (wordOf high low).toNat=256*high.toNat+low.toNat := by
  have hh := high.isLt
  have hl := low.isLt
  have hs : high.toNat<<<8%2^16=high.toNat<<<8 := by
    rw [Nat.shiftLeft_eq]
    omega
  rw [wordOf,BitVec.toNat_or,BitVec.toNat_shiftLeft,BitVec.toNat_setWidth_of_le (by omega),
    BitVec.toNat_setWidth_of_le (by omega),hs,←Nat.shiftLeft_add_eq_or_of_lt hl,
    Nat.shiftLeft_eq]
  omega

/-- The value of the checksum: the register with its bytes exchanged. -/
theorem nmbsCrcCalc_toNat (data : List Byte) :
    (nmbsCrcCalc data).toNat=
      256*((crcRegister data).toNat%256)+(crcRegister data).toNat/256 := by
  unfold nmbsCrcCalc
  generalize crcRegister data=crc
  have hc := crc.isLt
  have hs : crc.toNat<<<8%2^16=(crc.toNat%256)<<<8 := by
    rw [Nat.shiftLeft_eq,Nat.shiftLeft_eq]
    omega
  have hh : crc.toNat/2^8<2^8 := by omega
  dsimp only
  rw [BitVec.toNat_or,BitVec.toNat_shiftLeft,BitVec.toNat_ushiftRight,hs,
    Nat.shiftRight_eq_div_pow,←Nat.shiftLeft_add_eq_or_of_lt hh,Nat.shiftLeft_eq]
  omega

/-- A received checksum matches the computed one exactly when its bytes are
the ones to be sent. -/
theorem wordOf_eq_crc (low high : Byte) (data : List Byte) :
    wordOf low high=nmbsCrcCalc data ↔ [low,high]=crcBytes data := by
  have hw := wordOf_toNat low high
  have hc := nmbsCrcCalc_toNat data
  have hl := low.isLt
  have hh := high.isLt
  have hr := (crcRegister data).isLt
  rw [crcBytes]
  simp only [List.cons.injEq,and_true,←BitVec.toNat_inj,hw,hc,BitVec.toNat_setWidth,
    BitVec.toNat_ushiftRight,Nat.shiftRight_eq_div_pow]
  omega

/-- A word is made of the bytes that `put2` writes. -/
theorem wordOf_bytes (w : Word) : wordOf (((w>>>8)&&&0xFF#16).setWidth 8) (w.setWidth 8)=w := by
  have hw := w.isLt
  have hmask : (w.toNat/256)&&&255=w.toNat/256%2^8 := Nat.and_two_pow_sub_one_eq_mod _ 8
  apply BitVec.eq_of_toNat_eq
  rw [wordOf_toNat]
  simp only [BitVec.toNat_setWidth,BitVec.toNat_and,BitVec.toNat_ushiftRight,
    Nat.shiftRight_eq_div_pow,BitVec.toNat_ofNat,Nat.reducePow,Nat.reduceMod]
  omega

/-- The checksum is put in the order in which it is expected. -/
theorem put_crc (data : List Byte) :
    [((nmbsCrcCalc data>>>8)&&&0xFF#16).setWidth 8,(nmbsCrcCalc data).setWidth 8]=
      crcBytes data :=
  (wordOf_eq_crc _ _ data).mp (wordOf_bytes _)

end CyclotronPico.Frames
