import CyclotronPico.BitBuffer
import Mathlib.Algebra.GroupWithZero.Nat

/-!
# The serial line of the controller under Linux

The read function that stands in for the one of the microcontroller. The
system hands over the bytes of the line in portions of its own choosing; the
function asks for what is still missing, but has every portion stored at the
start of the buffer. Which byte a place of the buffer ends up with is then
decided by the last portion that reaches it.
-/

namespace CyclotronPico.LinuxController

open BitBuffer

/-- What the system answers to one round of the read loop. -/
inductive SystemResult where
  /-- `select` fails. -/
  | selectError
  /-- Nothing arrives within the timeout. -/
  | silence
  /-- `select` reports a byte, but `read` fails. -/
  | readError
  /-- `select` reports a byte, and `read` hands over so many. -/
  | ready (bytesRead : ℕ)
  deriving DecidableEq

/-- What a call leaves behind. -/
structure Reading where
  /-- The buffer. -/
  buf : ℕ → Byte
  /-- The bytes taken from the line. -/
  consumed : ℕ
  /-- The number returned. -/
  returned : ℤ

/-- The buffer after the next bytes of the line are stored at its start. -/
def readFd (line buf : ℕ → Byte) (consumed bytesRead : ℕ) : ℕ → Byte := fun i =>
  if i<bytesRead then line (consumed+i) else buf i

/-- The loop of `readSerialLinux`, given the bytes still missing. Without a
timeout `select` waits through every silence; when the results run out the
function is still waiting. -/
def readSerialLinuxLoop (line : ℕ → Byte) (bytesToBeRead : Word) (firstByteFromMsg : Bool) :
    List SystemResult → (ℕ → Byte) → ℕ → Word → Option Reading
  | [],_,_,_ => none
  | .selectError::_,buf,consumed,_ => some ⟨buf,consumed,-1⟩
  | .silence::results,buf,consumed,count =>
    if firstByteFromMsg=true then
      readSerialLinuxLoop line bytesToBeRead firstByteFromMsg results buf consumed count
    else some ⟨buf,consumed,0⟩
  | .readError::_,buf,consumed,_ => some ⟨buf,consumed,-1⟩
  | .ready bytesRead::results,buf,consumed,count =>
    let buf := readFd line buf consumed bytesRead
    let count := count-BitVec.ofNat 16 bytesRead
    if count≠0#16 then
      readSerialLinuxLoop line bytesToBeRead firstByteFromMsg results buf (consumed+bytesRead) count
    else some ⟨buf,consumed+bytesRead,bytesToBeRead.toNat⟩

/-- Read `count` bytes. When the port cannot be opened the function waits for ever. -/
def readSerialLinux (opened : Bool) (line buf : ℕ → Byte) (count : Word) (firstByteFromMsg : Bool)
    (results : List SystemResult) : Option Reading :=
  if opened=true then readSerialLinuxLoop line count firstByteFromMsg results buf 0 count else none

/-! ### Portions -/

/-- The sizes of the portions in which the system hands over the bytes asked
for: none is empty, unless nothing is asked for. -/
structure Portions (count : Word) (sizes : List ℕ) : Prop where
  /-- There is at least one. -/
  nonempty : sizes≠[]
  /-- Together they are what is asked for. -/
  whole : sizes.sum=count.toNat
  /-- None is empty. -/
  positive : ∀ size∈sizes,size=0 → count=0#16

/-- The place on the line of the byte that place `i` of the buffer ends up
with, when the first portion starts at `start`: the last portion that reaches
the place decides. -/
def source (i : ℕ) : ℕ → List ℕ → Option ℕ
  | _,[] => none
  | start,size::sizes =>
    match source i (start+size) sizes with
    | some place => some place
    | none => if i < size then some (start+i) else none

/-- The buffer after all portions have been stored at its start. -/
def stored (line buf : ℕ → Byte) (start : ℕ) (sizes : List ℕ) (i : ℕ) : Byte :=
  match source i start sizes with
  | some place => line place
  | none => buf i

/-- A portion is overwritten by the later ones where they reach. -/
theorem stored_cons (line buf : ℕ → Byte) (start size : ℕ) (sizes : List ℕ) :
    stored line buf start (size::sizes)=
      stored line (readFd line buf start size) (start+size) sizes := by
  funext i
  rw [stored,stored,source]
  cases source i (start+size) sizes with
  | some place => rfl
  | none =>
    dsimp only
    rw [readFd]
    by_cases hi : i < size
    · rw [if_pos hi,if_pos hi]
    · rw [if_neg hi,if_neg hi]

/-- What is missing after a portion. -/
theorem count_sub {count : Word} {size : ℕ} (h : size≤count.toNat) :
    (count-BitVec.ofNat 16 size).toNat=count.toNat-size := by
  have hc := count.isLt
  rw [BitVec.toNat_sub,BitVec.toNat_ofNat]
  omega

/-- The loop takes all portions. -/
theorem loop_portions (line : ℕ → Byte) (bytesToBeRead : Word) (first : Bool) {sizes : List ℕ}
    (hne : sizes≠[]) (hpos : ∀ size∈sizes,1 ≤ size) (buf : ℕ → Byte) (consumed : ℕ) {count : Word}
    (hsum : sizes.sum=count.toNat) :
    readSerialLinuxLoop line bytesToBeRead first (sizes.map .ready) buf consumed count=
      some ⟨stored line buf consumed sizes,consumed+count.toNat,bytesToBeRead.toNat⟩ := by
  induction sizes generalizing buf consumed count with
  | nil => exact absurd rfl hne
  | cons size sizes ih =>
    rw [List.sum_cons] at hsum
    have hleft : (count-BitVec.ofNat 16 size).toNat=count.toNat-size := count_sub (by omega)
    rw [List.map_cons,readSerialLinuxLoop]
    match sizes,hsum,hpos,ih with
    | [],hsum,_,_ =>
      rw [List.sum_nil] at hsum
      have hzero : count-BitVec.ofNat 16 size=0#16 := by
        apply BitVec.eq_of_toNat_eq
        rw [hleft,BitVec.toNat_zero]
        omega
      rw [if_neg (not_not.mpr hzero),stored_cons,←hsum]
      rfl
    | next::sizes,hsum,hpos,ih =>
      have hnext := hpos next (List.mem_cons_of_mem _ List.mem_cons_self)
      have hmore : count-BitVec.ofNat 16 size≠0#16 := by
        intro hzero
        rw [hzero,BitVec.toNat_zero] at hleft
        rw [List.sum_cons] at hsum
        omega
      have hrest : (next::sizes).sum=(count-BitVec.ofNat 16 size).toNat := by
        rw [hleft]
        omega
      have hconsumed : consumed+size+(count.toNat-size)=consumed+count.toNat := by omega
      rw [if_pos hmore,ih (List.cons_ne_nil _ _) (fun s hs => hpos s (List.mem_cons_of_mem _ hs))
        _ _ hrest,stored_cons line buf consumed size,hleft,hconsumed]

/-- Nothing is asked for: the first portion is empty and the call returns. -/
theorem loop_nothing (line : ℕ → Byte) (bytesToBeRead : Word) (first : Bool) (sizes : List ℕ)
    (buf : ℕ → Byte) (consumed : ℕ) :
    readSerialLinuxLoop line bytesToBeRead first (.ready 0::sizes.map .ready) buf consumed 0#16=
      some ⟨readFd line buf consumed 0,consumed,bytesToBeRead.toNat⟩ := by
  have hnone : ¬0#16-BitVec.ofNat 16 0≠0#16 := not_not.mpr rfl
  rw [readSerialLinuxLoop,if_neg hnone]
  rfl

/-! ### When the stream is delivered -/

/-- A call that asks for `count` bytes and gets them in portions returns
`count`, has taken these bytes from the line, and has them in its buffer in order. -/
def Delivers (count : Word) (sizes : List ℕ) (firstByteFromMsg : Bool) (line buf : ℕ → Byte) :
    Prop :=
  ∃ r,readSerialLinux true line buf count firstByteFromMsg (sizes.map .ready)=some r ∧
    r.returned=count.toNat ∧ r.consumed=count.toNat ∧ ∀ i,i<count.toNat → r.buf i=line i

/-- Every place of the buffer ends up with a byte that happens to be the one
that belongs there. -/
def Coincides (count : Word) (sizes : List ℕ) (line buf : ℕ → Byte) : Prop :=
  ∀ i,i<count.toNat → (source i 0 sizes).elim (buf i) line=line i

/-- The bytes stored are those of their sources. -/
theorem stored_eq (line buf : ℕ → Byte) (start : ℕ) (sizes : List ℕ) (i : ℕ) :
    stored line buf start sizes i=(source i start sizes).elim (buf i) line := by
  rw [stored]
  cases source i start sizes with
  | some place => rfl
  | none => rfl

/-- The portions of a request for nothing add up to nothing. -/
theorem portions_nothing {sizes : List ℕ} (h : Portions 0#16 sizes) :
    ∃ rest,sizes=0::rest := by
  obtain ⟨hne,hsum,_⟩ := h
  match sizes,hne,hsum with
  | size::rest,_,hsum =>
    rw [List.sum_cons,BitVec.toNat_zero] at hsum
    obtain rfl : size=0 := by omega
    exact ⟨rest,rfl⟩

/-- A call delivers the stream exactly when its places coincide. -/
theorem delivers_iff_coincides {count : Word} {sizes : List ℕ} (h : Portions count sizes)
    (first : Bool) (line buf : ℕ → Byte) :
    Delivers count sizes first line buf ↔ Coincides count sizes line buf := by
  by_cases hzero : count=0#16
  · subst hzero
    obtain ⟨rest,rfl⟩ := portions_nothing h
    refine iff_of_true ⟨_,loop_nothing line 0#16 first rest buf 0,rfl,rfl,?_⟩ ?_
    · exact fun i hi => absurd hi (Nat.not_lt_zero i)
    · exact fun i hi => absurd hi (Nat.not_lt_zero i)
  · have hpos : ∀ size∈sizes,1 ≤ size := fun size hs =>
      Nat.one_le_iff_ne_zero.mpr fun h0 => hzero (h.positive size hs h0)
    have hrun := loop_portions line count first h.nonempty hpos buf 0 h.whole
    rw [Nat.zero_add] at hrun
    constructor
    · rintro ⟨r,hr,_,_,hbuf⟩ i hi
      obtain rfl := Option.some.inj (hrun.symm.trans hr)
      rw [←stored_eq]
      exact hbuf i hi
    · intro hc
      refine ⟨_,hrun,rfl,rfl,fun i hi => ?_⟩
      exact (stored_eq line buf 0 sizes i).trans (hc i hi)

/-- The first place gets a byte of the last portion. -/
theorem source_zero {sizes : List ℕ} (hne : sizes≠[]) (hpos : ∀ size∈sizes,1 ≤ size) (start : ℕ) :
    ∃ place,source 0 start sizes=some place ∧ start≤place := by
  induction sizes generalizing start with
  | nil => exact absurd rfl hne
  | cons size sizes ih =>
    rw [source]
    by_cases hlast : sizes=[]
    · subst hlast
      have hsize := hpos size List.mem_cons_self
      exact ⟨start+0,if_pos hsize,le_rfl⟩
    · obtain ⟨place,hplace,hle⟩ := ih hlast (fun s hs => hpos s (List.mem_cons_of_mem _ hs))
        (start+size)
      rw [hplace]
      exact ⟨place,rfl,by omega⟩

/-- Every stream is delivered only when the first portion is all of it. -/
theorem coincides_always_iff {count : Word} {sizes : List ℕ} (h : Portions count sizes) :
    (∀ line buf,Coincides count sizes line buf) ↔ sizes.head?=some count.toNat := by
  obtain ⟨hne,hsum,hzero⟩ := h
  match sizes,hne with
  | size::rest,_ =>
    rw [List.sum_cons] at hsum
    rw [List.head?_cons,Option.some.injEq]
    constructor
    · intro hall
      by_contra hsize
      -- some bytes are missing after the first portion, and the last one overwrites its start
      have hcount : ¬count=0#16 := by
        rintro rfl
        rw [BitVec.toNat_zero] at hsum hsize
        omega
      have hpos : ∀ s∈size::rest,1 ≤ s := fun s hs =>
        Nat.one_le_iff_ne_zero.mpr fun h0 => hcount (hzero s hs h0)
      have hrest : rest≠[] := by
        rintro rfl
        exact hsize hsum
      obtain ⟨place,hplace,hle⟩ := source_zero hrest (fun s hs => hpos s (List.mem_cons_of_mem _ hs))
        (0+size)
      have hfirst := hpos size List.mem_cons_self
      have hbytes := hall (fun i => if i=0 then 1#8 else 0#8) (fun _ => 0#8) 0 (by omega)
      rw [source,hplace] at hbytes
      have hnz : ¬place=0 := by omega
      change (if place=0 then 1#8 else 0#8)=1#8 at hbytes
      rw [if_neg hnz] at hbytes
      cases hbytes
    · rintro rfl line buf i hi
      have hnone : ∀ {sizes : List ℕ} {start : ℕ},sizes.sum=0 → source i start sizes=none := by
        intro sizes
        induction sizes with
        | nil => exact fun _ => rfl
        | cons s sizes ih =>
          intro start hs
          rw [List.sum_cons] at hs
          rw [source,ih (by omega)]
          exact if_neg (by omega)
      rw [source,hnone (by omega)]
      dsimp only
      rw [if_pos hi,Nat.zero_add]
      rfl

/-- Given the portions in which the bytes come, a call delivers a stream
exactly when every place coincides; it delivers every stream exactly when the
first portion is all that is asked for. -/
theorem delivers_iff {count : Word} {sizes : List ℕ} (h : Portions count sizes) (first : Bool) :
    (∀ line buf,Delivers count sizes first line buf ↔ Coincides count sizes line buf) ∧
    ((∀ line buf,Delivers count sizes first line buf) ↔ sizes.head?=some count.toNat) := by
  have hcall := delivers_iff_coincides h first
  refine ⟨hcall,?_⟩
  rw [←coincides_always_iff h]
  exact forall_congr' fun line => forall_congr' fun buf => hcall line buf

/-- Two bytes that come one by one. -/
theorem delivers_iff_two :
    (∀ line buf,Delivers 2#16 [1,1] false line buf ↔ Coincides 2#16 [1,1] line buf) ∧
    ((∀ line buf,Delivers 2#16 [1,1] false line buf) ↔ [1,1].head?=some (2#16).toNat) :=
  delivers_iff ⟨List.cons_ne_nil _ _,rfl,by decide⟩ false

/-- Of two bytes that come one by one the second ends up in place of the first. -/
theorem two_portions_misplaced :
    Portions 2#16 [1,1] ∧
    ¬Delivers 2#16 [1,1] false (fun i => BitVec.ofNat 8 (i+1)) (fun _ => 0#8) := by
  have hportions : Portions 2#16 [1,1] := ⟨List.cons_ne_nil _ _,rfl,by decide⟩
  refine ⟨hportions,fun hd => ?_⟩
  have hc := (delivers_iff_coincides hportions false _ _).mp hd 0 (by decide)
  cases hc

end CyclotronPico.LinuxController
