import CyclotronPico.Sessions
import Mathlib.Data.List.GetD

/-!
# File records

The part of the library that a server with callbacks for file records uses.
Records are read straight into the response and written straight out of the
request, their bytes exchanged in place before and after each call. A read
returns the records in the order in which they are asked for; a write hands
them over in that order and is answered with the request itself, byte for
byte, because the exchange is undone.
-/

namespace CyclotronPico.FileRecords

open BitBuffer Effects PicoController Nanomodbus NanomodbusServer Frames Reception Requests
  Answers Responses Service Sessions

variable {σ : Type}

/-! ### Exchanging bytes in place -/

/-- Bytes are stored behind the replaced part of the buffer. -/
theorem storeBytes_overlay (s : Machine σ) (buf : Vector Byte 260) (xs bs : List Byte)
    (h : xs.length+bs.length≤260) :
    storeBytes xs.length bs {s with msg.buf := overlay buf xs}=
      (.ok (),{s with msg.buf := overlay buf (xs++bs)}) := by
  induction bs generalizing xs with
  | nil =>
    rw [List.append_nil]
    rfl
  | cons b bs ih =>
    rw [List.length_cons] at h
    have hset := overlay_set buf xs b [] rfl (by omega : xs.length<260)
    rw [List.append_nil,List.drop_nil] at hset
    have hw : writeBuf xs.length b {s with msg.buf := overlay buf xs}=
        (.ok (),{s with msg.buf := overlay buf (xs++[b])}) := by
      rw [←hset]
      exact dif_pos (by omega)
    have hrest := ih (xs++[b]) (by rw [List.length_append,List.length_singleton]; omega)
    rw [List.length_append,List.length_singleton,List.append_assoc,List.singleton_append] at hrest
    rw [storeBytes,bind_ok hw]
    exact hrest

/-- The bytes of pairs as they stand. -/
def pairBytes (pairs : List (Byte×Byte)) : List Byte := pairs.flatMap fun p => [p.1,p.2]

/-- Two bytes a pair. -/
theorem pairBytes_length (pairs : List (Byte×Byte)) : (pairBytes pairs).length=2*pairs.length := by
  induction pairs with
  | nil => rfl
  | cons p pairs ih =>
    rw [pairBytes,List.flatMap_cons,←pairBytes,List.length_append,ih]
    simp only [List.length_cons,List.length_nil]
    omega

/-- A byte of the buffer behind some bytes. -/
theorem readBuf_overlay (s : Machine σ) (buf : Vector Byte 260) (xs : List Byte) (b : Byte)
    (ys : List Byte) (h : xs.length<260) :
    readBuf xs.length {s with msg.buf := overlay buf (xs++b::ys)}=
      (.ok b,{s with msg.buf := overlay buf (xs++b::ys)}) := by
  have hbyte : (overlay buf (xs++b::ys))[xs.length]=b := by
    rw [overlay_get _ _ h,List.getElem?_append_right le_rfl,Nat.sub_self]
    rfl
  refine (dif_pos h).trans ?_
  exact congrArg (fun b => (Outcome.ok b,_)) hbyte

/-- Writing a byte of the buffer behind some bytes. -/
theorem writeBuf_overlay (s : Machine σ) (buf : Vector Byte 260) (xs : List Byte) (a b : Byte)
    (ys : List Byte) (h : xs.length<260) :
    writeBuf xs.length b {s with msg.buf := overlay buf (xs++a::ys)}=
      (.ok (),{s with msg.buf := overlay buf (xs++b::ys)}) := by
  refine (dif_pos h).trans ?_
  rw [overlay_set buf xs b (a::ys) rfl h]
  rfl

/-- The bytes of registers are exchanged in place, and the registers are those
that the bytes spelled. -/
theorem swapRegsFrom_pairs (s : Machine σ) (buf : Vector Byte 260) (xs : List Byte)
    (pairs : List (Byte×Byte)) (ys : List Byte) (h : xs.length+2*pairs.length≤260) :
    swapRegsFrom xs.length pairs.length {s with msg.buf := overlay buf (xs++pairBytes pairs++ys)}=
      (.ok (pairs.map fun p => wordOf p.1 p.2),
        {s with msg.buf := overlay buf (xs++pairBytes (pairs.map Prod.swap)++ys)}) := by
  induction pairs using List.reverseRecOn generalizing ys with
  | nil => rfl
  | append_singleton pairs p ih =>
    rw [List.length_append,List.length_singleton] at h ⊢
    have hplace : (xs++pairBytes pairs).length=xs.length+2*pairs.length := by
      rw [List.length_append,pairBytes_length]
    have hnext : ∀ b : Byte,(xs++pairBytes pairs++[b]).length=xs.length+2*pairs.length+1 := by
      intro b
      rw [List.length_append,hplace,List.length_singleton]
    have hlast : ∀ a b : Byte,xs++pairBytes (pairs++[(a,b)])++ys=
        xs++pairBytes pairs++a::b::ys := fun a b => by
      simp only [pairBytes,List.flatMap_append,List.flatMap_cons,List.flatMap_nil,
        List.append_assoc,List.cons_append,List.nil_append]
    have hsecond : ∀ a b : Byte,xs++pairBytes pairs++a::b::ys=
        xs++pairBytes pairs++[a]++b::ys := fun a b => by
      rw [List.append_assoc (xs++pairBytes pairs),List.singleton_append]
    have hhigh := readBuf_overlay s buf (xs++pairBytes pairs) p.1 (p.2::ys) (by omega)
    have hlow := readBuf_overlay s buf (xs++pairBytes pairs++[p.1]) p.2 ys (by
      rw [hnext]
      omega)
    have hfirst := writeBuf_overlay s buf (xs++pairBytes pairs) p.1 p.2 (p.2::ys) (by omega)
    have hlater := writeBuf_overlay s buf (xs++pairBytes pairs++[p.2]) p.2 p.1 ys (by
      rw [hnext]
      omega)
    rw [hplace] at hhigh hfirst
    rw [hnext,←hsecond] at hlow
    rw [hnext,←hsecond,←hsecond] at hlater
    have hrest := ih (p.2::p.1::ys) (by omega)
    have hdone : xs++pairBytes ((pairs++[p]).map Prod.swap)++ys=
        xs++pairBytes (pairs.map Prod.swap)++p.2::p.1::ys := by
      simp only [pairBytes,List.map_append,List.map_cons,List.map_nil,List.flatMap_append,
        List.flatMap_cons,List.flatMap_nil,List.append_assoc,List.cons_append,List.nil_append,
        Prod.fst_swap,Prod.snd_swap]
    rw [hlast,hdone,swapRegsFrom,bind_ok hhigh,bind_ok hlow,bind_ok hfirst,bind_ok hlater,
      bind_ok hrest,List.map_append]
    rfl

/-- Where registers can be accessed the exchange is the loop. -/
theorem swapRegs_accessible {unaligned : Bool} {i n : ℕ} (ha : Accessible unaligned i n) :
    (swapRegs unaligned i n : Nmbs σ (List Word))=swapRegsFrom i n :=
  if_pos ha

/-- A register as two bytes, low byte first. -/
def storedPair (r : Word) : Byte×Byte := (r.setWidth 8,(r>>>8).setWidth 8)

/-- Registers that a callback has stored are turned into what a message holds. -/
theorem stored_swapped (regs : List Word) :
    pairBytes ((regs.map storedPair).map Prod.swap)=regs.flatMap wordBytes := by
  rw [pairBytes,List.map_map,List.flatMap_map]
  refine congrArg (fun f => regs.flatMap f) (funext fun r => ?_)
  have hhigh : (r>>>8).setWidth 8=((r>>>8)&&&0xFF#16).setWidth 8 := by
    apply BitVec.eq_of_getLsbD_eq
    intro i hi
    have hmask : ∀ j,j<8 → (0xFF#16).getLsbD j=true := by decide
    rw [BitVec.getLsbD_setWidth,BitVec.getLsbD_setWidth,BitVec.getLsbD_and,hmask i hi,
      Bool.and_true]
  change [(r>>>8).setWidth 8,r.setWidth 8]=_
  rw [hhigh]
  rfl

/-! ### Reading -/

/-- What an application offers for file records. -/
structure RecordHandlers (σ : Type) where
  /-- File, record and length to registers. -/
  read : Option (Word → Word → Word → Byte → σ → (NmbsError×List Word)×σ) := none
  /-- File, record, registers and length. -/
  write : Option (Word → Word → List Word → Word → Byte → σ → NmbsError×σ) := none

/-- A call stores as many registers as are asked for, no more when it fails. -/
def Stores (length : Word) (result : NmbsError×List Word) : Prop :=
  result.2.length≤length.toNat ∧ (result.1=.errorNone → result.2.length=length.toNat)

/-- The callbacks of a server do what its application offers for file records. -/
structure ImplementsRecords (nmbs : NmbsServer σ) (h : RecordHandlers σ) : Prop where
  /-- Reading. -/
  read : Option.Rel (fun callback handler => ∀ file record length u,
    Does (callback file record length u) (handler file record length u) ∧
      ∀ app,Stores length (handler file record length u app).1)
    nmbs.callbacks.readFileRecord h.read
  /-- Writing. -/
  write : Option.Rel (fun callback handler => ∀ file record regs length u,
    Does (callback file record regs length u) (handler file record regs length u))
    nmbs.callbacks.writeFileRecord h.write

/-- The bytes of a record in a response: their number, the reference type and
the registers. -/
def recordBytes (r : Subreq) (regs : List Word) : List Byte :=
  BitVec.ofNat 8 (r.recordLength.toNat*2+1)::0x06#8::regs.flatMap wordBytes

/-- Read records one after the other, until a call fails. -/
def readAll (read : Word → Word → Word → Byte → σ → (NmbsError×List Word)×σ) (u : Byte) :
    List Subreq → σ → (NmbsError×List Byte)×σ
  | [],app => ((.errorNone,[]),app)
  | r::rest,app =>
    let got := read r.fileNumber r.recordNumber r.recordLength u app
    if got.1.1≠.errorNone then ((got.1.1,[]),got.2)
    else
      let more := readAll read u rest got.2
      ((more.1.1,recordBytes r got.1.2++more.1.2),more.2)

/-- The bytes of the records that are asked for. -/
def recordsSize : List Subreq → ℕ
  | [] => 0
  | r::rest => 2+2*r.recordLength.toNat+recordsSize rest

/-- The registers to be returned can be accessed in the response, where each
record starts at an odd place. -/
def Readable (unaligned : Bool) (subreqs : List Subreq) : Prop :=
  unaligned=true ∨ ∀ r∈subreqs,r.recordLength.toNat=0

/-- Nothing but the buffer, the cursor and the application is touched. -/
def Beside (s : Machine σ) (app : σ) (t : Machine σ) : Prop :=
  ∃ i buf,t={atIdx s i with msg.buf := buf, app := app}

/-- The library with the first bytes of its buffer replaced and its cursor
moved. -/
def filled (s : Machine σ) (xs : List Byte) (i : ℕ) : Machine σ :=
  {s with msg.buf := overlay s.msg.buf xs, msg.bufIdx := i}

/-- A message that is being built. -/
theorem reading_filled (s : Machine σ) (xs : List Byte) :
    reading s xs [] s.line.rx s.line.led=filled s xs xs.length := by
  rw [reading,List.append_nil]
  rfl

/-- The start of a record is put, and the place of its registers is skipped. -/
theorem startRecord_run (α : Type) (s : Machine σ) (xs : List Byte) (a : Byte) (size : ℕ)
    (h : xs.length+2≤260) (k : ℕ → Nmbs σ α) :
    (put1 a>>=fun _ => put1 0x06#8>>=fun _ => getN size>>=k) (filled s xs xs.length)=
      k (xs.length+2) (filled s (xs++[a,0x06#8]) ((xs.length+2+size)%65536)) := by
  have hfirst := put1_reading s xs s.line.rx s.line.led a (by omega)
  have hsecond := put1_reading s (xs++[a]) s.line.rx s.line.led 0x06#8
    (by rw [List.length_append,List.length_singleton]; omega)
  rw [List.append_assoc,List.singleton_append] at hsecond
  rw [reading_filled,reading_filled] at hfirst hsecond
  have hlen : (xs++[a,0x06#8]).length=xs.length+2 := List.length_append
  have hskip : getN size (filled s (xs++[a,0x06#8]) (xs++[a,0x06#8]).length)=
      (.ok (xs++[a,0x06#8]).length,
        filled s (xs++[a,0x06#8]) (((xs++[a,0x06#8]).length+size)%65536)) := rfl
  rw [hlen] at hskip hsecond
  rw [bind_ok hfirst,bind_ok hsecond,bind_ok hskip]

/-- Registers that a callback has stored are exchanged in place. -/
theorem storeRecord_run {unaligned : Bool} (s : Machine σ) (xs : List Byte) (regs : List Word)
    (i : ℕ) (ha : Accessible unaligned xs.length regs.length) (h : xs.length+2*regs.length≤260) :
    storeRegs unaligned xs.length regs (filled s xs i)=
      (.ok (),filled s (xs++pairBytes (regs.map storedPair)) i) ∧
    swapRegs unaligned xs.length regs.length (filled s (xs++pairBytes (regs.map storedPair)) i)=
      (.ok ((regs.map storedPair).map fun p => wordOf p.1 p.2),
        filled s (xs++regs.flatMap wordBytes) i) := by
  have hbytes : (regs.flatMap fun (r : Word) => [r.setWidth 8,(r>>>8).setWidth 8])=
      pairBytes (regs.map storedPair) := by
    rw [pairBytes,List.flatMap_map]
    rfl
  have hlen := pairBytes_length (regs.map storedPair)
  rw [List.length_map] at hlen
  constructor
  · have hs := storeBytes_overlay (atIdx s i) s.msg.buf xs (pairBytes (regs.map storedPair))
      (by omega)
    rw [storeRegs,if_pos ha,hbytes]
    exact hs
  · have hs := swapRegsFrom_pairs (atIdx s i) s.msg.buf xs (regs.map storedPair) []
      (by rw [List.length_map]; omega)
    rw [stored_swapped,List.append_nil,List.append_nil,List.length_map] at hs
    rw [swapRegs_accessible ha]
    exact hs

/-- Putting a byte past the buffer. -/
theorem put1_past (b : Byte) (s : Machine σ) (h : 260 ≤ s.msg.bufIdx) :
    ∃ x,put1 b s=(.fault x,s) := by
  have hi : bufIdx s=(.ok s.msg.bufIdx,s) := rfl
  have hw : writeBuf s.msg.bufIdx b s=(.fault (.msgBuf s.msg.bufIdx),s) :=
    dif_neg (Nat.not_lt.mpr h)
  exact ⟨_,(bind_ok hi).trans (bind_fault hw)⟩

/-- A record without room for its first two bytes leaves the buffer. -/
theorem startRecord_over {α : Type} (s : Machine σ) {xs : List Byte} (hxs : xs.length≤260)
    (hover : 260 < xs.length+2) (a : Byte) (k : Nmbs σ α) :
    ∃ x t,(put1 a>>=fun _ => put1 0x06#8>>=fun _ => k) (filled s xs xs.length)=(.fault x,t) := by
  by_cases hone : xs.length<260
  · have hfirst := put1_reading s xs s.line.rx s.line.led a hone
    rw [reading_filled,reading_filled] at hfirst
    obtain ⟨x,hx⟩ := put1_past 0x06#8 (filled s (xs++[a]) (xs++[a]).length) (by
      change 260 ≤ (xs++[a]).length
      rw [List.length_append,List.length_singleton]
      omega)
    exact ⟨x,_,(bind_ok hfirst).trans (bind_fault hx)⟩
  · obtain ⟨x,hx⟩ := put1_past a (filled s xs xs.length) (by
      change 260 ≤ xs.length
      omega)
    exact ⟨x,_,bind_fault hx⟩

/-- Registers that do not fit leave the buffer, and those that cannot be accessed
are misaligned. -/
theorem storeRegs_over {unaligned : Bool} (s : Machine σ) {i : ℕ} (regs : List Word) (hi : i≤260)
    (hover : 260 < i+2*regs.length ∨ ¬Accessible unaligned i regs.length) :
    ∃ x t,storeRegs unaligned i regs s=(.fault x,t) := by
  by_cases ha : Accessible unaligned i regs.length
  · have hlong := hover.resolve_right (not_not.mpr ha)
    have hbytes : (regs.flatMap fun (r : Word) => [r.setWidth 8,(r>>>8).setWidth 8]).length=
        2*regs.length := by
      have hpairs := pairBytes_length (regs.map storedPair)
      rw [pairBytes,List.flatMap_map,List.length_map] at hpairs
      exact hpairs
    obtain ⟨x,t,ht,_⟩ := storeBytes_over s (i:=i)
      (regs.flatMap fun (r : Word) => [r.setWidth 8,(r>>>8).setWidth 8]) hi (by omega)
    rw [storeRegs,if_pos ha]
    exact ⟨x,t,ht⟩
  · rw [storeRegs,if_neg ha]
    exact ⟨_,_,rfl⟩

section Reading

variable {callback : Word → Word → Word → Byte → Callback σ (NmbsError×List Word)}
  {handler : Word → Word → Word → Byte → σ → (NmbsError×List Word)×σ}
  (hc : ∀ file record length u,Does (callback file record length u)
    (handler file record length u) ∧ ∀ app,Stores length (handler file record length u app).1)

include hc

/-- A record that fits is put into the response, or its call fails. -/
theorem putRecords_step {unaligned : Bool} (r : Subreq) (rest : List Subreq) (s : Machine σ)
    (xs : List Byte) (ha : unaligned=true ∨ r.recordLength.toNat=0)
    (hfit : xs.length+(2+2*r.recordLength.toNat)≤260) :
    let got := handler r.fileNumber r.recordNumber r.recordLength s.msg.unitId s.app
    (got.1.1≠.errorNone → ∃ t,putRecords unaligned callback (r::rest) (filled s xs xs.length)=
      (.ok got.1.1,t) ∧ Beside s got.2 t) ∧
    (got.1.1=.errorNone → putRecords unaligned callback (r::rest) (filled s xs xs.length)=
      putRecords unaligned callback rest (filled {s with app := got.2} (xs++recordBytes r got.1.2)
        (xs++recordBytes r got.1.2).length)) := by
  obtain ⟨hdoes,hstores⟩ := hc r.fileNumber r.recordNumber r.recordLength s.msg.unitId
  obtain ⟨hshort,hfull⟩ := hstores s.app
  intro got
  change got.1.2.length≤r.recordLength.toNat at hshort
  change got.1.1=.errorNone → got.1.2.length=r.recordLength.toNat at hfull
  have hstart := startRecord_run NmbsError s xs
    (BitVec.ofNat 8 (r.recordLength.toNat*2+1)) (r.recordLength.toNat*2) (by omega)
  have hwrap : (xs.length+2+r.recordLength.toNat*2)%65536=xs.length+2+r.recordLength.toNat*2 :=
    Nat.mod_eq_of_lt (by omega)
  rw [hwrap] at hstart
  generalize hys : xs++[BitVec.ofNat 8 (r.recordLength.toNat*2+1),0x06#8]=ys at hstart
  have hlen : ys.length=xs.length+2 := by
    rw [←hys,List.length_append]
    rfl
  rw [←hlen] at hstart
  have hunit : unitId (filled s ys (ys.length+r.recordLength.toNat*2))=
      (.ok s.msg.unitId,filled s ys (ys.length+r.recordLength.toNat*2)) := rfl
  have hcall := call_does hdoes (filled s ys (ys.length+r.recordLength.toNat*2))
  have haccess : Accessible unaligned ys.length got.1.2.length := by
    rcases ha with hodd | hnone
    · exact .inr (.inl hodd)
    · exact .inl (by omega)
  obtain ⟨hstore,hswap⟩ := storeRecord_run {s with app := got.2} ys got.1.2
    (ys.length+r.recordLength.toNat*2) haccess (by omega)
  have hrun : putRecords unaligned callback (r::rest) (filled s xs xs.length)=
      (if got.1.1≠.errorNone then pure got.1.1
        else swapRegs unaligned ys.length r.recordLength.toNat>>=fun _ =>
          putRecords unaligned callback rest)
      (filled {s with app := got.2} (ys++pairBytes (got.1.2.map storedPair))
        (ys.length+r.recordLength.toNat*2)) :=
    (hstart _).trans ((bind_ok hunit).trans ((bind_ok hcall).trans (bind_ok hstore)))
  constructor
  · intro hfail
    rw [if_pos hfail] at hrun
    exact ⟨_,hrun,⟨_,_,rfl⟩⟩
  · -- the registers are complete, so the response grows by the whole record
    intro hnone
    rw [hfull hnone] at hswap
    rw [if_neg (not_not.mpr hnone),bind_ok hswap] at hrun
    have hgrown : ys++got.1.2.flatMap wordBytes=xs++recordBytes r got.1.2 := by
      rw [←hys,List.append_assoc]
      rfl
    have hmore : (xs++recordBytes r got.1.2).length=ys.length+r.recordLength.toNat*2 := by
      rw [←hgrown,List.length_append,wordsBytes_length,hfull hnone]
      omega
    rw [hgrown,←hmore] at hrun
    exact hrun

/-- The records are put into the response as they are read, in their order;
when a call fails the rest is not read. -/
theorem putRecords_run {unaligned : Bool} (subreqs : List Subreq) (s : Machine σ)
    (xs : List Byte) (ha : Readable unaligned subreqs)
    (hfit : xs.length+recordsSize subreqs≤260) :
    let r := readAll handler s.msg.unitId subreqs s.app
    ∃ t,putRecords unaligned callback subreqs (filled s xs xs.length)=(.ok r.1.1,t) ∧ Beside s r.2 t ∧
      (r.1.1=.errorNone →
        t=filled {s with app := r.2} (xs++r.1.2) (xs++r.1.2).length) := by
  induction subreqs generalizing s xs with
  | nil =>
    refine ⟨_,rfl,⟨_,_,rfl⟩,fun _ => ?_⟩
    rw [readAll,List.append_nil]
  | cons r rest ih =>
    rw [recordsSize] at hfit
    obtain ⟨hfail,hnext⟩ := putRecords_step hc r rest s xs
      (ha.imp_right fun hempty => hempty r (List.mem_cons_self ..)) (by omega)
    have hrest : Readable unaligned rest :=
      ha.imp_right fun hempty r hr => hempty r (List.mem_cons_of_mem _ hr)
    have hfull := ((hc r.fileNumber r.recordNumber r.recordLength s.msg.unitId).2 s.app).2
    rw [readAll]
    generalize handler r.fileNumber r.recordNumber r.recordLength s.msg.unitId s.app=got
      at hfail hnext hfull ⊢
    dsimp only
    by_cases hnone : got.1.1=.errorNone
    · rw [if_neg (not_not.mpr hnone),hnext hnone]
      have hmore : (recordBytes r got.1.2).length=2+2*r.recordLength.toNat := by
        rw [recordBytes,List.length_cons,List.length_cons,wordsBytes_length,hfull hnone]
        omega
      obtain ⟨t,ht,⟨i,buf,hbeside⟩,hdone⟩ := ih {s with app := got.2} (xs++recordBytes r got.1.2)
        hrest (by rw [List.length_append,hmore]; omega)
      refine ⟨t,ht,⟨i,buf,hbeside⟩,fun h => ?_⟩
      rw [hdone h,List.append_assoc]
    · rw [if_pos hnone]
      obtain ⟨t,ht,hbeside⟩ := hfail hnone
      exact ⟨t,ht,hbeside,fun h => absurd h hnone⟩

/-- A record that does not fit leaves the buffer, and one whose registers cannot
be accessed where they are put is misaligned. -/
theorem putRecord_over {unaligned : Bool} (r : Subreq) (rest : List Subreq) (s : Machine σ)
    (xs : List Byte) (hxs : xs.length≤260)
    (hover : 260 < xs.length+(2+2*r.recordLength.toNat) ∨
      ¬Accessible unaligned (xs.length+2) r.recordLength.toNat)
    (hnone : (handler r.fileNumber r.recordNumber r.recordLength s.msg.unitId
      s.app).1.1=.errorNone) :
    ∃ x t,putRecords unaligned callback (r::rest) (filled s xs xs.length)=(.fault x,t) := by
  obtain ⟨hdoes,hstores⟩ := hc r.fileNumber r.recordNumber r.recordLength s.msg.unitId
  have hfull := (hstores s.app).2 hnone
  by_cases htwo : xs.length+2≤260
  · have hstart := startRecord_run NmbsError s xs
      (BitVec.ofNat 8 (r.recordLength.toNat*2+1)) (r.recordLength.toNat*2) htwo
    generalize hys : xs++[BitVec.ofNat 8 (r.recordLength.toNat*2+1),0x06#8]=ys at hstart
    generalize (xs.length+2+r.recordLength.toNat*2)%65536=j at hstart
    have hunit : unitId (filled s ys j)=(.ok s.msg.unitId,filled s ys j) := rfl
    have hcall := call_does hdoes (filled s ys j)
    have happ : (filled s ys j).app=s.app := rfl
    rw [happ] at hcall
    generalize handler r.fileNumber r.recordNumber r.recordLength s.msg.unitId s.app=got
      at hcall hfull
    -- the callback is the first to access the registers
    have hstore : ∃ x t,storeRegs unaligned (xs.length+2) got.1.2
        (filled {s with app := got.2} ys j)=(.fault x,t) := by
      refine storeRegs_over _ got.1.2 htwo ?_
      rw [hfull]
      exact hover.imp_left fun hlong => by omega
    obtain ⟨x,t,ht⟩ := hstore
    exact ⟨x,t,(hstart _).trans ((bind_ok hunit).trans ((bind_ok hcall).trans (bind_fault ht)))⟩
  · exact startRecord_over s hxs (by omega) _ _

/-- Records that do not fit leave the buffer and those that cannot be accessed
are misaligned, unless a call fails before. -/
theorem putRecords_over {unaligned : Bool} (subreqs : List Subreq) (s : Machine σ)
    (xs : List Byte) (hodd : xs.length%2=1) (hxs : xs.length≤260)
    (hover : 260 < xs.length+recordsSize subreqs ∨ ¬Readable unaligned subreqs)
    (hread : (readAll handler s.msg.unitId subreqs s.app).1.1=.errorNone) :
    ∃ x t,putRecords unaligned callback subreqs (filled s xs xs.length)=(.fault x,t) := by
  induction subreqs generalizing s xs with
  | nil =>
    rw [recordsSize] at hover
    rcases hover with hlong | hempty
    · omega
    · exact absurd (.inr fun r hr => absurd hr List.not_mem_nil) hempty
  | cons r rest ih =>
    rw [recordsSize] at hover
    have hfull := ((hc r.fileNumber r.recordNumber r.recordLength s.msg.unitId).2 s.app).2
    have hnone : (handler r.fileNumber r.recordNumber r.recordLength s.msg.unitId
        s.app).1.1=.errorNone := by
      by_contra hfail
      rw [readAll] at hread
      dsimp only at hread
      rw [if_pos hfail] at hread
      exact hfail hread
    by_cases hbad : 260 < xs.length+(2+2*r.recordLength.toNat) ∨
        ¬Accessible unaligned (xs.length+2) r.recordLength.toNat
    · exact putRecord_over hc r rest s xs hxs hbad hnone
    · obtain ⟨hfit,ha⟩ := not_or.mp hbad
      have hplain : unaligned=true ∨ r.recordLength.toNat=0 := by
        rcases not_not.mp ha with hzero | hany | heven
        · exact .inr hzero
        · exact .inl hany
        · omega
      have hnext := (putRecords_step hc r rest s xs hplain (by omega)).2 hnone
      rw [readAll] at hread
      generalize handler r.fileNumber r.recordNumber r.recordLength s.msg.unitId s.app=got
        at hnext hfull hnone hread
      dsimp only at hread
      rw [if_neg (not_not.mpr hnone)] at hread
      have hmore : (recordBytes r got.1.2).length=2+2*r.recordLength.toNat := by
        rw [recordBytes,List.length_cons,List.length_cons,wordsBytes_length,hfull hnone]
        omega
      have hlater : 260 < xs.length+(2+2*r.recordLength.toNat)+recordsSize rest ∨
          ¬Readable unaligned rest := by
        rcases hover with hlong | hempty
        · exact .inl (by omega)
        · refine .inr fun hrest => hempty ?_
          rcases hplain,hrest with ⟨hany | hzero,hany | hzeros⟩
          · exact .inl hany
          · exact .inl hany
          · exact .inl hany
          · exact .inr (List.forall_mem_cons.mpr ⟨hzero,hzeros⟩)
      rw [hnext]
      exact ih {s with app := got.2} (xs++recordBytes r got.1.2)
        (by rw [List.length_append,hmore]; omega) (by rw [List.length_append,hmore]; omega)
        (by rw [List.length_append,hmore]; exact hlater) hread

end Reading

/-- The records that are read have the size that was asked for. -/
theorem readAll_length {handler : Word → Word → Word → Byte → σ → (NmbsError×List Word)×σ}
    (hs : ∀ file record length u app,Stores length (handler file record length u app).1)
    (u : Byte) (subreqs : List Subreq) (app : σ)
    (h : (readAll handler u subreqs app).1.1=.errorNone) :
    (readAll handler u subreqs app).1.2.length=recordsSize subreqs := by
  induction subreqs generalizing app with
  | nil => rfl
  | cons r rest ih =>
    have hfull := (hs r.fileNumber r.recordNumber r.recordLength u app).2
    rw [readAll] at h ⊢
    generalize handler r.fileNumber r.recordNumber r.recordLength u app=got at hfull h ⊢
    dsimp only at h ⊢
    by_cases hnone : got.1.1=.errorNone
    · rw [if_neg (not_not.mpr hnone)] at h ⊢
      rw [List.length_append,ih got.2 h,recordBytes,List.length_cons,List.length_cons,
        wordsBytes_length,hfull hnone,recordsSize]
      omega
    · rw [if_pos hnone] at h
      exact absurd h hnone

/-- The reply to a request for file records. -/
def serveReadRecords (h : RecordHandlers σ) (u size : Byte) (subreqs : List Subreq) (app : σ) :
    Reply×σ :=
  if size.toNat%7≠0 ∨ size.toNat<0x07 ∨ size.toNat>0xF5 then
    (.exception .exceptionIllegalDataValue,app)
  else if subreqs.all (fun r => r.accepted 124)=false then
    (.exception .exceptionIllegalDataAddress,app)
  else match h.read with
    | some read => replyData (fun bytes => responseDataSize subreqs::bytes)
        (readAll read u subreqs app)
    | none => (.exception .exceptionIllegalFunction,app)

/-- An exception response after some calls. -/
theorem serves_beside (e : NmbsError) {s t : Machine σ} {app : σ} (hb : Beside s app t) :
    ∃ v,sendCallbackError e t=(.ok (),v) ∧ v.app=app ∧ v.line=⟨s.line.rx,s.line.tx++
      [exceptionMessage s.msg.unitId s.msg.fc (callbackException e)],false⟩ := by
  obtain ⟨i,buf,rfl⟩ := hb
  obtain ⟨v,hv,happ,hline⟩ := serves_callbackError e {atIdx s i with msg.buf := buf, app := app}
  exact ⟨v,hv,happ,hline⟩

/-- A response that is built is transmitted unless the request is for every
unit. -/
theorem serves_sent {s t : Machine σ} {app : σ} {data body : List Byte} {p : Nmbs σ Unit}
    (hled : t.line.led=false)
    (hsent : ∃ v,p t=(.ok (),v) ∧ v.app=app ∧
      v.line=⟨s.line.rx,s.line.tx++[sealed data],false⟩)
    (hdata : data=[s.msg.unitId,s.msg.fc]++body) (happ : t.app=app)
    (hrx : t.line.rx=s.line.rx) (htx : t.line.tx=s.line.tx)
    (hall : t.msg.broadcast=s.msg.broadcast) :
    ∃ v,(broadcast>>=fun toAll => if toAll=true then pure () else p) t=(.ok (),v) ∧
      v.app=app ∧ v.line=⟨s.line.rx,s.line.tx++
        (Reply.content body).messages s.msg.unitId s.msg.fc s.msg.broadcast,false⟩ := by
  have hread : broadcast t=(.ok s.msg.broadcast,t) := by
    rw [←hall]
    rfl
  rw [Reply.messages,bind_ok hread]
  by_cases hb : s.msg.broadcast=true
  · rw [if_pos hb,if_pos hb,List.append_nil,←hrx,←htx,←hled]
    exact ⟨t,rfl,happ,rfl⟩
  · rw [if_neg hb,if_neg hb,←hdata]
    exact hsent

variable {nmbs : NmbsServer σ} {h : RecordHandlers σ}

/-- Whether a request for file records passes the checks of the library. -/
def ReadChecked (size : Byte) (subreqs : List Subreq) : Prop :=
  size.toNat%7=0 ∧ 7 ≤ size.toNat ∧ size.toNat≤0xF5 ∧ ∀ r∈subreqs,r.accepted 124=true

/-- A request that passes the checks starts its response and reads the
records. -/
theorem answerRead_checked
    {callback : Word → Word → Word → Byte → Callback σ (NmbsError×List Word)}
    (hcallback : nmbs.callbacks.readFileRecord=some callback) {size : Byte}
    {subreqs : List Subreq} (hchecked : ReadChecked size subreqs) (s : Machine σ) :
    answerReadFileRecord nmbs size subreqs s=
      (putRecords nmbs.unaligned callback subreqs>>=fun err => if err≠.errorNone then sendCallbackError err
        else broadcast>>=fun toAll => if toAll=true then pure () else sendMsg)
        (filled s [s.msg.unitId,s.msg.fc,responseDataSize subreqs] 3) := by
  obtain ⟨hmod,hlow,hhigh,hall⟩ := hchecked
  have hevery : ¬subreqs.all (fun r => r.accepted 124)=false := by
    rw [Bool.not_eq_false,List.all_eq_true]
    exact hall
  rw [answerReadFileRecord,if_neg (not_not.mpr hmod),if_neg (by omega),if_neg hevery,putResHeader,
    bind_ok (putMsgHeader_run s),bind_ok (put1_reading _ _ _ _ _ (by simp)),reading_filled,
    hcallback]
  rfl

/-- A request for file records whose response fits the buffer is served. -/
theorem serves_readRecords (hi : ImplementsRecords nmbs h) (size : Byte) (subreqs : List Subreq)
    {s : Machine σ} (hled : s.line.led=false)
    (hfit : ReadChecked size subreqs →
      Readable nmbs.unaligned subreqs ∧ recordsSize subreqs≤255) :
    Serves (answerReadFileRecord nmbs size subreqs) s
      (serveReadRecords h s.msg.unitId size subreqs s.app) := by
  have hread := hi.read
  rw [answerReadFileRecord,serveReadRecords]
  by_cases hmod : size.toNat%7≠0
  · rw [if_pos hmod,if_pos (.inl hmod)]
    exact serves_exception .exceptionIllegalDataValue s
  rw [if_neg hmod]
  by_cases hsize : size.toNat<0x07 ∨ size.toNat>0xF5
  · rw [if_pos hsize,if_pos (.inr hsize)]
    exact serves_exception .exceptionIllegalDataValue s
  rw [if_neg hsize,if_neg (not_or.mpr ⟨hmod,hsize⟩)]
  by_cases hall : subreqs.all (fun r => r.accepted 124)=false
  · rw [if_pos hall,if_pos hall]
    exact serves_exception .exceptionIllegalDataAddress s
  rw [if_neg hall,if_neg hall]
  obtain ⟨ha,hfit⟩ := hfit ⟨not_not.mp hmod,by omega,by omega,
    List.all_eq_true.mp ((Bool.not_eq_false _).mp hall)⟩
  have hheader : ∀ k : Nmbs σ Unit,
      (putResHeader>>=fun _ => put1 (responseDataSize subreqs)>>=fun _ => k) s=
        k (filled s [s.msg.unitId,s.msg.fc,responseDataSize subreqs] 3) := fun k => by
    rw [putResHeader,bind_ok (putMsgHeader_run s),bind_ok (put1_reading _ _ _ _ _ (by simp)),
      reading_filled]
    rfl
  rw [Serves,hheader]
  generalize nmbs.callbacks.readFileRecord=callback at hread ⊢
  generalize h.read=handler at hread ⊢
  cases hread with
  | none =>
    obtain ⟨t,ht,happ,hline⟩ := serves_exception .exceptionIllegalFunction
      (filled s [s.msg.unitId,s.msg.fc,responseDataSize subreqs] 3)
    exact ⟨t,ht,happ,hline⟩
  | @some callback handler hc =>
    obtain ⟨t,ht,hbeside,hdone⟩ := putRecords_run hc subreqs s
      [s.msg.unitId,s.msg.fc,responseDataSize subreqs] ha (by
        simp only [List.length_cons,List.length_nil]
        omega)
    have hlen := readAll_length (fun file record length u => (hc file record length u).2)
      s.msg.unitId subreqs s.app
    have hthree : [s.msg.unitId,s.msg.fc,responseDataSize subreqs].length=3 := rfl
    rw [hthree] at ht
    dsimp only
    generalize readAll handler s.msg.unitId subreqs s.app=got at ht hbeside hdone hlen ⊢
    rw [bind_ok ht,replyData]
    by_cases hnone : got.1.1=.errorNone
    · rw [if_neg (not_not.mpr hnone),if_pos hnone]
      rw [hdone hnone]
      have hsent := sendMsg_reading {s with app := got.2}
        ([s.msg.unitId,s.msg.fc,responseDataSize subreqs]++got.1.2) s.line.rx s.line.led (by
          rw [List.length_append,hlen hnone]
          simp only [List.length_cons,List.length_nil]
          omega)
      rw [reading_filled {s with app := got.2}] at hsent
      exact serves_sent hled hsent rfl rfl rfl rfl rfl
    · rw [if_pos hnone,if_neg hnone]
      exact serves_beside got.1.1 hbeside

/-! ### Writing -/

/-- The bytes of a message in pairs. -/
def pairsOf : List Byte → List (Byte×Byte)
  | a::b::bs => (a,b)::pairsOf bs
  | _ => []

/-- An even number of bytes is paired. -/
theorem pairBytes_pairsOf {bs : List Byte} {n : ℕ} (h : bs.length=2*n) :
    pairBytes (pairsOf bs)=bs ∧ (pairsOf bs).length=n := by
  induction n generalizing bs with
  | zero =>
    obtain rfl := List.eq_nil_of_length_eq_zero h
    exact ⟨rfl,rfl⟩
  | succ n ih =>
    match bs,h with
    | a::b::bs,h =>
      simp only [List.length_cons] at h
      have hrest : bs.length=2*n := by omega
      obtain ⟨hbytes,hlen⟩ := ih hrest
      refine ⟨?_,congrArg Nat.succ hlen⟩
      rw [pairsOf,pairBytes,List.flatMap_cons,←pairBytes,hbytes]
      rfl

/-- The registers that bytes spell are those of their pairs. -/
theorem wordsOf_pairs : ∀ bs : List Byte,(pairsOf bs).map (fun p => wordOf p.1 p.2)=wordsOf bs
  | [] => rfl
  | [_] => rfl
  | a::b::bs => congrArg (fun ws => wordOf a b::ws) (wordsOf_pairs bs)

/-- The records of a write, with their registers. -/
def recordsIn : List Byte → List (Subreq×List Word)
  | t::f1::f0::r1::r0::l1::l0::ws =>
    let r : Subreq := ⟨t,wordOf f1 f0,wordOf r1 r0,wordOf l1 l0⟩
    (r,wordsOf (ws.take (2*r.recordLength.toNat)))::recordsIn (ws.drop (2*r.recordLength.toNat))
  | _ => []
termination_by bs => bs.length
decreasing_by
  simp only [List.length_drop,List.length_cons]
  omega

/-- Write records one after the other, until a call fails. -/
def writeAll (write : Word → Word → List Word → Word → Byte → σ → NmbsError×σ) (u : Byte) :
    List (Subreq×List Word) → σ → NmbsError×σ
  | [],app => (.errorNone,app)
  | (r,regs)::rest,app =>
    let done := write r.fileNumber r.recordNumber regs r.recordLength u app
    if done.1≠.errorNone then done else writeAll write u rest done.2

/-- The header of a record at a place of a message. -/
def headerAt (bs : List Byte) (i : ℕ) : Subreq :=
  ⟨byteAt bs i,wordAt bs (i+1),wordAt bs (i+3),wordAt bs (i+5)⟩

/-- An accepted walk over a message accepts the record under it, which lies in
what is left, and goes on behind it until nothing is left. -/
theorem bytesWalk_step {bs : List Byte} {i size : ℕ} (h : bytesWalk bs i size=.accepted)
    (hend : i+size+2=bs.length) (hsize : size<65536) :
    7+2*(headerAt bs i).recordLength.toNat ≤ size ∧
      (size=7+2*(headerAt bs i).recordLength.toNat ∨
        7 ≤ size-(7+2*(headerAt bs i).recordLength.toNat) ∧
        bytesWalk bs (i+7+2*(headerAt bs i).recordLength.toNat)
          (size-(7+2*(headerAt bs i).recordLength.toNat))=.accepted) := by
  rw [bytesWalk] at h
  split at h
  case isFalse => cases h
  rename_i hi
  change (if (headerAt bs i).accepted 122=false then _ else _)=_ at h
  split at h
  case isTrue => cases h
  rename_i haccepted
  have hlen := accepted_length ((Bool.not_eq_false _).mp haccepted)
  change (if 7≤(size+65536-(7+(headerAt bs i).recordLength.toNat*2))%65536 then
    bytesWalk bs (i+7+(headerAt bs i).recordLength.toNat*2)
      ((size+65536-(7+(headerAt bs i).recordLength.toNat*2))%65536)
    else if (size+65536-(7+(headerAt bs i).recordLength.toNat*2))%65536≠0 then _ else _)=_ at h
  rw [Nat.mul_comm (headerAt bs i).recordLength.toNat] at h
  generalize (headerAt bs i).recordLength.toNat=n at h hlen ⊢
  by_cases hfit : 7+2*n ≤ size
  · have hrest : (size+65536-(7+2*n))%65536=size-(7+2*n) := by omega
    rw [hrest] at h
    refine ⟨hfit,?_⟩
    by_cases hmore : 7 ≤ size-(7+2*n)
    · rw [if_pos hmore] at h
      exact .inr ⟨hmore,h⟩
    · rw [if_neg hmore] at h
      by_cases hleft : size-(7+2*n)≠0
      · rw [if_pos hleft] at h
        cases h
      · exact .inl (by omega)
  · -- past the end the size wraps, and no header is left
    rw [if_pos (by omega),bytesWalk,if_neg (by omega)] at h
    cases h

/-- The bytes of a header and what follows it. -/
theorem drop_header {bs : List Byte} {i : ℕ} (h : i+7≤bs.length) :
    bs.drop i=byteAt bs i::byteAt bs (i+1)::byteAt bs (i+2)::byteAt bs (i+3)::byteAt bs (i+4)::
      byteAt bs (i+5)::byteAt bs (i+6)::bs.drop (i+7) := by
  have hone : ∀ j,j<bs.length → bs.drop j=byteAt bs j::bs.drop (j+1) := fun j hj => by
    rw [List.drop_eq_getElem_cons hj,byteAt,List.getD_eq_getElem _ _ hj]
  rw [hone i (by omega),hone (i+1) (by omega),hone (i+1+1) (by omega),hone (i+1+1+1) (by omega),
    hone (i+1+1+1+1) (by omega),hone (i+1+1+1+1+1) (by omega),hone (i+1+1+1+1+1+1) (by omega)]

/-- The records of a message are the one at its start and those behind it. -/
theorem recordsIn_step {bs : List Byte} {i size : ℕ} (hend : i+size≤bs.length)
    (hfit : 7+2*(headerAt bs i).recordLength.toNat ≤ size) :
    recordsIn ((bs.drop i).take size)=
      (headerAt bs i,wordsOf ((bs.drop (i+7)).take (2*(headerAt bs i).recordLength.toNat)))::
        recordsIn ((bs.drop (i+7+2*(headerAt bs i).recordLength.toNat)).take
          (size-(7+2*(headerAt bs i).recordLength.toNat))) := by
  have hseven : size=size-7+7 := by omega
  have hdata : ((bs.drop (i+7)).take (size-7)).take (2*(headerAt bs i).recordLength.toNat)=
      (bs.drop (i+7)).take (2*(headerAt bs i).recordLength.toNat) := by
    rw [List.take_take,Nat.min_eq_left (by omega)]
  have hrest : ((bs.drop (i+7)).take (size-7)).drop (2*(headerAt bs i).recordLength.toNat)=
      (bs.drop (i+7+2*(headerAt bs i).recordLength.toNat)).take
        (size-(7+2*(headerAt bs i).recordLength.toNat)) := by
    rw [List.drop_take,List.drop_drop,Nat.sub_sub]
  rw [drop_header (by omega),hseven]
  simp only [List.take_succ_cons]
  rw [recordsIn]
  change (headerAt bs i,wordsOf (((bs.drop (i+7)).take (size-7)).take
    (2*(headerAt bs i).recordLength.toNat)))::recordsIn (((bs.drop (i+7)).take (size-7)).drop
    (2*(headerAt bs i).recordLength.toNat))=_
  rw [hdata,hrest,←hseven]

/-- A word of a message under the cursor. -/
theorem get2_filled (s : Machine σ) {bs : List Byte} {i : ℕ} (h : i+1<260)
    (hlen : i+1<bs.length) : get2 (filled s bs i)=(.ok (wordAt bs i),filled s bs (i+2)) := by
  have hget := get2_atIdx (filled s bs 0) h
  have hfirst : (filled s bs 0).msg.buf[i]=byteAt bs i :=
    overlay_byteAt s.msg.buf (by omega) (by omega)
  have hsecond : (filled s bs 0).msg.buf[i+1]=byteAt bs (i+1) :=
    overlay_byteAt s.msg.buf h hlen
  rw [hfirst,hsecond] at hget
  exact hget

/-- The registers of a record and the exchange of its bytes, and its undoing. -/
theorem swapRecord_run {unaligned : Bool} (ha : unaligned=true) (s : Machine σ) {bs : List Byte}
    {i n : ℕ} (j : ℕ) (hlen : bs.length≤260) (h : i+2*n≤bs.length) :
    ∃ cs,(∀ app : σ,swapRegs unaligned i n (filled {s with app := app} bs j)=
        (.ok (wordsOf ((bs.drop i).take (2*n))),filled {s with app := app} cs j)) ∧
      ∀ app : σ,∃ regs,swapRegs unaligned i n (filled {s with app := app} cs j)=
        (.ok regs,filled {s with app := app} bs j) := by
  have hxs : (bs.take i).length=i := by
    rw [List.length_take,Nat.min_eq_left (by omega)]
  have hdata : ((bs.drop i).take (2*n)).length=2*n := by
    rw [List.length_take,List.length_drop,Nat.min_eq_left (by omega)]
  obtain ⟨hbytes,hpairs⟩ := pairBytes_pairsOf hdata
  have hsplit : bs.take i++pairBytes (pairsOf ((bs.drop i).take (2*n)))++
      (bs.drop i).drop (2*n)=bs := by
    rw [hbytes,List.append_assoc,List.take_append_drop,List.take_append_drop]
  generalize hps : pairsOf ((bs.drop i).take (2*n))=pairs at hpairs hsplit
  have hback : (pairs.map Prod.swap).map Prod.swap=pairs := by
    rw [List.map_map,Prod.swap_swap_eq,List.map_id]
  rw [swapRegs_accessible (.inr (.inl ha))]
  refine ⟨bs.take i++pairBytes (pairs.map Prod.swap)++(bs.drop i).drop (2*n),fun app => ?_,
    fun app => ⟨(pairs.map Prod.swap).map fun p => wordOf p.1 p.2,?_⟩⟩
  · have hswap := swapRegsFrom_pairs {atIdx s j with app := app} s.msg.buf (bs.take i) pairs
      ((bs.drop i).drop (2*n)) (by omega)
    rw [hsplit,hxs,hpairs,←hps,wordsOf_pairs,hps] at hswap
    exact hswap
  · have hswap := swapRegsFrom_pairs {atIdx s j with app := app} s.msg.buf (bs.take i)
      (pairs.map Prod.swap) ((bs.drop i).drop (2*n)) (by rw [List.length_map]; omega)
    rw [hback,hsplit,hxs,List.length_map,hpairs] at hswap
    exact hswap

/-- The records are handed over in their order; when a call fails the rest is
not, and when none fails the buffer is what it was. -/
theorem writeRecords_run
    {callback : Word → Word → List Word → Word → Byte → Callback σ NmbsError}
    {handler : Word → Word → List Word → Word → Byte → σ → NmbsError×σ}
    (hc : ∀ file record regs length u,Does (callback file record regs length u)
      (handler file record regs length u)) {unaligned : Bool} (ha : unaligned=true)
    {bs : List Byte} (hlen : bs.length≤260) (fuel : ℕ) {i size : ℕ} (s : Machine σ) (hw : bytesWalk bs i size=.accepted)
    (hend : i+size+2=bs.length) (hfuel : 260<fuel+i) :
    let r := writeAll handler s.msg.unitId (recordsIn ((bs.drop i).take size)) s.app
    ∃ t,writeRecords unaligned callback fuel size (filled s bs i)=(.ok r.1,t) ∧ Beside s r.2 t ∧
      (r.1=.errorNone → ∃ j,t=filled {s with app := r.2} bs j) := by
  induction fuel generalizing i size s with
  | zero => omega
  | succ fuel ih =>
    obtain ⟨hfit,hnext⟩ := bytesWalk_step hw hend (by omega)
    rw [recordsIn_step (by omega) hfit,writeAll]
    generalize hn : (headerAt bs i).recordLength.toNat=n at hfit hnext ⊢
    obtain ⟨cs,hswap,hback⟩ := swapRecord_run ha s (i:=i+7) (n:=n) (i+7+2*n) hlen (by omega)
    have hdiscard : discard1 (filled s bs i)=(.ok (),filled s bs (i+1)) := by
      have hrun : discard1 (filled s bs i)=(.ok (),filled s bs ((i+1)%65536)) := rfl
      rw [hrun,Nat.mod_eq_of_lt (by omega)]
    have hidx : bufIdx (filled s bs (i+7))=(.ok (i+7),filled s bs (i+7)) := rfl
    have hregs : getRegs unaligned n (filled s bs (i+7))=
        (.ok (wordsOf ((bs.drop (i+7)).take (2*n))),filled s cs (i+7+2*n)) := by
      have hrun : getRegs unaligned n (filled s bs (i+7))=
          swapRegs unaligned (i+7) n (filled s bs ((i+7+n*2)%65536)) := rfl
      rw [hrun,Nat.mod_eq_of_lt (by omega),Nat.mul_comm n]
      exact hswap s.app
    have hunit : unitId (filled s cs (i+7+2*n))=(.ok s.msg.unitId,filled s cs (i+7+2*n)) := rfl
    have hcall := call_does (hc (headerAt bs i).fileNumber (headerAt bs i).recordNumber
      (wordsOf ((bs.drop (i+7)).take (2*n))) (headerAt bs i).recordLength s.msg.unitId)
      (filled s cs (i+7+2*n))
    have happ : (filled s cs (i+7+2*n)).app=s.app := rfl
    rw [happ] at hcall
    generalize handler (headerAt bs i).fileNumber (headerAt bs i).recordNumber
      (wordsOf ((bs.drop (i+7)).take (2*n))) (headerAt bs i).recordLength s.msg.unitId s.app=done
      at hcall ⊢
    obtain ⟨regs,hundo⟩ := hback done.2
    have hlength : get2 (filled s bs (i+5))=
        (.ok (headerAt bs i).recordLength,filled s bs (i+7)) :=
      get2_filled s (by omega) (by omega)
    have hrun : writeRecords unaligned callback (fuel+1) size (filled s bs i)=
        (if done.1≠.errorNone then pure done.1
          else swapRegs unaligned (i+7) n>>=fun _ =>
            if 7 ≤ (size+65536-(7+n*2))%65536 then
              writeRecords unaligned callback fuel ((size+65536-(7+n*2))%65536) else pure .errorNone)
        (filled {s with app := done.2} cs (i+7+2*n)) := by
      rw [writeRecords,bind_ok hdiscard,bind_ok (get2_filled s (by omega) (by omega)),
        bind_ok (get2_filled s (by omega) (by omega)),bind_ok hlength,bind_ok hidx,hn,
        bind_ok hregs,bind_ok hunit]
      exact bind_ok hcall
    dsimp only
    by_cases hnone : done.1=.errorNone
    · rw [if_neg (not_not.mpr hnone)] at hrun ⊢
      rw [bind_ok hundo,Nat.mul_comm n] at hrun
      rcases hnext with hlast | ⟨hmore,hwalk⟩
      · have hzero : (size+65536-(7+2*n))%65536=0 := by omega
        have hempty : recordsIn ((bs.drop (i+7+2*n)).take (size-(7+2*n)))=[] := by
          rw [hlast,Nat.sub_self,List.take_zero]
          simp only [recordsIn]
        rw [hzero,if_neg (by omega)] at hrun
        rw [hempty]
        exact ⟨_,hrun,⟨_,_,rfl⟩,fun _ => ⟨_,rfl⟩⟩
      · have hrest : (size+65536-(7+2*n))%65536=size-(7+2*n) := by omega
        rw [hrest,if_pos hmore] at hrun
        obtain ⟨t,ht,⟨j,buf,hbeside⟩,hdone⟩ := ih {s with app := done.2} hwalk (by omega) (by omega)
        exact ⟨t,hrun.trans ht,⟨j,buf,hbeside⟩,hdone⟩
    · rw [if_pos hnone] at hrun ⊢
      exact ⟨_,hrun,⟨_,_,rfl⟩,fun h => absurd h hnone⟩

/-- The bytes before the cursor are transmitted, whatever stands behind it. -/
theorem sendMsg_filled (s : Machine σ) {bs : List Byte} {k : ℕ} (hk : k≤bs.length)
    (hfit : k+2≤260) :
    ∃ v,sendMsg (filled s bs k)=(.ok (),v) ∧ v.app=s.app ∧
      v.line=⟨s.line.rx,s.line.tx++[sealed (bs.take k)],false⟩ := by
  have hlen : (bs.take k).length=k := by
    rw [List.length_take,Nat.min_eq_left hk]
  have hfirst : (overlay s.msg.buf bs).toList.take k=bs.take k := by
    have htake := overlay_take s.msg.buf (bs.take k) (bs.drop k) (by omega)
    rw [List.take_append_drop,hlen] at htake
    exact htake
  have hsame : overlay (overlay s.msg.buf bs) (bs.take k)=overlay s.msg.buf bs := by
    have hextend := overlay_extend (overlay s.msg.buf bs) [] k
    rw [List.nil_append,List.length_nil,List.drop_zero,hfirst,overlay_nil] at hextend
    exact hextend
  have hstate : reading (filled s bs k) (bs.take k) [] s.line.rx s.line.led=filled s bs k := by
    have hbuf : (filled s bs k).msg.buf=overlay s.msg.buf bs := rfl
    rw [reading,List.append_nil,hbuf,hsame,hlen]
    rfl
  have hsent := sendMsg_reading (filled s bs k) (bs.take k) s.line.rx s.line.led (by omega)
  rw [hstate] at hsent
  exact hsent

/-- What a message covers is its header and what follows it. -/
theorem take_covered {frame : List Byte} {u fc : Byte} (hheader : frame.take 2=[u,fc]) (n : ℕ) :
    frame.take (3+n)=[u,fc]++(frame.drop 2).take (n+1) := by
  have hsum : 3+n=2+(n+1) := by omega
  rw [hsum,List.take_add,hheader]

/-- The reply to a write of file records: the request itself. -/
def serveWriteRecords (h : RecordHandlers σ) (u : Byte) (frame : List Byte) (app : σ) : Reply×σ :=
  if (byteAt frame 2).toNat<0x07 ∨ (byteAt frame 2).toNat>0xFB then
    (.exception .exceptionIllegalDataValue,app)
  else match bytesWalk frame 3 (byteAt frame 2).toNat with
    | .refused e => (.exception e,app)
    | _ => match h.write with
      | some write => replyDone ((frame.drop 2).take ((byteAt frame 2).toNat+1))
          (writeAll write u (recordsIn ((frame.drop 3).take (byteAt frame 2).toNat)) app)
      | none => (.exception .exceptionIllegalFunction,app)

/-- Whether a write of file records passes the check of its size. -/
def WriteChecked (size : Byte) : Prop := 7 ≤ size.toNat ∧ size.toNat≤0xFB

/-- A write of file records whose headers lie in it is served. -/
theorem serves_writeRecords (hi : ImplementsRecords nmbs h) {s : Machine σ}
    {frame : List Byte} (hled : s.line.led=false) (hlen : frame.length≤260)
    (hend : 3+(byteAt frame 2).toNat+2=frame.length)
    (hheader : frame.take 2=[s.msg.unitId,s.msg.fc])
    (hleave : WriteChecked (byteAt frame 2) → bytesWalk frame 3 (byteAt frame 2).toNat≠.leaves)
    (ha : WriteChecked (byteAt frame 2) → bytesWalk frame 3 (byteAt frame 2).toNat=.accepted →
      nmbs.unaligned=true) (i : ℕ) :
    ∃ t,answerWriteFileRecord nmbs (byteAt frame 2) 3 (filled s frame i)=(.ok (),t) ∧
      t.app=(serveWriteRecords h s.msg.unitId frame s.app).2 ∧
      t.line=⟨s.line.rx,s.line.tx++(serveWriteRecords h s.msg.unitId frame s.app).1.messages
        s.msg.unitId s.msg.fc s.msg.broadcast,false⟩ := by
  have hwrite := hi.write
  have hstart : ∀ j,setBufIdx 3 (filled s frame j)=(.ok (),filled s frame 3) := fun _ => rfl
  rw [answerWriteFileRecord,serveWriteRecords,bind_ok (hstart i)]
  by_cases hsize : (byteAt frame 2).toNat<0x07 ∨ (byteAt frame 2).toNat>0xFB
  · rw [if_pos hsize,if_pos hsize]
    exact serves_exception .exceptionIllegalDataValue (filled s frame 3)
  rw [if_neg hsize,if_neg hsize]
  have hchecked : WriteChecked (byteAt frame 2) := ⟨by omega,by omega⟩
  have hleave := hleave hchecked
  have hwalk := checkRecords_walk (filled s frame 0) (byteAt frame 2).toNat
    (by omega : 260<261+3) (by omega : 3≤600)
  have hbytes : recordsWalk (filled s frame 0).msg.buf 3 (byteAt frame 2).toNat=
      bytesWalk frame 3 (byteAt frame 2).toNat := recordsWalk_bytes s.msg.buf hlen hleave
  rw [hbytes] at hwalk
  cases hw : bytesWalk frame 3 (byteAt frame 2).toNat with
  | leaves => exact absurd hw hleave
  | refused e =>
    rw [hw] at hwalk
    obtain ⟨j,hj⟩ := hwalk
    rw [bind_ok (show checkRecords 261 (byteAt frame 2).toNat (filled s frame 3)=_ from hj)]
    exact serves_exception e (filled s frame j)
  | accepted =>
    rw [hw] at hwalk hbytes
    obtain ⟨j,hj⟩ := hwalk
    rw [bind_ok (show checkRecords 261 (byteAt frame 2).toNat (filled s frame 3)=_ from hj)]
    dsimp only
    rw [bind_ok (show setBufIdx 3 (atIdx (filled s frame 0) j)=_ from hstart j)]
    generalize nmbs.callbacks.writeFileRecord=callback at hwrite ⊢
    generalize h.write=handler at hwrite ⊢
    cases hwrite with
    | none =>
      obtain ⟨k,buf,hskip⟩ := skipRecord_run nmbs.unaligned (filled s frame 0) (by omega)
        (accepted_length (recordsWalk_first hbytes)) (sendExceptionMsg .exceptionIllegalFunction)
      obtain ⟨t,ht,happ,hline⟩ := serves_atIdx .exceptionIllegalFunction (filled s frame 0) k buf
      exact ⟨t,Eq.trans hskip ht,happ,hline⟩
    | @some callback handler hc =>
      obtain ⟨t,ht,hbeside,hdone⟩ := writeRecords_run hc (ha hchecked hw) hlen 261 s hw hend (by omega)
      dsimp only
      generalize writeAll handler s.msg.unitId (recordsIn ((frame.drop 3).take
        (byteAt frame 2).toNat)) s.app=got at ht hbeside hdone ⊢
      rw [bind_ok ht,replyDone]
      by_cases hnone : got.1=.errorNone
      · rw [if_neg (not_not.mpr hnone),if_pos hnone]
        obtain ⟨k,rfl⟩ := hdone hnone
        have hback : setBufIdx 3 (filled {s with app := got.2} frame k)=
            (.ok (),filled {s with app := got.2} frame 3) := rfl
        have hskip : discardN (byteAt frame 2).toNat (filled {s with app := got.2} frame 3)=
            (.ok (),filled {s with app := got.2} frame (3+(byteAt frame 2).toNat)) := by
          have hrun : discardN (byteAt frame 2).toNat (filled {s with app := got.2} frame 3)=
              (.ok (),filled {s with app := got.2} frame ((3+(byteAt frame 2).toNat)%65536)) := rfl
          rw [hrun,Nat.mod_eq_of_lt (by omega)]
        have hecho : ∃ v,(setBufIdx 3>>=fun _ => discardN (byteAt frame 2).toNat>>=fun _ => sendMsg)
            (filled {s with app := got.2} frame k)=(.ok (),v) ∧ v.app=got.2 ∧
            v.line=⟨s.line.rx,s.line.tx++[sealed (frame.take (3+(byteAt frame 2).toNat))],
              false⟩ := by
          rw [bind_ok hback,bind_ok hskip]
          exact sendMsg_filled {s with app := got.2} (by omega) (by omega)
        exact serves_sent hled hecho (take_covered hheader _) rfl rfl rfl rfl
      · rw [if_pos hnone,if_neg hnone]
        exact serves_beside got.1 hbeside

/-! ### One poll -/

/-- What a server does for a request for file records. -/
def serveRecords (h : RecordHandlers σ) (u fc : Byte) (frame : List Byte) (app : σ) : Reply×σ :=
  if fc.toNat=20 then serveReadRecords h u (byteAt frame 2) (recordsOf frame) app
  else serveWriteRecords h u frame app

/-- A received request for file records stays in the buffer whole. -/
theorem kept_records (bs : List Byte) :
    recordsLayout.kept bs=bs.take (recordsLayout.span bs) :=
  (List.take_add (l:=bs)).symm

/-- The library with a request for file records received. -/
theorem accepted_records (s : Machine σ) (u fc : Byte) :
    accepted s u fc recordsLayout=filled {tagged s u fc (decide (u=0#8)) false with
      line := ⟨s.line.rx.drop (recordsLayout.span (arrivals s.line.rx)),s.line.tx,false⟩}
      (frameIn s recordsLayout) (frameIn s recordsLayout).length := by
  rw [accepted,kept_records]
  exact reading_filled {tagged s u fc (decide (u=0#8)) false with
    line := ⟨s.line.rx.drop (recordsLayout.span (arrivals s.line.rx)),s.line.tx,false⟩} _

/-- A received request for file records is what it covers under its checksum. -/
theorem received_sealed {bs : List Byte} (hr : recordsLayout.receive bs=.frame) :
    sealed (bs.take (3+(byteAt bs 2).toNat))=bs.take (recordsLayout.span bs) := by
  have hchecked : (bs.drop (3+(byteAt bs 2).toNat)).take 2=
      crcBytes (bs.take (3+(byteAt bs 2).toNat)) :=
    ((recordsLayout.receive_frame_iff bs).mp hr).2.2.2
  rw [sealed,←hchecked]
  exact (List.take_add (l:=bs)).symm

/-- The reply to a write that is carried out is what the request covers. -/
theorem written_body {u : Byte} {frame : List Byte} {app : σ} {body : List Byte}
    (hbody : (serveWriteRecords h u frame app).1=.content body) :
    body=(frame.drop 2).take ((byteAt frame 2).toNat+1) := by
  rw [serveWriteRecords] at hbody
  split at hbody
  · cases hbody
  · split at hbody
    · cases hbody
    · split at hbody
      · rw [replyDone] at hbody
        split at hbody
        · exact (Reply.content.inj hbody).symm
        · cases hbody
      · cases hbody

/-- A poll over a request for file records, for every server and application:
the records are read or written in their order until a call fails, a read is
answered with them and a write with itself, and exactly the request is taken
from the line. Of the requests that pass the checks a read must fit the response
and a write must have its headers inside it, and the processor must take
registers at odd addresses, except for a read without registers. -/
theorem poll_records (hi : ImplementsRecords nmbs h) (s : Machine σ) {u fc : Byte}
    {as : List Byte} (hbs : arrivals s.line.rx=u::fc::as) (hfc : fc.toNat=20 ∨ fc.toNat=21)
    (hu : Addressed nmbs u) (hr : recordsLayout.receive (arrivals s.line.rx)=.frame)
    (hfit : fc.toNat=20 → ReadChecked (byteAt (frameIn s recordsLayout) 2)
      (recordsOf (frameIn s recordsLayout)) →
        Readable nmbs.unaligned (recordsOf (frameIn s recordsLayout)) ∧
        recordsSize (recordsOf (frameIn s recordsLayout))≤255)
    (hleave : fc.toNat=21 → WriteChecked (byteAt (frameIn s recordsLayout) 2) →
      bytesWalk (frameIn s recordsLayout) 3 (byteAt (frameIn s recordsLayout) 2).toNat≠.leaves)
    (ha : fc.toNat=21 → WriteChecked (byteAt (frameIn s recordsLayout) 2) →
      bytesWalk (frameIn s recordsLayout) 3 (byteAt (frameIn s recordsLayout) 2).toNat=.accepted →
      nmbs.unaligned=true) :
    ∃ t,nmbsServerPoll nmbs s=(.ok (),t) ∧
      t.app=(serveRecords h u fc (frameIn s recordsLayout) s.app).2 ∧
      t.line=⟨s.line.rx.drop (frameIn s recordsLayout).length,s.line.tx++
        (serveRecords h u fc (frameIn s recordsLayout) s.app).1.messages u fc
          (decide (u=0#8)),false⟩ ∧
      (fc.toNat=21 → ∀ body,(serveRecords h u fc (frameIn s recordsLayout) s.app).1=
        .content body → sealed ([u,fc]++body)=frameIn s recordsLayout) := by
  have hspan := recordsLayout.receive_whole (.inr hr)
  have hframe : (frameIn s recordsLayout).length=recordsLayout.span (arrivals s.line.rx) := by
    rw [frameIn,List.length_take,Nat.min_eq_left hspan]
  have hhead : 2<recordsLayout.span (arrivals s.line.rx) := by
    have hthree : recordsLayout.head=3 := rfl
    rw [Layout.span]
    omega
  have hbyte : byteAt (frameIn s recordsLayout) 2=byteAt (arrivals s.line.rx) 2 := by
    have hsplit : frameIn s recordsLayout++(arrivals s.line.rx).drop
        (recordsLayout.span (arrivals s.line.rx))=arrivals s.line.rx := List.take_append_drop _ _
    rw [←hsplit]
    exact (byteAt_append _ (by omega)).symm
  have hsize : 3+(byteAt (frameIn s recordsLayout) 2).toNat+2=(frameIn s recordsLayout).length := by
    rw [hframe,hbyte]
    rfl
  have hheader : (frameIn s recordsLayout).take 2=[u,fc] := by
    rw [frameIn,List.take_take,Nat.min_eq_left (by omega),hbs]
    rfl
  have hlt := (byteAt (frameIn s recordsLayout) 2).isLt
  have hl : requestLayout fc=some recordsLayout := records_layout hfc
  rw [hframe,serveRecords]
  rcases hfc with h20 | h21
  · rw [if_pos h20]
    obtain ⟨t,ht,happ,hline⟩ := serves_readRecords hi (byteAt (frameIn s recordsLayout) 2)
      (recordsOf (frameIn s recordsLayout)) (s:=accepted s u fc recordsLayout) rfl (hfit h20)
    refine ⟨t,poll_answer nmbs s hbs hl hu hr ?_,happ,hline,fun h21 => by omega⟩
    rw [answerRequest,h20]
    exact ht
  · rw [if_neg (by omega)]
    obtain ⟨t,ht,happ,hline⟩ := serves_writeRecords hi
      (s:={tagged s u fc (decide (u=0#8)) false with
        line := ⟨s.line.rx.drop (recordsLayout.span (arrivals s.line.rx)),s.line.tx,false⟩})
      rfl (by omega) hsize hheader (hleave h21) (ha h21) (frameIn s recordsLayout).length
    refine ⟨t,poll_answer nmbs s hbs hl hu hr ?_,happ,hline,fun _ body hbody => ?_⟩
    · rw [answerRequest,h21,accepted_records]
      exact ht
    · have hcovered : (frameIn s recordsLayout).take (3+(byteAt (frameIn s recordsLayout) 2).toNat)=
          (arrivals s.line.rx).take (3+(byteAt (arrivals s.line.rx) 2).toNat) := by
        rw [hbyte,frameIn,List.take_take]
        rw [hbyte] at hsize
        rw [Nat.min_eq_left (by omega)]
      rw [written_body hbody,←take_covered hheader,hcovered]
      exact received_sealed hr

/-! ### Responses that do not fit -/

/-- A message without room for its checksum is not sent. -/
theorem sendMsg_over (s : Machine σ) {bs : List Byte} (hlen : bs.length≤260)
    (hover : 258 < bs.length) : ∃ x t,sendMsg (filled s bs bs.length)=(.fault x,t) := by
  have hidx : bufIdx (filled s bs bs.length)=(.ok bs.length,filled s bs bs.length) := rfl
  have hread : readBufUpTo bs.length (filled s bs bs.length)=
      (.ok ((filled s bs bs.length).msg.buf.toList.take bs.length),filled s bs bs.length) :=
    if_pos hlen
  rw [sendMsg,bind_ok hidx,bind_ok hread]
  generalize nmbsCrcCalc ((filled s bs bs.length).msg.buf.toList.take bs.length)=crc
  have hpast : ∀ i b (v : Machine σ),260 ≤ i → writeBuf i b v=(.fault (.msgBuf i),v) :=
    fun i b v hi => dif_neg (Nat.not_lt.mpr hi)
  unfold put2
  rw [bind_assoc]
  rw [bind_ok hidx]
  by_cases hfull : bs.length<260
  · have hfirst : ∀ b,writeBuf bs.length b (filled s bs bs.length)=
        (.ok (),{filled s bs bs.length with
          msg.buf := (filled s bs bs.length).msg.buf.set bs.length b}) := fun b => dif_pos hfull
    rw [bind_assoc,bind_ok (hfirst _),bind_assoc]
    exact ⟨_,_,bind_fault (hpast _ _ _ (by omega))⟩
  · rw [bind_assoc]
    exact ⟨_,_,bind_fault (hpast _ _ _ (by omega))⟩

/-- Records that do not fit the response leave the buffer, and those that cannot
be accessed in it are misaligned. -/
theorem answerRead_over
    {callback : Word → Word → Word → Byte → Callback σ (NmbsError×List Word)}
    {handler : Word → Word → Word → Byte → σ → (NmbsError×List Word)×σ}
    (hcallback : nmbs.callbacks.readFileRecord=some callback)
    (hc : ∀ file record length u,Does (callback file record length u)
      (handler file record length u) ∧ ∀ app,Stores length (handler file record length u app).1)
    {size : Byte} {subreqs : List Subreq} (hchecked : ReadChecked size subreqs) (s : Machine σ)
    (hsingle : s.msg.broadcast=false)
    (hover : 255 < recordsSize subreqs ∨ ¬Readable nmbs.unaligned subreqs)
    (hread : (readAll handler s.msg.unitId subreqs s.app).1.1=.errorNone) :
    ∃ x t,answerReadFileRecord nmbs size subreqs s=(.fault x,t) := by
  rw [answerRead_checked hcallback hchecked]
  have hthree : [s.msg.unitId,s.msg.fc,responseDataSize subreqs].length=3 := rfl
  by_cases hbad : 260 < 3+recordsSize subreqs ∨ ¬Readable nmbs.unaligned subreqs
  · obtain ⟨x,t,ht⟩ := putRecords_over hc subreqs s
      [s.msg.unitId,s.msg.fc,responseDataSize subreqs] (by rw [hthree]) (by omega) hbad hread
    exact ⟨x,t,bind_fault ht⟩
  · -- the records fit, their checksum does not
    obtain ⟨hfit,ha⟩ := not_or.mp hbad
    have hlong := hover.resolve_right ha
    obtain ⟨t,ht,_,hdone⟩ := putRecords_run hc subreqs s
      [s.msg.unitId,s.msg.fc,responseDataSize subreqs] (not_not.mp ha) (by omega)
    have hlen := readAll_length (fun file record length u => (hc file record length u).2)
      s.msg.unitId subreqs s.app hread
    have ht' := hdone hread
    rw [hthree,hread] at ht
    have hall : broadcast t=(.ok false,t) := by
      rw [ht',←hsingle]
      rfl
    have hsend : ∃ x v,sendMsg t=(.fault x,v) := by
      rw [ht']
      exact sendMsg_over _ (by rw [List.length_append,hlen,hthree]; omega)
        (by rw [List.length_append,hlen,hthree]; omega)
    obtain ⟨x,v,hv⟩ := hsend
    exact ⟨x,v,(bind_ok ht).trans ((bind_ok hall).trans hv)⟩

/-- A poll over a request for file records that passes the checks of the
library, goes to this server alone and whose calls all succeed stays inside
the buffer and is defined exactly when the records to be returned take at most
255 bytes and either the processor takes registers at odd addresses or there
are no registers to be returned. -/
theorem poll_read_inside_iff (hi : ImplementsRecords nmbs h)
    {handler : Word → Word → Word → Byte → σ → (NmbsError×List Word)×σ}
    (hhandler : h.read=some handler) (s : Machine σ) {u fc : Byte} {as : List Byte}
    (hbs : arrivals s.line.rx=u::fc::as) (hfc : fc.toNat=20) (hu : u=nmbs.addressRtu)
    (hu0 : u≠0#8) (hr : recordsLayout.receive (arrivals s.line.rx)=.frame)
    (hchecked : ReadChecked (byteAt (frameIn s recordsLayout) 2)
      (recordsOf (frameIn s recordsLayout)))
    (hread : (readAll handler u (recordsOf (frameIn s recordsLayout)) s.app).1.1=.errorNone) :
    (∃ t,nmbsServerPoll nmbs s=(.ok (),t)) ↔
      recordsSize (recordsOf (frameIn s recordsLayout))≤255 ∧
      (nmbs.unaligned=true ∨
        ∀ r∈recordsOf (frameIn s recordsLayout),r.recordLength.toNat=0) := by
  have hoffered := hi.read
  rw [hhandler] at hoffered
  cases hcallback : nmbs.callbacks.readFileRecord with
  | none =>
    rw [hcallback] at hoffered
    cases hoffered
  | some callback =>
    rw [hcallback] at hoffered
    obtain ⟨hc⟩ := hoffered
    constructor
    · rintro ⟨t,ht⟩
      by_contra hover
      obtain ⟨x,v,hv⟩ := answerRead_over hcallback hc hchecked (accepted s u fc recordsLayout)
        (decide_eq_false hu0) ((not_and_or.mp hover).imp_left Nat.lt_of_not_le) hread
      have hl : requestLayout fc=some recordsLayout := records_layout (.inl hfc)
      have hanswer : answerRequest nmbs fc (frameIn s recordsLayout)
          (accepted s u fc recordsLayout)=(.fault x,v) := by
        rw [answerRequest,hfc]
        exact hv
      cases (poll_answer_fault nmbs s hbs hl (.inr hu) hr hanswer).symm.trans ht
    · rintro ⟨hfit,ha⟩
      obtain ⟨t,ht,_⟩ := poll_records hi s hbs (.inl hfc) (.inr hu) hr (fun _ _ => ⟨ha,hfit⟩)
        (fun h21 => by omega) (fun h21 => by omega)
      exact ⟨t,ht⟩

/-- A server with one record, which is what was written last, on a processor
that takes registers anywhere or not. -/
def recordServer (unaligned : Bool) : NmbsServer (List Word) :=
  ⟨1#8,{
    readFileRecord := some fun _ _ length _ regs =>
      (.ok (.errorNone,(regs++List.replicate length.toNat 0#16).take length.toNat),regs)
    writeFileRecord := some fun _ _ regs _ _ _ => (.ok .errorNone,regs)},unaligned⟩

/-- What it offers. -/
def recordHandlers : RecordHandlers (List Word) where
  read := some fun _ _ length _ regs =>
    ((.errorNone,(regs++List.replicate length.toNat 0#16).take length.toNat),regs)
  write := some fun _ _ regs _ _ _ => (.errorNone,regs)

/-- It does what it offers. -/
theorem implements_record (unaligned : Bool) :
    ImplementsRecords (recordServer unaligned) recordHandlers where
  read := .some fun _ _ length _ => ⟨fun _ => rfl,fun regs => by
    have hlen : ((regs++List.replicate length.toNat 0#16).take length.toNat).length=
        length.toNat := by
      rw [List.length_take,List.length_append,List.length_replicate]
      omega
    exact ⟨hlen.le,fun _ => hlen⟩⟩
  write := .some fun _ _ _ _ _ _ => rfl

/-- A request for a record of two registers. -/
def readRecord : List Byte := [1#8,20#8,7#8,6#8,0#8,4#8,0#8,1#8,0#8,2#8]

/-- The server over which the request is on the line. -/
def readRecordLine : Machine (List Word) :=
  ⟨⟨Vector.replicate 260 0#8,0,0#8,0#8,false,false⟩,⟨(sealed readRecord).map some,[],false⟩,
    [7#16]⟩

/-- The request is received. -/
theorem readRecord_received :
    arrivals readRecordLine.line.rx=sealed readRecord ∧
    recordsLayout.receive (arrivals readRecordLine.line.rx)=.frame ∧
    frameIn readRecordLine recordsLayout=sealed readRecord := by
  have harr : arrivals readRecordLine.line.rx=sealed readRecord := arrivals_bytes _
  have hl : requestLayout 20#8=some recordsLayout := rfl
  have hf : Filled recordsLayout readRecord := rfl
  have hreceive := (receive_sealed hl hf []).mpr ⟨rfl,rfl⟩
  have hspan := span_sealed hl hf []
  rw [List.append_nil] at hreceive hspan
  rw [frameIn,harr,hspan,List.take_length]
  exact ⟨rfl,hreceive,rfl⟩

/-- The request is answered with the record. -/
theorem poll_records_read :
    ∃ t,nmbsServerPoll (recordServer true) readRecordLine=(.ok (),t) ∧
      t.app=(serveRecords recordHandlers 1#8 20#8 (frameIn readRecordLine recordsLayout)
        readRecordLine.app).2 ∧
      t.line=⟨readRecordLine.line.rx.drop (frameIn readRecordLine recordsLayout).length,
        readRecordLine.line.tx++(serveRecords recordHandlers 1#8 20#8
          (frameIn readRecordLine recordsLayout) readRecordLine.app).1.messages 1#8 20#8
          (decide (1#8=0#8)),false⟩ ∧
      ((20#8).toNat=21 → ∀ body,(serveRecords recordHandlers 1#8 20#8
        (frameIn readRecordLine recordsLayout) readRecordLine.app).1=.content body →
          sealed ([1#8,20#8]++body)=frameIn readRecordLine recordsLayout) := by
  obtain ⟨harr,hreceive,hframe⟩ := readRecord_received
  refine poll_records (implements_record true) readRecordLine harr (.inl rfl) (.inr rfl) hreceive
    (fun _ _ => ⟨.inl rfl,?_⟩) (fun h21 => by cases h21) (fun h21 => by cases h21)
  rw [hframe]
  decide

/-- The response to the request fits, but its registers are at odd places. -/
theorem poll_read_inside_iff_read :
    (∃ t,nmbsServerPoll (recordServer true) readRecordLine=(.ok (),t)) ∧
      ¬∃ t,nmbsServerPoll (recordServer false) readRecordLine=(.ok (),t) := by
  obtain ⟨harr,hreceive,hframe⟩ := readRecord_received
  have hchecked : ReadChecked (byteAt (frameIn readRecordLine recordsLayout) 2)
      (recordsOf (frameIn readRecordLine recordsLayout)) := by
    rw [hframe]
    exact ⟨by decide,by decide,by decide,by decide⟩
  have hread : ∀ read,recordHandlers.read=some read → (readAll read 1#8
      (recordsOf (frameIn readRecordLine recordsLayout)) readRecordLine.app).1.1=.errorNone := by
    rw [hframe]
    rintro _ ⟨⟩
    decide
  constructor
  · refine (poll_read_inside_iff (implements_record true) rfl readRecordLine harr rfl rfl
      (by decide) hreceive hchecked (hread _ rfl)).mpr ⟨?_,.inl rfl⟩
    rw [hframe]
    decide
  · intro hpoll
    have hempty := ((poll_read_inside_iff (implements_record false) rfl readRecordLine harr rfl rfl
      (by decide) hreceive hchecked (hread _ rfl)).mp hpoll).2
    rw [hframe] at hempty
    revert hempty
    decide

end CyclotronPico.FileRecords
