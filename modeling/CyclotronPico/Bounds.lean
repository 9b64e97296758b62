import CyclotronPico.Handling

/-!
# Staying inside the arrays

The bytes of a request say how many more are to be received and where they
are to be looked for, and most of these numbers are used before they are
checked. A poll leaves its arrays in three ways: with a byte count that is
too large, with written file records that lead past the end of the buffer,
and with a response of another unit to a request for file records. Which of
them happens is a matter of the bytes that arrive and of what the buffer
still holds.
-/

namespace CyclotronPico.Bounds

open BitBuffer Effects PicoController Nanomodbus NanomodbusServer Frames Reception Requests
  Answers ServerAnswers Responses Polls SupplyInterface ModbusServer Handling

variable {τ : Type} (overshift : Overshift) (ps : PowerSupplyInterface τ)

/-- The bytes that arrive lead a poll, whose buffer holds old bytes, out of
an array. -/
inductive LeavesArrays (buf : Vector Byte 260) (bs : List Byte) : Prop where
  /-- The byte count of a request is too large, and enough bytes come. -/
  | count {u fc : Byte} {as : List Byte} {lay : Layout} {m : ℕ} (hbs : bs=u::fc::as)
      (hl : requestLayout fc=some lay) (hhead : lay.head≤bs.length)
      (hover : lay.overrunAt (lay.count bs)=some m) (hcome : m≤bs.length) : LeavesArrays buf bs
  /-- The headers of the file records written by a request for this server
  lead past the buffer. -/
  | records {u fc : Byte} {as : List Byte} (hbs : bs=u::fc::as) (hfc : fc.toNat=21)
      (hu : ¬Foreign u) (hr : recordsLayout.receive bs=.frame)
      (hleave : RecordsLeave (overlay buf (recordsLayout.kept bs)) (byteAt bs 2)) :
      LeavesArrays buf bs
  /-- The checksum of the response of another unit is looked for past the buffer. -/
  | response {u fc : Byte} {as : List Byte} (hbs : bs=u::fc::as)
      (hfc : fc.toNat=20 ∨ fc.toNat=21) (hu : Foreign u) (hr : recordsLayout.receive bs=.frame)
      (hleave : ResponseLeaves u fc (overlay buf (recordsLayout.kept bs))
        (bs.drop (recordsLayout.span bs))) : LeavesArrays buf bs

/-- Whether the response of another unit leads out of the buffer. -/
theorem leaves_gotten {s : Machine (App τ)} {u fc : Byte}
    (hr : recordsLayout.receive (arrivals s.line.rx)=.frame) :
    Leaves (gotten s u fc recordsLayout) ↔ (fc.toNat=20 ∨ fc.toNat=21) ∧
      ResponseLeaves u fc (overlay s.msg.buf (recordsLayout.kept (arrivals s.line.rx)))
        ((arrivals s.line.rx).drop (recordsLayout.span (arrivals s.line.rx))) := by
  have hlen := ((recordsLayout.receive_frame_iff _).mp hr).2.2.1
  rw [←gotten_buf s u fc,←arrivals_drop _ hlen]
  rfl

/-- A poll leaves its arrays exactly when the bytes and the buffer lead it to. -/
theorem exit_fault_iff {s : Machine (App τ)} {r : Outcome NmbsError Fault Unit×Machine (App τ)}
    (he : Exit overshift ps s r) :
    (∃ x,r.1=.fault x) ↔ LeavesArrays s.msg.buf (arrivals s.line.rx) := by
  constructor
  · rintro ⟨x,hx⟩
    cases he with
    | short e t h hs => cases hx
    | unknown t hbs hl happ hline => cases hx
    | request ho h =>
      obtain ⟨⟨as,has⟩,hl⟩ := ho
      cases h with
      | starved e t hr hs => cases hx
      | overrun y t hr hk =>
        obtain ⟨hhead,m,hover,hcome⟩ := (Layout.receive_overrun_iff _ _).mp hr
        exact .count has hl hhead hover hcome
      | badCrc t hu hr happ hline => cases hx
      | flushed t hu hr happ hline => cases hx
      | leaves y t hu hr hleaves hk =>
        have hrec := hl.symm.trans (records_layout hleaves.1)
        obtain rfl := Option.some.inj hrec
        obtain ⟨hfc,hleave⟩ := (leaves_gotten hr).mp hleaves
        exact .response has hfc hu hr hleave
      | dropped o t hu hr hleaves hnone happ hline => exact absurd hx (hnone x)
      | answered r hu hr ha =>
        cases ha with
        | left y t hfc hleave hk =>
          have hrec := hl.symm.trans (records_layout (.inr hfc))
          obtain rfl := Option.some.inj hrec
          exact .records has hfc hu hr ((recordsLeave_gotten hl hfc).mp hleave)
        | refused e t hread hw hleave hexc hsent => cases hx
        | read t hread happ hline => cases hx
        | declined t hw hcode happ hline => cases hx
        | written t hw hcode happ hline => cases hx
  · intro h
    cases h with
    | count hbs hl hhead hover hcome =>
      have hr := (Layout.receive_overrun_iff _ _).mpr ⟨hhead,_,hover,hcome⟩
      cases exit_opens overshift ps he ⟨⟨_,hbs⟩,hl⟩ with
      | starved e t hr' hs => cases hr.symm.trans hr'
      | overrun y t hr' hk => exact ⟨y,rfl⟩
      | badCrc t hu hr' happ hline => cases hr.symm.trans hr'
      | flushed t hu hr' happ hline => cases hr.symm.trans hr'
      | leaves y t hu hr' hleaves hk => cases hr.symm.trans hr'
      | dropped o t hu hr' hleaves hnone happ hline => cases hr.symm.trans hr'
      | answered r hu hr' ha => cases hr.symm.trans hr'
    | records hbs hfc hu hr hleave =>
      have hl := records_layout (.inr hfc)
      have hexit := exit_opens overshift ps he ⟨⟨_,hbs⟩,hl⟩
      cases exit_answered overshift ps hexit hu hr with
      | left y t hfc' hleave' hk => exact ⟨y,rfl⟩
      | refused e t hread hw hleave' hexc hsent =>
        exact absurd ((recordsLeave_gotten hl hfc).mpr hleave) (hleave' hfc)
      | read t hread happ hline => have h4 := hread.1; omega
      | declined t hw hcode happ hline => have h15 := hw.1; omega
      | written t hw hcode happ hline => have h15 := hw.1; omega
    | response hbs hfc hu hr hleave =>
      have hleaves := (leaves_gotten hr).mpr ⟨hfc,hleave⟩
      cases exit_opens overshift ps he ⟨⟨_,hbs⟩,records_layout hfc⟩ with
      | starved e t hr' hs => cases hr.symm.trans hr'
      | overrun y t hr' hk => exact ⟨y,rfl⟩
      | badCrc t hu' hr' happ hline => exact absurd hu hu'
      | flushed t hu' hr' happ hline => cases hr.symm.trans hr'
      | leaves y t hu' hr' hleaves' hk => exact ⟨y,rfl⟩
      | dropped o t hu' hr' hleaves' hnone happ hline => exact absurd hleaves hleaves'
      | answered r hu' hr' ha => exact absurd hu hu'

/-- A round leaves the arrays when its poll does. -/
theorem wait_fault_iff (m : Machine (App τ)) :
    (waitAndHandleRequest overshift ps ⟨m,none⟩).fault≠none ↔
      LeavesArrays m.msg.buf (arrivals m.line.rx) := by
  have hexit := exit_fault_iff overshift ps (poll_exit overshift ps m)
  rcases hp : nmbsServerPoll (nmbsServer overshift ps) m with ⟨o,t⟩
  rw [←hexit,hp]
  rcases o with _ | e | x
  · rw [wait_ok overshift ps (s:=⟨m,none⟩) rfl hp]
    exact iff_of_false (fun h => h rfl) (fun ⟨x,hx⟩ => nomatch hx)
  · rw [wait_err overshift ps (s:=⟨m,none⟩) rfl hp]
    exact iff_of_false (fun h => h rfl) (fun ⟨x,hx⟩ => nomatch hx)
  · rw [wait_fault overshift ps (s:=⟨m,none⟩) rfl hp]
    exact iff_of_true (fun h => nomatch h) ⟨x,rfl⟩

/-- The main loop stays inside its arrays as long as no round is led out of
one, and no longer. -/
theorem stays_inside_iff (m : Machine (App τ)) (n : ℕ) :
    (mainLoop overshift ps n ⟨m,none⟩).fault=none ↔
      ∀ k<n,¬LeavesArrays (mainLoop overshift ps k ⟨m,none⟩).machine.msg.buf
        (arrivals (mainLoop overshift ps k ⟨m,none⟩).machine.line.rx) := by
  induction n with
  | zero => exact iff_of_true rfl (fun k hk => absurd hk (Nat.not_lt_zero k))
  | succ n ih =>
    rw [mainLoop_succ]
    rcases hn : mainLoop overshift ps n ⟨m,none⟩ with ⟨t,f⟩
    rw [hn] at ih
    cases f with
    | some x =>
      rw [wait_stopped overshift ps rfl]
      refine iff_of_false (fun h => nomatch h) (fun h => ?_)
      have hbefore := ih.mpr (fun k hk => h k (by omega))
      cases hbefore
    | none =>
      have hstep := wait_fault_iff overshift ps t
      constructor
      · intro hinside k hk
        by_cases he : k=n
        · rw [he,hn]
          exact fun hleaves => hstep.mpr hleaves hinside
        · exact ih.mp rfl k (by omega)
      · intro hinside
        by_contra hleft
        have hlast := hinside n (by omega)
        rw [hn] at hlast
        exact hlast (hstep.mp hleft)

/-- A write of coils that announces 255 coil bytes, and the first 254 of them. -/
def longWrite : List Byte := [1#8,15#8,0#8,0#8,0#8,1#8,255#8]++List.replicate 254 0#8

/-- On that write a server that has just been built leaves its buffer. -/
theorem longWrite_leaves :
    (mainLoop (fun _ _ => 0#32) SubstituteSupply.powerSupply 1
      ⟨fresh (longWrite.map some),none⟩).fault≠none := by
  have hlen : longWrite.length=261 := by
    rw [longWrite,List.length_append,List.length_replicate]
    rfl
  rw [mainLoop_succ,mainLoop,Function.iterate_zero,id,wait_fault_iff,fresh_rx,arrivals_bytes]
  have hl : requestLayout 15#8=some coilsLayout := rfl
  have hhead : coilsLayout.head≤longWrite.length := by
    rw [hlen]
    decide
  have hover : coilsLayout.overrunAt (coilsLayout.count longWrite)=some 261 := rfl
  exact .count rfl hl hhead hover hlen.ge

end CyclotronPico.Bounds
