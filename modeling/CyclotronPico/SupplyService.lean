import CyclotronPico.ReadRegisters
import CyclotronPico.Sessions

/-!
# What the server of a supply does for a request

Three kinds of requests: a read of the registers, a write of a parameter, and
all the others, which are refused with an exception that depends on the
request alone, whatever the supply is.
-/

namespace CyclotronPico.SupplyService

open BitBuffer Effects PicoController Nanomodbus NanomodbusServer Frames Requests Answers
  ServerAnswers SupplyInterface ModbusServer Handling Service Sessions

variable {τ : Type} (overshift : Overshift) (ps : PowerSupplyInterface τ)

/-! ### Requests that are served -/

/-- A read of the registers is decided by its fields. -/
instance (fc : Byte) (frame : List Byte) : Decidable (IsRead fc frame) :=
  inferInstanceAs (Decidable (_ ∧ _))

/-- A write of a parameter is decided by its fields. -/
instance (fc : Byte) (frame : List Byte) : Decidable (IsWrite fc frame) :=
  inferInstanceAs (Decidable (_ ∧ _))

/-- A read of the registers. -/
theorem serve_read (walk : Walk) (toAll : Bool) (u : Byte) {fc : Byte} {frame : List Byte}
    (h : IsRead fc frame) (app : App τ) :
    serve (supplyHandlers overshift ps) walk toAll u fc frame app=
      (.content (wordsBody 3#16 (readRegisters ps (app.communicate ps).powerSupply)),
        app.communicate ps) := by
  obtain ⟨hfc,haddress,hquantity⟩ := h
  have hq : wordAt frame 4=3#16 := BitVec.eq_of_toNat_eq hquantity
  have hrange : rangeError 125 (wordAt frame 2) 3#16=none := by
    rw [rangeError,haddress]
    rfl
  have hsome : ¬((wordAt frame 2).toNat≠0 ∨ (3#16).toNat≠registersReadSize) := by
    rw [haddress]
    decide
  rw [serve,hfc,hq]
  change serveRead 125 (supplyHandlers overshift ps).readInputRegisters wordsBody u
    (wordAt frame 2) 3#16 app=_
  unfold serveRead
  rw [hrange]
  dsimp only [supplyHandlers]
  rw [if_neg hsome]
  rfl

/-- A write of a parameter. -/
theorem serve_write (walk : Walk) (toAll : Bool) (u : Byte) {fc : Byte} {frame : List Byte}
    (h : IsWrite fc frame) (app : App τ) :
    serve (supplyHandlers overshift ps) walk toAll u fc frame app=
      if writtenCode overshift ps frame app<0 then
        (.exception .exceptionIllegalDataValue,afterWrite overshift ps frame app)
      else (.content (wordBytes (wordAt frame 2)++wordBytes (wordAt frame 4)),
        (afterWrite overshift ps frame app).communicate ps) := by
  obtain ⟨hfc,haddress,hlow,hhigh,hbytes⟩ := h
  have hrange : rangeError 0x07B0 (wordAt frame 2) (wordAt frame 4)=none := by
    rw [rangeError,if_neg (by omega),if_neg (by omega)]
  have hsome : ¬((wordAt frame 2).toNat≠0 ∨ (wordAt frame 4).toNat<coilsWriteMinCount) := by
    rw [haddress,coilsWriteMinCount,writtenDataTypeCoils]
    omega
  rw [serve,hfc]
  change serveWrite 0x07B0 (fun q => (q+7)/8) (supplyHandlers overshift ps).writeMultipleCoils u
    (wordAt frame 2) (wordAt frame 4) (byteAt frame 6) (coilsOf frame) app=_
  unfold serveWrite
  rw [hrange]
  dsimp only [supplyHandlers]
  rw [if_neg (not_not.mpr hbytes),if_neg hsome]
  by_cases hcode : writtenCode overshift ps frame app<0
  · rw [if_pos hcode]
    exact (congrArg (replyDone _) (if_pos hcode)).trans rfl
  · rw [if_neg hcode]
    exact (congrArg (replyDone _) (if_neg hcode)).trans rfl

/-! ### Requests that are refused -/

/-- A read that the application does not offer. -/
theorem serveRead_missing {σ α : Type} (limit : ℕ) (body : Word → α → List Byte) (u : Byte)
    (address quantity : Word) (app : σ) : serveRead limit none body u address quantity app=
      (.exception ((rangeError limit address quantity).getD .exceptionIllegalFunction),app) := by
  rw [serveRead]
  cases rangeError limit address quantity <;> rfl

/-- A write that the application does not offer. -/
theorem serveWrite_missing {σ α : Type} (limit : ℕ) (size : ℕ → ℕ) (u : Byte)
    (address quantity : Word) (bytes : Byte) (values : α) (app : σ) :
    serveWrite limit size none u address quantity bytes values app=
      (.exception ((rangeError limit address quantity).getD
        (if bytes.toNat≠size quantity.toNat then .exceptionIllegalDataValue
          else .exceptionIllegalFunction)),app) := by
  rw [serveWrite]
  cases rangeError limit address quantity with
  | some e => rfl
  | none =>
    dsimp only
    split <;> rfl

/-- Why a read and write of registers is refused by a server that offers none. -/
def readWriteError (frame : List Byte) : NmbsError :=
  if ((wordAt frame 4).toNat<1 ∨ (wordAt frame 4).toNat>125) ∨
      ((wordAt frame 8).toNat<1 ∨ (wordAt frame 8).toNat>123) ∨
      (byteAt frame 10).toNat≠(wordAt frame 8).toNat*2 then .exceptionIllegalDataValue
  else if (wordAt frame 2).toNat+(wordAt frame 4).toNat>0xFFFF+1 ∨
      (wordAt frame 6).toNat+(wordAt frame 8).toNat>0xFFFF+1 then .exceptionIllegalDataAddress
  else .exceptionIllegalFunction

/-- Why the server of a supply refuses a request that neither reads the
registers nor writes a parameter. -/
def refusal (walk : Walk) (fc : Byte) (frame : List Byte) : NmbsError :=
  match fc.toNat with
  | 1 | 2 => (rangeError 2000 (wordAt frame 2) (wordAt frame 4)).getD .exceptionIllegalFunction
  | 3 => (rangeError 125 (wordAt frame 2) (wordAt frame 4)).getD .exceptionIllegalFunction
  | 4 => (rangeError 125 (wordAt frame 2) (wordAt frame 4)).getD .exceptionIllegalDataAddress
  | 15 => (rangeError 0x07B0 (wordAt frame 2) (wordAt frame 4)).getD
      (if (byteAt frame 6).toNat≠((wordAt frame 4).toNat+7)/8 then .exceptionIllegalDataValue
        else .exceptionIllegalDataAddress)
  | 16 => (rangeError 0x007B (wordAt frame 2) (wordAt frame 4)).getD
      (if (byteAt frame 6).toNat≠(wordAt frame 4).toNat*2 then .exceptionIllegalDataValue
        else .exceptionIllegalFunction)
  | 20 => readRecordsError (byteAt frame 2) (recordsOf frame)
  | 21 => writeRecordsError (byteAt frame 2) walk
  | 23 => readWriteError frame
  | _ => .exceptionIllegalFunction

/-- A read of other registers. -/
theorem serveRead_refused {frame : List Byte} (u : Byte)
    (h : ¬((wordAt frame 2).toNat=0 ∧ (wordAt frame 4).toNat=3)) (app : App τ) :
    serveRead 125 (supplyHandlers overshift ps).readInputRegisters wordsBody u (wordAt frame 2)
        (wordAt frame 4) app=
      (.exception ((rangeError 125 (wordAt frame 2) (wordAt frame 4)).getD
        .exceptionIllegalDataAddress),app) := by
  unfold serveRead
  cases rangeError 125 (wordAt frame 2) (wordAt frame 4) with
  | some e => rfl
  | none =>
    have hother : (wordAt frame 2).toNat≠0 ∨ (wordAt frame 4).toNat≠registersReadSize :=
      not_and_or.mp h
    dsimp only [supplyHandlers]
    rw [if_pos hother]
    rfl

/-- A write of other coils. -/
theorem serveWrite_refused {frame : List Byte} (u : Byte)
    (h : ¬((wordAt frame 2).toNat=0 ∧ 3≤(wordAt frame 4).toNat ∧ (wordAt frame 4).toNat≤0x07B0 ∧
      (byteAt frame 6).toNat=((wordAt frame 4).toNat+7)/8)) (app : App τ) :
    serveWrite 0x07B0 (fun q => (q+7)/8) (supplyHandlers overshift ps).writeMultipleCoils u
        (wordAt frame 2) (wordAt frame 4) (byteAt frame 6) (coilsOf frame) app=
      (.exception ((rangeError 0x07B0 (wordAt frame 2) (wordAt frame 4)).getD
        (if (byteAt frame 6).toNat≠((wordAt frame 4).toNat+7)/8 then .exceptionIllegalDataValue
          else .exceptionIllegalDataAddress)),app) := by
  unfold serveWrite
  cases hrange : rangeError 0x07B0 (wordAt frame 2) (wordAt frame 4) with
  | some e => rfl
  | none =>
    dsimp only [supplyHandlers]
    by_cases hbytes : (byteAt frame 6).toNat=((wordAt frame 4).toNat+7)/8
    · have hmost : (wordAt frame 4).toNat≤0x07B0 := range_le hrange
      have hother : (wordAt frame 2).toNat≠0 ∨ (wordAt frame 4).toNat<coilsWriteMinCount := by
        rw [coilsWriteMinCount,writtenDataTypeCoils]
        omega
      rw [if_neg (not_not.mpr hbytes),if_pos hother,Option.getD_none,
        if_neg (not_not.mpr hbytes)]
      rfl
    · rw [if_pos hbytes,Option.getD_none,if_pos hbytes]

/-- A read and write of registers. -/
theorem serveReadWrite_refused (toAll : Bool) (u : Byte) (frame : List Byte) (app : App τ) :
    serveReadWrite (supplyHandlers overshift ps) toAll u (wordAt frame 2) (wordAt frame 4)
        (wordAt frame 6) (wordAt frame 8) (byteAt frame 10) (registersOf frame 11 10) app=
      (.exception (readWriteError frame),app) := by
  rw [serveReadWrite,readWriteError]
  split
  · rfl
  · split <;> rfl

/-- A request that neither reads the registers nor writes a parameter is
refused, and nothing happens. -/
theorem serve_refused (walk : Walk) (toAll : Bool) (u : Byte) {fc : Byte} {frame : List Byte}
    {lay : Layout} (hl : requestLayout fc=some lay) (hr : ¬IsRead fc frame)
    (hw : ¬IsWrite fc frame) (app : App τ) :
    serve (supplyHandlers overshift ps) walk toAll u fc frame app=
      (.exception (refusal walk fc frame),app) := by
  unfold IsRead at hr
  unfold IsWrite at hw
  unfold requestLayout at hl
  unfold serve refusal
  generalize fc.toNat=n at hl hr hw ⊢
  split at hl
  · exact serveRead_missing 2000 bitsBody u _ _ app
  · exact serveRead_missing 2000 bitsBody u _ _ app
  · exact serveRead_missing 125 wordsBody u _ _ app
  · exact serveRead_refused overshift ps u (fun h => hr ⟨rfl,h⟩) app
  · rfl
  · exact serveWrite_refused overshift ps u (fun h => hw ⟨rfl,h⟩) app
  · exact serveWrite_missing 0x007B (fun q => q*2) u _ _ _ _ app
  · rfl
  · rfl
  · exact serveReadWrite_refused overshift ps toAll u frame app
  · cases hl

end CyclotronPico.SupplyService
