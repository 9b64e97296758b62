import CyclotronPico.ModbusServer

/-!
# Building the server

What the library checks when a server is created, and what the constructor of
the server hands it. A server that the library creates has a transport it
knows and both transport functions, and over a serial line an address of its
own; the constructor always gets one, and it starts as the model's runs do.
-/

namespace CyclotronPico.Construction

open BitBuffer PicoController Nanomodbus NanomodbusServer SupplyInterface ModbusServer

/-- The transports. -/
inductive NmbsTransport where
  /-- A serial line. -/
  | rtu
  /-- A network connection. -/
  | tcp
  /-- A number that is no transport. -/
  | other (value : ℤ)
  deriving DecidableEq

/-- The type of the transport function that reads. -/
abbrev ReadFunction := ℕ → Bool → Bool → Line → List Byte×ℤ×Line

/-- The type of the transport function that writes. -/
abbrev WriteFunction := List Byte → Line → ℤ×Line

/-- What the library is told about its platform. -/
structure NmbsPlatformConf where
  /-- The transport. -/
  transport : NmbsTransport
  /-- The function that reads, if any. -/
  read : Option ReadFunction
  /-- The function that writes, if any. -/
  write : Option WriteFunction

variable {σ τ : Type}

/-- An instance of the library. -/
structure NmbsInstance (σ : Type) where
  /-- The message being received or built. -/
  msg : Msg
  /-- The callbacks. -/
  callbacks : NmbsCallbacks σ
  /-- The platform, once it is known. -/
  platform : Option NmbsPlatformConf
  /-- The address of this server. -/
  addressRtu : Byte

/-- An instance whose memory is cleared. -/
def NmbsInstance.cleared : NmbsInstance σ where
  msg := ⟨Vector.replicate 260 0#8,0,0#8,0#8,false,false⟩
  callbacks := {}
  platform := none
  addressRtu := 0#8

/-- Create an instance: it is cleared whatever is wrong with its platform. -/
def nmbsCreate (conf : Option NmbsPlatformConf) : NmbsError×NmbsInstance σ :=
  match conf with
  | none => (.errorInvalidArgument,.cleared)
  | some conf =>
    if conf.transport≠.rtu ∧ conf.transport≠.tcp then (.errorInvalidArgument,.cleared)
    else if conf.read.isNone=true ∨ conf.write.isNone=true then (.errorInvalidArgument,.cleared)
    else (.errorNone,{NmbsInstance.cleared with platform := some conf})

/-- Create a server. Over a serial line its address is not that of requests to
every unit. -/
def nmbsServerCreate (nmbs : NmbsInstance σ) (addressRtu : Byte) (conf : NmbsPlatformConf)
    (callbacks : NmbsCallbacks σ) : NmbsError×NmbsInstance σ :=
  if conf.transport=.rtu ∧ addressRtu=0#8 then (.errorInvalidArgument,nmbs)
  else
    let ret := nmbsCreate (some conf)
    if ret.1≠.errorNone then ret
    else (.errorNone,{ret.2 with addressRtu := addressRtu, callbacks := callbacks})

/-- The server that an instance polls for, on the processor of the firmware. -/
def NmbsInstance.server (nmbs : NmbsInstance σ) : NmbsServer σ :=
  ⟨nmbs.addressRtu,nmbs.callbacks,false⟩

/-- What a platform has with which a server can be created. -/
structure Suits (conf : NmbsPlatformConf) (addressRtu : Byte) : Prop where
  /-- The library knows the transport. -/
  transport : conf.transport=.rtu ∨ conf.transport=.tcp
  /-- There is a function that reads. -/
  read : conf.read.isSome=true
  /-- There is a function that writes. -/
  write : conf.write.isSome=true
  /-- Over a serial line the server has an address of its own. -/
  address : conf.transport=.rtu → addressRtu≠nmbsBroadcastAddress

/-- A server that was just created. -/
def NmbsInstance.created (addressRtu : Byte) (conf : NmbsPlatformConf)
    (callbacks : NmbsCallbacks σ) : NmbsInstance σ :=
  {(NmbsInstance.cleared : NmbsInstance σ) with
    platform := some conf, addressRtu := addressRtu, callbacks := callbacks}

/-- A server is created exactly from what suits it, and is then cleared but
for what it was given; otherwise the argument is invalid. -/
theorem nmbsServerCreate_iff (nmbs : NmbsInstance σ) (addressRtu : Byte) (conf : NmbsPlatformConf)
    (callbacks : NmbsCallbacks σ) :
    (Suits conf addressRtu → nmbsServerCreate nmbs addressRtu conf callbacks=
      (.errorNone,.created addressRtu conf callbacks)) ∧
    (¬Suits conf addressRtu →
      (nmbsServerCreate nmbs addressRtu conf callbacks).1=.errorInvalidArgument) := by
  constructor
  · rintro ⟨htransport,hread,hwrite,haddress⟩
    have hzero : ¬(conf.transport=.rtu ∧ addressRtu=0#8) := fun h => haddress h.1 h.2
    have hknown : ¬(conf.transport≠.rtu ∧ conf.transport≠.tcp) := fun h =>
      htransport.elim h.1 h.2
    have hboth : ¬(conf.read.isNone=true ∨ conf.write.isNone=true) := by
      simp [Option.isSome_iff_ne_none.mp hread,Option.isSome_iff_ne_none.mp hwrite]
    rw [nmbsServerCreate,if_neg hzero,nmbsCreate]
    dsimp only
    rw [if_neg hknown,if_neg hboth]
    exact if_neg (not_not.mpr rfl)
  · intro hsuits
    rw [nmbsServerCreate]
    split
    · rfl
    · rename_i hzero
      have hcreate : (nmbsCreate (σ:=σ) (some conf)).1=.errorInvalidArgument := by
        rw [nmbsCreate]
        dsimp only
        split
        · rfl
        · rename_i hknown
          split
          · rfl
          · rename_i hboth
            refine absurd ⟨?_,?_,?_,fun hrtu h => hzero ⟨hrtu,h⟩⟩ hsuits
            · rcases hconf : conf.transport with _ | _ | n
              · exact .inl rfl
              · exact .inr rfl
              · exact absurd ⟨by rw [hconf]; nofun,by rw [hconf]; nofun⟩ hknown
            · rcases hconf : conf.read with _ | f
              · exact absurd (.inl (by rw [hconf]; rfl)) hboth
              · rfl
            · rcases hconf : conf.write with _ | f
              · exact absurd (.inr (by rw [hconf]; rfl)) hboth
              · rfl
      dsimp only
      rw [if_pos (by rw [hcreate]; nofun),hcreate]

/-- The platform that the controller makes of a serial line. -/
def assignReadAndWriteToModbus (conf : NmbsPlatformConf) : NmbsPlatformConf :=
  {conf with read := some readUart, write := some writeUart}

/-- The constructor of the server: the error it met, and its instance. -/
def construct (overshift : Overshift) (ps : PowerSupplyInterface τ) (nmbs : NmbsInstance (App τ)) :
    NmbsError×NmbsInstance (App τ) :=
  nmbsServerCreate nmbs rtuServerAddress (assignReadAndWriteToModbus ⟨.rtu,none,none⟩)
    {readInputRegisters := some (handleReadData ps)
     writeMultipleCoils := some (handleWriteData overshift ps)}

/-- The constructor meets no error, whatever the memory held before; its
instance polls for the server of the supply, and with an empty line and the
supply behind it, it is the machine that the runs start from. -/
theorem construct_init (overshift : Overshift) (ps : PowerSupplyInterface τ)
    (nmbs : NmbsInstance (App τ)) (p : τ) (rx : List (Option Byte)) :
    (construct overshift ps nmbs).1=.errorNone ∧
    (construct overshift ps nmbs).2.server=nmbsServer overshift ps ∧
    (Server.init p rx).machine=⟨(construct overshift ps nmbs).2.msg,⟨rx,[],false⟩,⟨p,[]⟩⟩ := by
  have hsuits : Suits (assignReadAndWriteToModbus ⟨.rtu,none,none⟩) rtuServerAddress :=
    ⟨.inl rfl,rfl,rfl,fun _ => by decide⟩
  have hcreate := (nmbsServerCreate_iff nmbs rtuServerAddress
    (assignReadAndWriteToModbus ⟨.rtu,none,none⟩)
    {readInputRegisters := some (handleReadData ps)
     writeMultipleCoils := some (handleWriteData overshift ps)}).1 hsuits
  rw [construct,hcreate]
  exact ⟨rfl,rfl,rfl⟩

end CyclotronPico.Construction
