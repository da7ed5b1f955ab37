import Urvirt.AddressSpace
import Urvirt.RiscvBits

/-!
# Machine state

What the emulator keeps and touches between two guest instructions: the config
page, the saved guest registers, emulated RAM, the block image and the host
address space. `Host` collects what Linux and the hardware decide during one
invocation of the signal handler.
-/

namespace Urvirt

/-- `struct priv_state`, the contents of the config page. -/
structure PrivState where
  stubStart : Word
  stubSize : Word
  kernelSize : Word
  timerid : Word
  privMode : Word
  sstatus : Word
  sscratch : Word
  stvec : Word
  sepc : Word
  scause : Word
  stval : Word
  sip : Word
  sie : Word
  satp : Word
  urvbBlockId : Word
  urvbBuf : Word
  shouldClearVm : Bool
  counterIll : Word
  counterSegv : Word
  counterSret : Word
  counterUecall : Word
  counterSecall : Word
  deriving DecidableEq

/-- `uc_mcontext.__gregs`; slot 0 holds the pc. -/
abbrev Regs := Fin 32 → Word

instance regsNeZero : NeZero 32 := ⟨by decide⟩

/-- The contents of `RAM_FD` by file offset. -/
abbrev Ram := ℕ → BitVec 8

structure BlockImage where
  size : ℕ
  byte : ℕ → BitVec 8

structure Prot where
  read : Bool
  write : Bool
  exec : Bool
  deriving DecidableEq

/-- What a host page shows: the emulator's own pages, the kernel image during
start-up, whatever the loader left behind, or a page of `RAM_FD`. -/
inductive Backing
  | stub | sigstack | config | kernel | loader | ram (off : Word)
  deriving DecidableEq

structure HostPage where
  back : Backing
  prot : Prot
  deriving DecidableEq

abbrev HostMap := AddressSpace.Space HostPage

structure Itimerspec where
  tvSec : Word
  tvNsec : Word
  deriving DecidableEq

/-- Ghost record of what one `enter_trap` found and reported. -/
structure TrapEntry where
  pc : Word
  mode : Word
  sie : Word
  scause : Word
  stval : Word
  deriving DecidableEq

/-- `traps` is ghost state; `stdout` is the guest's console, without what the emulator
logs. `stdout`, `settimes` and `traps` list the newest first. -/
structure Machine where
  priv : PrivState
  regs : Regs
  ram : Ram
  block : BlockImage
  map : HostMap
  stdout : List (BitVec 8)
  settimes : List Itimerspec
  traps : List TrapEntry

/-- Why the emulator stops. All but the last three are an `ebreak` in the source. -/
inductive Halt
  | cantHandleSigill | unknownSignal
  | unimplementedCsrRead | unimplementedCsrWrite
  | invalidNonCsr | invalidCsrOperation | notSystem
  | ptAddressOutOfRange | largePage
  | translationOff | deniedInSMode | mmapFailed
  | mmioStoreData | blockCommand | cannotHandleAccess
  | readError
  /-- `exit_group(0)` on an SBI shutdown. -/
  | shutdown
  /-- The emulator itself dereferenced an unreadable guest address. -/
  | nestedSegv
  /-- A block transfer wrote to the emulator's own pages. -/
  | clobbered
  deriving DecidableEq

/-- The result of the non-blocking `read` of one byte of standard input. -/
inductive ReadResult
  | wouldBlock | failed | byte (ch : BitVec 8)
  deriving DecidableEq

/-- The choices of Linux and the hardware during one handler invocation. `own`
gives the bytes of the emulator's own pages; `strayStore` is what `get_store_data`
makes of an undefined result of `decode_sd`; `shortCount` is how much of a
partly inaccessible buffer a block transfer still copies. -/
structure Host where
  confPage : ℕ
  ramPage : ℕ
  time : Word
  read : ReadResult
  own : Word → BitVec 8
  strayStore : Option Word
  shortCount : ℕ

namespace Machine

def pc (m : Machine) : Word := m.regs 0

def setReg (m : Machine) (i : Fin 32) (v : Word) : Machine :=
  { m with regs := Function.update m.regs i v }

def setPc (m : Machine) (v : Word) : Machine := m.setReg 0 v

@[simp] theorem setPc_pc (m : Machine) (v : Word) : (m.setPc v).pc = v := by
  simp [setPc,setReg,pc]

end Machine

def regIx (field : BitVec 32) : Fin 32 := Fin.ofNat 32 field.toNat

def pageOf (a : Word) : ℕ := a.toNat/4096

def pages (length : Word) : ℕ := (length.toNat+4095)/4096

/-- User addresses of the host end at `2^38`. -/
def taskPages : ℕ := 2^26

def protRw : Prot := ⟨true,true,false⟩
def protRx : Prot := ⟨true,false,true⟩
def protRwx : Prot := ⟨true,true,true⟩

def configPage : HostPage := ⟨.config,protRw⟩

def ramPage (i : ℕ) : HostPage := ⟨.ram (BitVec.ofNat 64 (4096*i)),protRwx⟩

/-- `addr` is page aligned at every call, here and below. -/
def sMunmap (map : HostMap) (addr length : Word) : HostMap :=
  AddressSpace.unmapRange map (pageOf addr) (pages length)

/-- `mmap` of one page with `MAP_FIXED_NOREPLACE`. That Linux maps every free page below
`2^38` is an assumption: `mmap_min_addr` and `max_map_count` are out of the way. -/
def sMmapNoreplace (map : HostMap) (addr : Word) (page : HostPage) : Option HostMap :=
  if taskPages ≤ pageOf addr then none else AddressSpace.mapNew map (pageOf addr) page

def Machine.hostByte (m : Machine) (env : Host) (a : Word) : Option (BitVec 8) :=
  match m.map (pageOf a) with
  | none => none
  | some page =>
    if page.prot.read then
      some (match page.back with
        | .ram off => m.ram (off.toNat+a.toNat%4096)
        | _ => env.own a)
    else none

def deref8 (env : Host) (m : Machine) (a : Word) : Except Halt (BitVec 8) :=
  match m.hostByte env a with
  | some b => .ok b
  | none => .error .nestedSegv

def deref16 (env : Host) (m : Machine) (a : Word) : Except Halt (BitVec 16) := do
  let b₀ ← deref8 env m a
  let b₁ ← deref8 env m (a+1)
  return b₁ ++ b₀

def deref32 (env : Host) (m : Machine) (a : Word) : Except Halt (BitVec 32) := do
  let b₀ ← deref8 env m a
  let b₁ ← deref8 env m (a+1)
  let b₂ ← deref8 env m (a+2)
  let b₃ ← deref8 env m (a+3)
  return b₃ ++ b₂ ++ b₁ ++ b₀

theorem bind_ok {α β : Type} {x : Except Halt α} {f : α → Except Halt β} {b : β} :
    (x >>= f) = .ok b ↔ ∃ a, x = .ok a ∧ f a = .ok b := by
  cases x with
  | error e => simp [bind,Except.bind]
  | ok a => simp [bind,Except.bind]

/-- A computation that stops does so in its first part or after it. -/
theorem bind_error {α β : Type} {x : Except Halt α} {f : α → Except Halt β} {why : Halt} :
    (x >>= f) = .error why ↔ x = .error why ∨ ∃ a, x = .ok a ∧ f a = .error why := by
  cases x with
  | error e => simp [bind,Except.bind]
  | ok a => simp [bind,Except.bind]

end Urvirt
