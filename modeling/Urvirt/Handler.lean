import Urvirt.PageFault
import Urvirt.Transition

/-!
# The signal handler

`handle_legacy_sbi_call` of `urvirt-stub/handle-sbi.c` and `handler` of
`urvirt-stub/urvirt-stub.c`. A run of the guest alternates handled signals with
arbitrary changes of RAM and registers. A fault of the emulator's own code ends the run
here. While it handles a `SIGSEGV` that kills it; the masks of the other signals hold
only `SIGALRM`, so there the handler would be entered again for an instruction of its
own, and what it does then is not modelled.
-/

namespace Urvirt

def sbiSetTimer : Word := 0
def sbiConsolePutchar : Word := 1
def sbiConsoleGetchar : Word := 2
def sbiShutdown : Word := 8
def sbiErrNotSupported : Word := -2

/-- What `SBI_SET_TIMER` passes to `timer_settime`. -/
def timerSpec (arg0 curTime : Word) : Itimerspec :=
  let deltaNs := (arg0-curTime)*1000
  ⟨deltaNs/1000000000,deltaNs%1000000000⟩

/-- `arg0 <= cur_time` as the C value 0 or 1. -/
def elapsedFlag (arg0 curTime : Word) : Word := if arg0 ≤ curTime then 1 else 0

/-- `stdout` records the calls of `write`; whether they fail is not looked at. -/
def handleLegacySbiCall (env : Host) (m : Machine) (which arg0 : Word) :
    Except Halt (Machine × Word) :=
  if which = sbiConsolePutchar then .ok ({ m with stdout := arg0.setWidth 8 :: m.stdout },0)
  else if which = sbiConsoleGetchar then
    match env.read with
    | .wouldBlock => .ok (m,0)
    | .failed => .error .readError
    | .byte ch => .ok (m,ch.setWidth 64)
  else if which = sbiShutdown then .error .shutdown
  else if which = sbiSetTimer then
    .ok ({ m with
      settimes := timerSpec arg0 env.time :: m.settimes
      priv := { m.priv with sip := setSixSti m.priv.sip (elapsedFlag arg0 env.time) } },0)
  else .ok (m,sbiErrNotSupported)

/-- The signals the stub handles, with the parts of `siginfo_t` it looks at. -/
inductive Signal
  | sigsys (siSyscall : BitVec 32)
  | sigill
  | sigalrm (siCode : ℤ)
  | sigsegv (siAddr : Word)

def siTimer : ℤ := -2

def countSecall (m : Machine) : Machine :=
  { m with priv := { m.priv with counterSecall := m.priv.counterSecall+1 } }
def countUecall (m : Machine) : Machine :=
  { m with priv := { m.priv with counterUecall := m.priv.counterUecall+1 } }
def countIll (m : Machine) : Machine :=
  { m with priv := { m.priv with counterIll := m.priv.counterIll+1 } }
def countSegv (m : Machine) : Machine :=
  { m with priv := { m.priv with counterSegv := m.priv.counterSegv+1 } }

/-- `regs[17] = which`; `si_syscall` is an `int`, so it is sign extended. -/
def fixA7 (m : Machine) (siSyscall : BitVec 32) : Machine := m.setReg 17 (siSyscall.signExtend 64)

/-- The magic `ecall` that logs the counters behaves like any other. -/
def handleEcall (env : Host) (m : Machine) (siSyscall : BitVec 32) : Except Halt Machine :=
  if m.priv.privMode = privS then do
    let (m',ret) ← handleLegacySbiCall env (countSecall (fixA7 m siSyscall))
      (siSyscall.signExtend 64) ((fixA7 m siSyscall).regs 10)
    .ok (m'.setReg 10 ret)
  else
    .ok (enterTrap ((countUecall (fixA7 m siSyscall)).setPc (m.pc-4)) scauseUecall 0)

def handleIllegal (env : Host) (m : Machine) : Except Halt Machine :=
  if m.priv.privMode = privS then do
    let c ← deref8 env m m.pc
    if c &&& 0b11 = 0b11 ∧ c &&& 0b11111 ≠ 0b11111 then do
      let instr ← deref32 env m m.pc
      handlePrivInstr (countIll m) instr
    else .error .cantHandleSigill
  else .ok (enterTrap (countIll m) scauseIllegal 0)

/-- The page-fault cause the handler guesses for a `SIGSEGV`. -/
def segvCause (env : Host) (m : Machine) (siAddr : Word) : Except Halt Word :=
  if siAddr = m.pc then .ok scauseInstrPf
  else do
    let c ← deref8 env m m.pc
    if c &&& 0b11 ≠ 0b11 then do
      let instr ← deref16 env m m.pc
      .ok (if rvcLooksLikeLoad instr then scauseLoadPf
        else if rvcLooksLikeStore instr then scauseStorePf else scauseInstrPf)
    else
      -- The four bytes that the source loads here are not used, so nothing is read.
      let opcode := (c &&& 0b1111111).setWidth 32
      .ok (if opcode = opcodeLoad then scauseLoadPf
        else if opcode = opcodeStore then scauseStorePf
        else if opcode = opcodeAmo then scauseStorePf else scauseInstrPf)

def handleSegv (env : Host) (m : Machine) (siAddr : Word) : Except Halt Machine := do
  let scause ← segvCause env m siAddr
  handlePageFault env (countSegv m) scause siAddr

/-- The chain of signal cases in the middle of `handler`. -/
def dispatch (env : Host) (m : Machine) : Signal → Except Halt Machine
  | .sigsys siSyscall => handleEcall env m siSyscall
  | .sigill => handleIllegal env m
  | .sigalrm siCode =>
    if siCode = siTimer then .ok { m with priv := { m.priv with sip := setSixSti m.priv.sip 1 } }
    else .error .unknownSignal
  | .sigsegv siAddr => handleSegv env m siAddr

/-- The test for an enabled and pending timer interrupt at the end of `handler`. -/
def interruptPending (priv : PrivState) : Prop :=
  getSixSti priv.sip ≠ 0 ∧ getSixSti priv.sie ≠ 0 ∧
    (getSstatusSie priv.sstatus ≠ 0 ∨ priv.privMode < privS)

instance (priv : PrivState) : Decidable (interruptPending priv) :=
  inferInstanceAs (Decidable (_ ∧ _))

def takeInterrupt (m : Machine) : Machine :=
  if interruptPending m.priv then enterTrap m scauseTimer 0 else m

/-- Everything below and above the stub is unmapped. -/
def clearMap (priv : PrivState) (map : HostMap) : HostMap :=
  let safeEnd := priv.stubStart+priv.stubSize
  sMunmap (sMunmap map 0 priv.stubStart) safeEnd ((1 <<< 38)-safeEnd)

def clearVm (m : Machine) : Machine :=
  if m.priv.shouldClearVm then
    { m with
      priv := { m.priv with shouldClearVm := false }
      map := clearMap m.priv m.map }
  else m

def mapConf (env : Host) (m : Machine) : Machine :=
  { m with map := AddressSpace.mapRange m.map env.confPage (pages confSize) fun _ => configPage }

@[simp] theorem mapConf_map (env : Host) (m : Machine) :
    (mapConf env m).map =
      AddressSpace.mapRange m.map env.confPage (pages confSize) fun _ => configPage := rfl

def unmapConf (env : Host) (m : Machine) : Machine :=
  { m with map := AddressSpace.unmapRange m.map env.confPage (pages confSize) }

/-- The state in which the event itself has been emulated. -/
def emulate (env : Host) (sig : Signal) (m : Machine) : Except Halt Machine :=
  dispatch env (mapConf env m) sig

def handler (env : Host) (sig : Signal) (m : Machine) : Except Halt Machine := do
  let m ← emulate env sig m
  .ok (unmapConf env (clearVm (takeInterrupt m)))

inductive Event
  | guest (ram : Ram) (regs : Regs)
  | signal (env : Host) (sig : Signal)

/-- `mmap(NULL)` puts the config page and the window on RAM into free ranges. -/
structure FreeChoice (map : HostMap) (env : Host) (sig : Signal) : Prop where
  conf_free : AddressSpace.Free map env.confPage (pages confSize)
  ram_free : ∀ a, sig = .sigsegv a → AddressSpace.Free map env.ramPage (pages ramSize)
  disjoint : ∀ a, sig = .sigsegv a → ¬AddressSpace.InRange env.ramPage (pages ramSize) env.confPage

/-- One step of a run: the guest computes, or the handler returns from a signal. -/
inductive Step : Machine → Event → Machine → Prop
  | guest (m : Machine) (ram : Ram) (regs : Regs) :
      Step m (.guest ram regs) { m with ram := ram, regs := regs }
  | signal {m m' : Machine} {env : Host} {sig : Signal} :
      FreeChoice m.map env sig → handler env sig m = .ok m' → Step m (.signal env sig) m'

/-- The event decides the step. -/
theorem Step.det {m m₁ m₂ : Machine} {e : Event} (h₁ : Step m e m₁) (h₂ : Step m e m₂) :
    m₁ = m₂ := by
  cases h₁ with
  | guest ram regs => cases h₂; rfl
  | signal _ hh₁ =>
    cases h₂ with
    | signal _ hh₂ => exact Except.ok.inj (hh₁.symm.trans hh₂)

def WritesCsr (csr : BitVec 32) (m : Machine) : Event → Prop
  | .signal env .sigill => m.priv.privMode = privS ∧
      ∃ instr, deref32 env (mapConf env m) m.pc = .ok instr ∧ insFunct3 instr ≠ funct3NotCsr ∧
        insCsr instr = csr ∧ csrWrites m.regs instr
  | _ => False

theorem not_writesCsr {csr : BitVec 32} {m : Machine} {env : Host} {instr : BitVec 32}
    (hi : deref32 env (mapConf env m) m.pc = .ok instr)
    (h : insFunct3 instr = funct3NotCsr ∨ insCsr instr ≠ csr) :
    ¬WritesCsr csr m (.signal env .sigill) := by
  rintro ⟨-,instr',hi',hf3,hcsr,-⟩
  rw [hi] at hi'
  cases hi'
  exact h.elim hf3 fun hne => hne hcsr

inductive SignalEffect (env : Host) (m : Machine) : Signal → Machine → Prop
  | sbiQuiet {siSyscall : BitVec 32} {regs : Regs} {stdout : List (BitVec 8)} :
      m.priv.privMode = privS → siSyscall.signExtend 64 ≠ sbiSetTimer →
      SignalEffect env m (.sigsys siSyscall) { countSecall m with regs := regs, stdout := stdout }
  | sbiSetTimer {siSyscall : BitVec 32} {regs : Regs} :
      m.priv.privMode = privS → siSyscall.signExtend 64 = sbiSetTimer →
      SignalEffect env m (.sigsys siSyscall)
        { countSecall m with
          regs := regs
          settimes := timerSpec (m.regs 10) env.time :: m.settimes
          priv := { (countSecall m).priv with
            sip := setSixSti m.priv.sip (elapsedFlag (m.regs 10) env.time) } }
  | uecall {siSyscall : BitVec 32} : m.priv.privMode ≠ privS →
      SignalEffect env m (.sigsys siSyscall)
        (enterTrap ((countUecall (fixA7 m siSyscall)).setPc (m.pc-4)) scauseUecall 0)
  | privInstr {instr : BitVec 32} {m' : Machine} : m.priv.privMode = privS →
      deref32 env m m.pc = .ok instr → handlePrivInstr (countIll m) instr = .ok m' →
      PrivEffect (countIll m) instr m' → SignalEffect env m .sigill m'
  | illegal : m.priv.privMode ≠ privS →
      SignalEffect env m .sigill (enterTrap (countIll m) scauseIllegal 0)
  | alarm : SignalEffect env m (.sigalrm siTimer)
      { m with priv := { m.priv with sip := setSixSti m.priv.sip 1 } }
  | fault {siAddr scause : Word} {m' : Machine} : segvCause env m siAddr = .ok scause →
      FaultEffect env (countSegv m) scause siAddr m' → SignalEffect env m (.sigsegv siAddr) m'

theorem handleLegacySbiCall_ok {env : Host} {m m' : Machine} {which arg0 ret : Word}
    (h : handleLegacySbiCall env m which arg0 = .ok (m',ret)) :
    (which ≠ sbiSetTimer ∧ ∃ stdout, m' = { m with stdout := stdout }) ∨
    (which = sbiSetTimer ∧
      m' = { m with
        settimes := timerSpec arg0 env.time :: m.settimes
        priv := { m.priv with sip := setSixSti m.priv.sip (elapsedFlag arg0 env.time) } }) := by
  simp only [handleLegacySbiCall] at h
  split_ifs at h with hput hget hshut hset
  · cases h; exact .inl ⟨by rw [hput]; decide,_,rfl⟩
  · have hne : which ≠ sbiSetTimer := by rw [hget]; decide
    cases hr : env.read with
    | wouldBlock => rw [hr] at h; cases h; exact .inl ⟨hne,m.stdout,rfl⟩
    | failed => simp [hr] at h
    | byte ch => rw [hr] at h; cases h; exact .inl ⟨hne,m.stdout,rfl⟩
  · cases h; exact .inr ⟨hset,rfl⟩
  · cases h; exact .inl ⟨hset,m.stdout,rfl⟩

theorem handleEcall_effect {env : Host} {m m' : Machine} {siSyscall : BitVec 32}
    (h : handleEcall env m siSyscall = .ok m') : SignalEffect env m (.sigsys siSyscall) m' := by
  simp only [handleEcall] at h
  split_ifs at h with hs
  · obtain ⟨⟨m₁,ret⟩,h₁,h⟩ := bind_ok.mp h
    cases h
    have harg : (fixA7 m siSyscall).regs 10 = m.regs 10 := by simp [fixA7,Machine.setReg]
    rw [harg] at h₁
    obtain ⟨hne,stdout,rfl⟩ | ⟨heq,rfl⟩ := handleLegacySbiCall_ok h₁
    · exact .sbiQuiet hs hne
    · exact .sbiSetTimer hs heq
  · cases h; exact .uecall hs

theorem handleIllegal_effect {env : Host} {m m' : Machine}
    (h : handleIllegal env m = .ok m') : SignalEffect env m .sigill m' := by
  simp only [handleIllegal] at h
  split_ifs at h with hs
  · obtain ⟨c,-,h⟩ := bind_ok.mp h
    split_ifs at h
    obtain ⟨instr,hi,h⟩ := bind_ok.mp h
    exact .privInstr hs hi h (handlePrivInstr_effect h)
  · cases h; exact .illegal hs

theorem dispatch_effect {env : Host} {m m' : Machine} {sig : Signal}
    (hfree : ∀ a, sig = .sigsegv a → AddressSpace.Free m.map env.ramPage (pages ramSize))
    (h : dispatch env m sig = .ok m') : SignalEffect env m sig m' := by
  cases sig with
  | sigsys siSyscall => exact handleEcall_effect h
  | sigill => exact handleIllegal_effect h
  | sigalrm siCode =>
    simp only [dispatch] at h
    split_ifs at h with hc
    cases h; subst hc; exact .alarm
  | sigsegv siAddr =>
    obtain ⟨scause,hc,h⟩ := bind_ok.mp h
    exact .fault hc (handlePageFault_effect (hfree siAddr rfl) h)

theorem mapConf_free {env : Host} {m : Machine} {sig : Signal} (h : FreeChoice m.map env sig)
    (a : Word) (ha : sig = .sigsegv a) :
    AddressSpace.Free (mapConf env m).map env.ramPage (pages ramSize) := by
  intro p hp
  have hne : ¬AddressSpace.InRange env.confPage (pages confSize) p := by
    intro hc
    have hone : pages confSize = 1 := rfl
    have hpe : p = env.confPage := by
      simp only [AddressSpace.InRange] at hc
      omega
    exact h.disjoint a ha (hpe ▸ hp)
  rw [mapConf_map,AddressSpace.mapRange_of_not hne]
  exact h.ram_free a ha p hp

/-- A handled signal is its effect on the machine with the config page mapped,
followed by the interrupt test, the flush and the unmapping of the config page. -/
theorem handler_effect {env : Host} {m m' : Machine} {sig : Signal}
    (hfree : FreeChoice m.map env sig) (h : handler env sig m = .ok m') :
    ∃ mid, emulate env sig m = .ok mid ∧ SignalEffect env (mapConf env m) sig mid ∧
      m' = unmapConf env (clearVm (takeInterrupt mid)) := by
  obtain ⟨mid,hmid,h⟩ := bind_ok.mp h
  cases h
  exact ⟨mid,hmid,dispatch_effect (mapConf_free hfree) hmid,rfl⟩

end Urvirt
