import Urvirt.HartSteps

/-!
# Counters and logs

The counters that the magic `ecall` prints, the console and the timer settings are
exact records of a run. The console is the log of the calls of `write` on file
descriptor 1; that one of them fails is not modelled, and the source does not look.
-/

namespace Urvirt

open Transition Bitfield

def sbiCall (m : Machine) : Event → Option (Host × Word)
  | .signal env (.sigsys siSyscall) =>
    if m.priv.privMode = privS then some (env,siSyscall.signExtend 64) else none
  | _ => none

def putchar (m : Machine) (e : Event) : Option (BitVec 8) :=
  match sbiCall m e with
  | some (_,which) => if which = sbiConsolePutchar then some ((m.regs 10).setWidth 8) else none
  | none => none

def settime (m : Machine) (e : Event) : Option Itimerspec :=
  match sbiCall m e with
  | some (env,which) => if which = sbiSetTimer then some (timerSpec (m.regs 10) env.time) else none
  | none => none

def isSecall (m : Machine) (e : Event) : Bool := (sbiCall m e).isSome

def isUecall (m : Machine) : Event → Bool
  | .signal _ (.sigsys _) => decide (m.priv.privMode ≠ privS)
  | _ => false

def isIll : Event → Bool
  | .signal _ .sigill => true
  | _ => false

def isSegv : Event → Bool
  | .signal _ (.sigsegv _) => true
  | _ => false

def isSretEvent (m : Machine) : Event → Bool
  | .signal env .sigill =>
    decide (m.priv.privMode = privS ∧ deref32 env (mapConf env m) m.pc = .ok 0x10200073)
  | _ => false

/-- All records go on by what the event adds. -/
structure Recorded (m : Machine) (e : Event) (m' : Machine) : Prop where
  ill : m'.priv.counterIll = m.priv.counterIll+if isIll e then 1 else 0
  segv : m'.priv.counterSegv = m.priv.counterSegv+if isSegv e then 1 else 0
  sret : m'.priv.counterSret = m.priv.counterSret+if isSretEvent m e then 1 else 0
  uecall : m'.priv.counterUecall = m.priv.counterUecall+if isUecall m e then 1 else 0
  secall : m'.priv.counterSecall = m.priv.counterSecall+if isSecall m e then 1 else 0
  stdout : m'.stdout = (putchar m e).toList++m.stdout
  settimes : m'.settimes = (settime m e).toList++m.settimes

section Step

variable {env : Host} {m mid m' : Machine} {e : Event} {w : BitVec 32} {siSyscall : BitVec 32}

theorem isSret_iff (hop : insOpcode w = opcodeSystem) (hf3 : insFunct3 w = funct3NotCsr) :
    isSret w ↔ w = 0x10200073 := by
  constructor
  · rintro ⟨hf7,hrs2,hrs1,hrd⟩
    exact eq_of_fields (hop.trans (by decide)) (hf3.trans (by decide)) (hf7.trans (by decide))
      (hrs2.trans (by decide)) (hrs1.trans (by decide)) (hrd.trans (by decide))
  · rintro rfl
    decide

/-- The records, the counter of `sret` apart, do not see an emulated instruction. -/
structure SameRecords (m m' : Machine) : Prop where
  ill : m'.priv.counterIll = m.priv.counterIll
  segv : m'.priv.counterSegv = m.priv.counterSegv
  uecall : m'.priv.counterUecall = m.priv.counterUecall
  secall : m'.priv.counterSecall = m.priv.counterSecall
  stdout : m'.stdout = m.stdout
  settimes : m'.settimes = m.settimes

theorem privInstr_records (h : handlePrivInstr m w = .ok m') : SameRecords m m' ∧
    m'.priv.counterSret = m.priv.counterSret+if w = 0x10200073 then 1 else 0 := by
  have hop : insOpcode w = opcodeSystem := by
    by_contra hno
    rw [handlePrivInstr,if_neg hno] at h
    cases h
  have hother : (insFunct3 w = funct3NotCsr → ¬isSret w) → w ≠ 0x10200073 := by
    rintro hno rfl
    exact hno (by decide) (by decide)
  cases handlePrivInstr_effect h with
  | sfenceVma hf3 hsf =>
    have hne := hother fun _ hsret => absurd (hsret.1.symm.trans hsf.1) (by decide)
    exact ⟨⟨rfl,rfl,rfl,rfl,rfl,rfl⟩,by rw [if_neg hne]; exact (BitVec.add_zero _).symm⟩
  | wfi hf3 hwfi =>
    have hne := hother fun _ hsret => absurd (hsret.2.1.symm.trans hwfi.2.1) (by decide)
    exact ⟨⟨rfl,rfl,rfl,rfl,rfl,rfl⟩,by rw [if_neg hne]; exact (BitVec.add_zero _).symm⟩
  | sret hf3 hsret =>
    exact ⟨⟨rfl,rfl,rfl,rfl,rfl,rfl⟩,by rw [if_pos ((isSret_iff hop hf3).mp hsret)]; rfl⟩
  | csrRead hf3 hno =>
    have hne := hother fun hf3' => absurd hf3' hf3
    exact ⟨⟨rfl,rfl,rfl,rfl,rfl,rfl⟩,by rw [if_neg hne]; exact (BitVec.add_zero _).symm⟩
  | csrWrite hf3 hwr hr hw =>
    have hne := hother fun hf3' => absurd hf3' hf3
    rw [if_neg hne]
    cases writeCsr_effect hw <;> exact ⟨⟨rfl,rfl,rfl,rfl,rfl,rfl⟩,(BitVec.add_zero _).symm⟩

theorem legacy_records {m₁ : Machine} {which arg0 ret : Word}
    (h : handleLegacySbiCall env m which arg0 = .ok (m₁,ret)) :
    (∃ sip, m₁.priv = { m.priv with sip := sip }) ∧
    m₁.stdout = (if which = sbiConsolePutchar then some (arg0.setWidth 8) else none).toList++m.stdout ∧
    m₁.settimes =
      (if which = sbiSetTimer then some (timerSpec arg0 env.time) else none).toList++m.settimes := by
  simp only [handleLegacySbiCall] at h
  split_ifs at h with hput hget hshut hset
  · cases h
    have hne : which ≠ sbiSetTimer := by rw [hput]; decide
    rw [if_pos hput,if_neg hne]
    exact ⟨⟨m.priv.sip,rfl⟩,rfl,rfl⟩
  · have hne : which ≠ sbiSetTimer := by rw [hget]; decide
    rw [if_neg hput,if_neg hne]
    cases hr : env.read with
    | failed => simp [hr] at h
    | wouldBlock => rw [hr] at h; cases h; exact ⟨⟨_,rfl⟩,rfl,rfl⟩
    | byte ch => rw [hr] at h; cases h; exact ⟨⟨_,rfl⟩,rfl,rfl⟩
  · cases h
    rw [if_neg hput,if_pos hset]
    exact ⟨⟨_,rfl⟩,rfl,rfl⟩
  · cases h
    rw [if_neg hput,if_neg hset]
    exact ⟨⟨_,rfl⟩,rfl,rfl⟩

theorem add_flag_false (v : Word) : v = v+if false = true then 1 else 0 := (BitVec.add_zero v).symm

theorem ecall_records (h : handleEcall env (mapConf env m) siSyscall = .ok mid) :
    Recorded m (.signal env (.sigsys siSyscall)) mid := by
  have hmode : (mapConf env m).priv.privMode = m.priv.privMode := rfl
  have harg : (fixA7 (mapConf env m) siSyscall).regs 10 = m.regs 10 := by
    simp [fixA7,Machine.setReg,mapConf]
  rw [handleEcall,hmode] at h
  by_cases hs : m.priv.privMode = privS
  · have hcall : sbiCall m (.signal env (.sigsys siSyscall)) = some (env,siSyscall.signExtend 64) :=
      if_pos hs
    have hu : isUecall m (.signal env (.sigsys siSyscall)) = false := decide_eq_false (not_not.mpr hs)
    rw [if_pos hs,harg] at h
    obtain ⟨⟨m₁,ret⟩,h₁,h⟩ := bind_ok.mp h
    cases h
    obtain ⟨⟨sip,hpriv⟩,hout,hset⟩ := legacy_records h₁
    constructor
    · exact (congrArg PrivState.counterIll hpriv).trans (add_flag_false _)
    · exact (congrArg PrivState.counterSegv hpriv).trans (add_flag_false _)
    · exact (congrArg PrivState.counterSret hpriv).trans (add_flag_false _)
    · rw [hu]
      exact (congrArg PrivState.counterUecall hpriv).trans (add_flag_false _)
    · rw [isSecall,hcall]
      exact congrArg PrivState.counterSecall hpriv
    · rw [putchar,hcall]
      exact hout
    · rw [settime,hcall]
      exact hset
  · have hcall : sbiCall m (.signal env (.sigsys siSyscall)) = none := if_neg hs
    have hu : isUecall m (.signal env (.sigsys siSyscall)) = true := decide_eq_true hs
    rw [if_neg hs] at h
    cases h
    constructor
    · exact add_flag_false _
    · exact add_flag_false _
    · exact add_flag_false _
    · rw [hu]
      rfl
    · rw [isSecall,hcall]
      exact add_flag_false _
    · rw [putchar,hcall]
      rfl
    · rw [settime,hcall]
      rfl

theorem illegal_records (h : handleIllegal env (mapConf env m) = .ok mid) :
    Recorded m (.signal env .sigill) mid := by
  have hmode : (mapConf env m).priv.privMode = m.priv.privMode := rfl
  rw [handleIllegal,hmode] at h
  by_cases hs : m.priv.privMode = privS
  · rw [if_pos hs] at h
    obtain ⟨c,-,h⟩ := bind_ok.mp h
    split_ifs at h
    obtain ⟨w,hw,h⟩ := bind_ok.mp h
    obtain ⟨hsame,hsret⟩ := privInstr_records h
    have hw' : deref32 env (mapConf env m) m.pc = .ok w := hw
    have hevent : isSretEvent m (.signal env .sigill) = decide (w = 0x10200073) := by
      simp only [isSretEvent,hs,true_and,hw',Except.ok.injEq]
    refine ⟨hsame.ill,hsame.segv.trans (add_flag_false _),?_,hsame.uecall.trans (add_flag_false _),
      hsame.secall.trans (add_flag_false _),hsame.stdout,hsame.settimes⟩
    rw [hsret,hevent]
    simp only [decide_eq_true_eq]
    rfl
  · rw [if_neg hs] at h
    cases h
    have hevent : isSretEvent m (.signal env .sigill) = false := decide_eq_false fun h => hs h.1
    refine ⟨rfl,add_flag_false _,?_,add_flag_false _,add_flag_false _,rfl,rfl⟩
    rw [hevent]
    exact add_flag_false _

theorem segv_records {a : Word} {scause : Word}
    (h : FaultEffect env (countSegv (mapConf env m)) scause a mid) :
    Recorded m (.signal env (.sigsegv a)) mid := by
  have hall : ∀ {t : Machine}, t.priv.counterIll = m.priv.counterIll →
      t.priv.counterSegv = m.priv.counterSegv+1 → t.priv.counterSret = m.priv.counterSret →
      t.priv.counterUecall = m.priv.counterUecall → t.priv.counterSecall = m.priv.counterSecall →
      t.stdout = m.stdout → t.settimes = m.settimes → Recorded m (.signal env (.sigsegv a)) t :=
    fun h₁ h₂ h₃ h₄ h₅ h₆ h₇ => ⟨h₁.trans (add_flag_false _),h₂,h₃.trans (add_flag_false _),
      h₄.trans (add_flag_false _),h₅.trans (add_flag_false _),h₆,h₇⟩
  cases h with
  | noLeaf _ => exact hall rfl rfl rfl rfl rfl rfl rfl
  | denied _ _ _ _ _ => exact hall rfl rfl rfl rfl rfl rfl rfl
  | mapped _ _ _ _ _ => exact hall rfl rfl rfl rfl rfl rfl rfl
  | device _ _ _ _ _ hframe =>
    obtain ⟨blockId,buf,ram,block,pc,rfl⟩ := hframe
    exact hall rfl rfl rfl rfl rfl rfl rfl

theorem alarm_records : Recorded m (.signal env (.sigalrm siTimer))
    { mapConf env m with priv := { m.priv with sip := setSixSti m.priv.sip 1 } } :=
  ⟨add_flag_false _,add_flag_false _,add_flag_false _,add_flag_false _,add_flag_false _,rfl,rfl⟩

theorem Recorded.resume (h : Recorded m e mid) :
    Recorded m e (unmapConf env (clearVm (takeInterrupt mid))) := by
  have hpriv := resume_priv env (takeInterrupt mid)
  have htake : SameRecords mid (takeInterrupt mid) ∧
      (takeInterrupt mid).priv.counterSret = mid.priv.counterSret := by
    rw [takeInterrupt]
    split_ifs <;> exact ⟨⟨rfl,rfl,rfl,rfl,rfl,rfl⟩,rfl⟩
  have hout : (unmapConf env (clearVm (takeInterrupt mid))).stdout = (takeInterrupt mid).stdout ∧
      (unmapConf env (clearVm (takeInterrupt mid))).settimes = (takeInterrupt mid).settimes := by
    simp only [unmapConf,clearVm]
    split_ifs <;> exact ⟨rfl,rfl⟩
  obtain ⟨hsame,hsret⟩ := htake
  exact ⟨(congrArg PrivState.counterIll hpriv).trans (hsame.ill.trans h.ill),
    (congrArg PrivState.counterSegv hpriv).trans (hsame.segv.trans h.segv),
    (congrArg PrivState.counterSret hpriv).trans (hsret.trans h.sret),
    (congrArg PrivState.counterUecall hpriv).trans (hsame.uecall.trans h.uecall),
    (congrArg PrivState.counterSecall hpriv).trans (hsame.secall.trans h.secall),
    hout.1.trans (hsame.stdout.trans h.stdout),hout.2.trans (hsame.settimes.trans h.settimes)⟩

theorem step_recorded (hs : Step m e m') : Recorded m e m' := by
  cases hs with
  | guest ram regs =>
    exact ⟨add_flag_false _,add_flag_false _,add_flag_false _,add_flag_false _,add_flag_false _,
      rfl,rfl⟩
  | @signal _ env sig hfree hh =>
    obtain ⟨mid,hmid,heff,rfl⟩ := handler_effect hfree hh
    apply Recorded.resume
    cases sig with
    | sigsys siSyscall => exact ecall_records hmid
    | sigill => exact illegal_records hmid
    | sigalrm siCode =>
      cases heff
      exact alarm_records
    | sigsegv a =>
      cases heff with
      | fault _ hf => exact segv_records hf

end Step

/-- Over the events of a run, each with the state it found: every counter is the number
of its events modulo the word size, and the console and the timer settings are those of
the calls, in their order. -/
structure Accounts (ps : List (Machine × Event)) (m : Machine) : Prop where
  ill : m.priv.counterIll = BitVec.ofNat 64 (ps.countP fun p => isIll p.2)
  segv : m.priv.counterSegv = BitVec.ofNat 64 (ps.countP fun p => isSegv p.2)
  sret : m.priv.counterSret = BitVec.ofNat 64 (ps.countP fun p => isSretEvent p.1 p.2)
  uecall : m.priv.counterUecall = BitVec.ofNat 64 (ps.countP fun p => isUecall p.1 p.2)
  secall : m.priv.counterSecall = BitVec.ofNat 64 (ps.countP fun p => isSecall p.1 p.2)
  stdout : m.stdout.reverse = ps.filterMap fun p => putchar p.1 p.2
  settimes : m.settimes.reverse = ps.filterMap fun p => settime p.1 p.2

theorem accounts_of_run {b : BootData} {ps : List (Machine × Event)} {m : Machine}
    (hrun : Run (Visit Step) (boot b) ps m) : Accounts ps m := by
  have hcount : ∀ (f : Machine → Word) (W : Machine × Event → Bool), f (boot b) = 0 →
      (∀ a e c, Step a e c → f c = f a+if W (a,e) then 1 else 0) →
      f m = BitVec.ofNat 64 (ps.countP W) := by
    intro f W h₀ hf
    rw [hrun.counts f W hf,h₀]
    exact BitVec.zero_add _
  have hlog : ∀ {β : Type} (f : Machine → List β) (out : Machine × Event → Option β),
      f (boot b) = [] → (∀ a e c, Step a e c → f c = (out (a,e)).toList++f a) →
      (f m).reverse = ps.filterMap out := by
    intro β f out h₀ hf
    rw [hrun.logs f out hf,h₀,List.append_nil,List.reverse_reverse]
  constructor
  · exact hcount (fun m => m.priv.counterIll) _ rfl fun _ _ _ hs => (step_recorded hs).ill
  · exact hcount (fun m => m.priv.counterSegv) _ rfl fun _ _ _ hs => (step_recorded hs).segv
  · exact hcount (fun m => m.priv.counterSret) _ rfl fun _ _ _ hs => (step_recorded hs).sret
  · exact hcount (fun m => m.priv.counterUecall) _ rfl fun _ _ _ hs => (step_recorded hs).uecall
  · exact hcount (fun m => m.priv.counterSecall) _ rfl fun _ _ _ hs => (step_recorded hs).secall
  · exact hlog Machine.stdout _ rfl fun _ _ _ hs => (step_recorded hs).stdout
  · exact hlog Machine.settimes _ rfl fun _ _ _ hs => (step_recorded hs).settimes

theorem run_recorded {b : BootData} {es : List Event} {m : Machine} (h : Run Step (boot b) es m) :
    ∃ ps : List (Machine × Event),
      ps.map Prod.snd = es ∧ Run (Visit Step) (boot b) ps m ∧ Accounts ps m := by
  obtain ⟨ps,hes,hrun⟩ := h.visits
  exact ⟨ps,hes,hrun,accounts_of_run hrun⟩

/-- The small guest calls the firmware twice, goes to U-mode and makes a call there. -/
def callEvents : List Event :=
  [.guest (boot (smallData sv39Kernel)).ram
      (Function.update (Function.update (smallRegs kernelStart 0 0) 17 1) 10 0x76),
    .signal smallHost (.sigsys 1),
    .guest (boot (smallData sv39Kernel)).ram (Function.update (smallRegs kernelStart 0 0) 10 100),
    .signal smallHost (.sigsys 0)]++sv39Events 0x2008001f++[.signal smallHost (.sigsys 0)]

def callMachine : Machine := smallAfter sv39Kernel callEvents

/-- A letter, a deadline in 100 ticks, and one call from U-mode. -/
theorem run_recorded_calls : ∃ ps : List (Machine × Event),
    ps.map Prod.snd = callEvents ∧ Run (Visit Step) (boot (smallData sv39Kernel)) ps callMachine ∧
    Accounts ps callMachine ∧ callMachine.stdout = [0x76] ∧ callMachine.settimes = [⟨0,100000⟩] ∧
    callMachine.priv.counterSecall = 2 ∧ callMachine.priv.counterUecall = 1 ∧
    callMachine.priv.counterIll = 3 := by
  have hreplays : Replays sv39Kernel callEvents := by decide +kernel
  have hrun : Run Step (boot (smallData sv39Kernel)) callEvents callMachine := small_run hreplays
  have hlogs : callMachine.stdout = [0x76] ∧ callMachine.settimes = [⟨0,100000⟩] := by decide +kernel
  have hcounters : callMachine.priv.counterSecall = 2 ∧ callMachine.priv.counterUecall = 1 ∧
      callMachine.priv.counterIll = 3 := by decide +kernel
  obtain ⟨ps,hes,hvisits,haccounts⟩ := run_recorded hrun
  exact ⟨ps,hes,hvisits,haccounts,hlogs.1,hlogs.2,hcounters⟩

end Urvirt
