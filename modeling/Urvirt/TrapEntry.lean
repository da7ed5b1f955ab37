import Urvirt.CsrAccess

/-!
# Trap entry

What a trap leaves for its handler: the CSRs as the privileged specification has
them, bit by bit, the vector, and the registers of the interrupted program.
-/

namespace Urvirt

open Bitfield Transition

/-- The address a trap goes to. The mode of `stvec` is in its low two bits, and the
top bit of the cause tells interrupts from exceptions. -/
def vectorAddress (stvec cause : ℕ) : ℕ :=
  if 2^63 ≤ cause ∧ stvec%4 = 1 then (stvec/4*4+4*(cause-2^63))%2^64 else stvec/4*4

theorem toNat_base (stvec : Word) : (stvec &&& ~~~stvecModeMask).toNat = stvec.toNat/4*4 := by
  have hshift : stvec &&& ~~~stvecModeMask = (stvec >>> 2) <<< 2 := by
    apply BitVec.eq_of_getLsbD_eq
    intro i hi
    have hmask : stvecModeMask = mask 0 2 := by decide
    rw [hmask,BitVec.getLsbD_and,BitVec.getLsbD_not,getLsbD_mask (by decide),
      BitVec.getLsbD_shiftLeft,BitVec.getLsbD_ushiftRight]
    by_cases h2 : i < 2
    · simp [hi,h2]
    · simp [hi,h2,show 2+(i-2) = i by omega]
  have hlt := stvec.isLt
  rw [hshift,BitVec.toNat_shiftLeft,BitVec.toNat_ushiftRight,Nat.shiftRight_eq_div_pow,
    Nat.shiftLeft_eq,Nat.mod_eq_of_lt (by omega)]

theorem isInt_iff (cause : Word) : cause &&& scauseIsInt = 0 ↔ cause.toNat < 2^63 := by
  have hbit : ∀ i, (cause &&& scauseIsInt).getLsbD i = (cause.getLsbD i && decide (i = 63)) := by
    intro i
    have hmask : scauseIsInt = mask 63 1 := by decide
    rw [hmask,BitVec.getLsbD_and,getLsbD_mask (by decide)]
    have hi : (i < 64 ∧ 63 ≤ i) ∧ i < 64 ↔ i = 63 := by omega
    simp [← hi]
  have htop : cause.getLsbD 63 = decide (2^63 ≤ cause.toNat) :=
    (BitVec.msb_eq_getLsbD_last cause).symm.trans (BitVec.msb_eq_decide cause)
  rw [← Nat.not_le,← decide_eq_false_iff_not (p:=2^63 ≤ cause.toNat),← htop]
  constructor
  · intro h
    have h63 := hbit 63
    rw [h] at h63
    simpa using h63.symm
  · intro h
    apply BitVec.eq_of_getLsbD_eq
    intro i _
    rw [hbit]
    by_cases h63 : i = 63
    · rw [h63,h]
      rfl
    · rw [decide_eq_false h63,Bool.and_false]
      simp

theorem toNat_trapTarget {priv : PrivState} (h : Legal priv) (cause : Word) :
    (trapTarget priv cause).toNat = vectorAddress priv.stvec.toNat cause.toNat := by
  have hbase := toNat_base priv.stvec
  have hmode : ∀ v : Word, priv.stvec &&& stvecModeMask = v ↔ priv.stvec.toNat%2^2 = v.toNat :=
    fun v => and_eq_iff rfl
  have hdir : stvecDirect.toNat = 0 := rfl
  have hvec : stvecVectored.toNat = 1 := rfl
  have hlegal := h.stvec
  rw [hmode,hmode,hdir,hvec] at hlegal
  simp only [trapTarget,hmode,isInt_iff,hdir,vectorAddress]
  by_cases hint : 2^63 ≤ cause.toNat ∧ priv.stvec.toNat%4 = 1
  · have hlt := cause.isLt
    rw [if_pos hint,if_neg (by omega),BitVec.toNat_add,BitVec.toNat_mul,hbase]
    have hfour : (4 : Word).toNat = 4 := rfl
    rw [hfour]
    omega
  · rw [if_neg hint,if_pos (by omega),hbase]

theorem getLsbD_trapStatus (mode sstatus : Word) (i : ℕ) :
    (trapStatus mode sstatus).getLsbD i =
      if i = 1 then false else if i = 5 then sstatus.getLsbD 1
      else if i = 8 then decide (mode = privS) else sstatus.getLsbD i := by
  let s₁ := setSstatusSpp sstatus (if mode = privS then sstatusSppS else sstatusSppU)
  have hs₁ : ∀ j, s₁.getLsbD j = if j = 8 then decide (mode = privS) else sstatus.getLsbD j := by
    intro j
    refine (getLsbD_set_one (by decide) _ (isFlag_spp mode) j).trans ?_
    by_cases hm : mode = privS
    · simp [hm,sstatusSppS]
    · simp [hm,sstatusSppU]
  have hsie : (getSstatusSie s₁).getLsbD 0 = sstatus.getLsbD 1 := by
    rw [getSstatusSie,getLsbD_get (by decide),hs₁]
    rfl
  have hspie : (setSstatusSpie s₁ (getSstatusSie s₁)).getLsbD i =
      if i = 5 then sstatus.getLsbD 1 else s₁.getLsbD i := by
    refine (getLsbD_set_one (by decide) _ (isFlag_get (by decide) _ _) i).trans ?_
    exact congrArg (if i = 5 then · else s₁.getLsbD i) hsie
  refine (getLsbD_set_one (by decide) _ isFlag_zero i).trans ?_
  rw [hspie,hs₁]
  rfl

/-- The trap that the specification wants: `m` is the machine before it and
`m'` the one its handler starts with. -/
structure TrapEntered (m : Machine) (epc cause tval : Word) (m' : Machine) : Prop where
  sepc : m'.priv.sepc = epc
  scause : m'.priv.scause = cause
  stval : m'.priv.stval = tval
  spp : m'.priv.sstatus.getLsbD 8 = decide (m.priv.privMode = privS)
  spie : m'.priv.sstatus.getLsbD 5 = m.priv.sstatus.getLsbD 1
  sie : m'.priv.sstatus.getLsbD 1 = false
  status : ∀ i, i ≠ 8 → i ≠ 5 → i ≠ 1 → m'.priv.sstatus.getLsbD i = m.priv.sstatus.getLsbD i
  others : ∀ c : Csr, c ∉ [.sepc,.scause,.stval,.sstatus] → c.value m'.priv = c.value m.priv
  mode : m'.priv.privMode = privS
  pc : m'.pc.toNat = vectorAddress m.priv.stvec.toNat cause.toNat

/-- The trap is entered from a machine with the same CSRs, and the handler of the
signal returns. -/
theorem trapEntered_of_enterTrap {m : Machine} (env : Host) (m₁ : Machine) (cause tval : Word)
    (hl : Legal m.priv) (hp : SameCsrs m.priv m₁.priv) (hsip : m₁.priv.sip = m.priv.sip) :
    TrapEntered m m₁.pc cause tval (unmapConf env (clearVm (enterTrap m₁ cause tval))) := by
  have hpriv := resume_priv env (enterTrap m₁ cause tval)
  have hbit := getLsbD_trapStatus m₁.priv.privMode m₁.priv.sstatus
  have hpc : (unmapConf env (clearVm (enterTrap m₁ cause tval))).pc = trapTarget m.priv cause := by
    rw [resume_pc,enterTrap_pc,trapTarget_congr hp.stvec]
  refine ⟨?_,?_,?_,?_,?_,?_,fun i h8 h5 h1 => ?_,fun c hc => ?_,?_,?_⟩
  · rw [hpriv]; rfl
  · rw [hpriv]; rfl
  · rw [hpriv]; rfl
  · rw [hpriv,← hp.privMode]; exact hbit 8
  · rw [hpriv,← hp.sstatus]; exact hbit 5
  · rw [hpriv]; exact hbit 1
  · rw [hpriv,← hp.sstatus]
    refine (hbit i).trans ?_
    rw [if_neg h1,if_neg h5,if_neg h8]
  · rw [hpriv]
    cases c with
    | sstatus => simp at hc
    | sepc => simp at hc
    | scause => simp at hc
    | stval => simp at hc
    | sie => exact hp.sie
    | stvec => exact hp.stvec
    | sscratch => exact hp.sscratch
    | sip => exact hsip
    | satp => exact hp.satp
  · rw [hpriv]; rfl
  · rw [hpc,toNat_trapTarget hl]

/-- The traps of a signal that arrives in `m`. An `ecall` is reported with the pc
behind it. The interrupt is relative to `mid`, where the event has been emulated. -/
inductive Trapped (env : Host) (m : Machine) (m' : Machine) : Signal → Prop
  | uecall {siSyscall : BitVec 32} : m.priv.privMode = privU →
      TrapEntered m (m.pc-4) 8 0 m' → Trapped env m m' (.sigsys siSyscall)
  | illegal : m.priv.privMode = privU → TrapEntered m m.pc 2 0 m' → Trapped env m m' .sigill
  | fault {siAddr cause : Word} : segvCause env (mapConf env m) siAddr = .ok cause →
      TrapEntered m m.pc cause siAddr m' → Trapped env m m' (.sigsegv siAddr)
  | timer {sig : Signal} {mid : Machine} : emulate env sig m = .ok mid → mid.traps = m.traps →
      TimerDue mid.priv → TrapEntered mid mid.pc 0x8000000000000005 0 m' → Trapped env m m' sig

theorem SameCsrs.refl (priv : PrivState) : SameCsrs priv priv := by constructor <;> rfl

theorem privU_of_ne {priv : PrivState} (h : Legal priv) (hne : priv.privMode ≠ privS) :
    priv.privMode = privU := h.mode.resolve_right hne

section Step

variable {env : Host} {m mid m' : Machine} {sig : Signal}

theorem SignalEffect.trapped (h : SignalEffect env (mapConf env m) sig mid) (hl : Legal m.priv)
    (ht : mid.traps ≠ m.traps) :
    Trapped env m (unmapConf env (clearVm (takeInterrupt mid))) sig := by
  have hsame := SameCsrs.refl m.priv
  cases h with
  | sbiQuiet _ _ => exact absurd rfl ht
  | sbiSetTimer _ _ => exact absurd rfl ht
  | @uecall siSyscall hu =>
    let m₁ := (countUecall (fixA7 (mapConf env m) siSyscall)).setPc (m.pc-4)
    have hpc : m₁.pc = m.pc-4 := Machine.setPc_pc _ _
    have htrap := trapEntered_of_enterTrap env m₁ 8 0 hl { hsame with } rfl
    rw [hpc] at htrap
    rw [takeInterrupt_enterTrap]
    exact .uecall (privU_of_ne hl hu) htrap
  | privInstr _ _ _ hp => cases hp <;> exact absurd rfl ht
  | illegal hu =>
    rw [takeInterrupt_enterTrap]
    exact .illegal (privU_of_ne hl hu)
      (trapEntered_of_enterTrap env (countIll (mapConf env m)) 2 0 hl { hsame with } rfl)
  | alarm => exact absurd rfl ht
  | @fault siAddr cause _ hc hf =>
    have htrap := trapEntered_of_enterTrap env (countSegv (mapConf env m)) cause siAddr hl
      { hsame with } rfl
    cases hf with
    | noLeaf _ =>
      rw [takeInterrupt_enterTrap]
      exact .fault hc htrap
    | denied _ _ _ _ _ =>
      rw [takeInterrupt_enterTrap]
      exact .fault hc htrap
    | mapped _ _ _ _ _ => exact absurd rfl ht
    | device _ _ _ _ _ hframe =>
      obtain ⟨blockId,buf,ram,block,pc,rfl⟩ := hframe
      exact absurd rfl ht

theorem step_trapped (hl : Legal m.priv) (hs : Step m (.signal env sig) m')
    (ht : m'.traps ≠ m.traps) : Trapped env m m' sig := by
  cases hs with
  | signal hfree hh =>
    obtain ⟨mid,hmid,heff,rfl⟩ := handler_effect hfree hh
    by_cases hmt : mid.traps = m.traps
    · have hlmid : Legal mid.priv := Legal.signalEffect (m:=mapConf env m) hl heff
      have hpend : interruptPending mid.priv := by
        by_contra hno
        rw [takeInterrupt,if_neg hno,resume_traps] at ht
        exact ht hmt
      have hcause : scauseTimer = 0x8000000000000005 := by decide
      rw [takeInterrupt,if_pos hpend,hcause]
      exact .timer hmid hmt ((timerDue_iff hlmid).mpr hpend)
        (trapEntered_of_enterTrap env mid _ 0 hlmid (SameCsrs.refl _) rfl)
    · exact heff.trapped hl hmt

end Step

/-- Every trap of a run is entered the way the specification says, and the vector
is right for every cause. -/
theorem trap_entry_specified {b : BootData} {es : List Event} {m : Machine}
    (h : Run Step (boot b) es m) :
    (∀ env sig m', Step m (.signal env sig) m' → m'.traps ≠ m.traps → Trapped env m m' sig) ∧
    (∀ cause tval, (enterTrap m cause tval).pc.toNat =
      vectorAddress m.priv.stvec.toNat cause.toNat) := by
  have hl := (run_legal h).1
  refine ⟨fun env sig m' => step_trapped hl,fun cause tval => ?_⟩
  rw [enterTrap_pc,toNat_trapTarget hl]

/-- The timer interrupt of the small guest in U-mode. -/
theorem trap_entry_specified_timer : ∃ m m',
    Run Step (boot (smallData timerKernel)) timerEvents m ∧
    Step m (.signal smallHost (.sigalrm siTimer)) m' ∧ m'.priv.sepc = kernelStart ∧
    Trapped smallHost m m' (.sigalrm siTimer) := by
  have hreplays : Replays timerKernel timerEvents := by decide +kernel
  have hreplays' : Replays timerKernel
      (timerEvents++[.signal smallHost (.sigalrm siTimer)]) := by decide +kernel
  have hstep := small_step hreplays'
  exact ⟨_,_,small_run hreplays,hstep,by decide +kernel,
    (trap_entry_specified (small_run hreplays)).1 _ _ _ hstep (by decide +kernel)⟩

/-- What Linux hands to the handler: the registers at the instruction, but for `a7`
at an `ecall`, of which it gives the low half. -/
structure ContextHolds (x : Regs) (m : Machine) (sig : Signal) : Prop where
  regs : ∀ i, i ≠ 0 → (i = 17 → ∀ n, sig ≠ .sigsys n) → m.regs i = x i
  syscall : ∀ n, sig = .sigsys n → n = (x 17).setWidth 32

def fixedRegs (regs : Regs) : Signal → Regs
  | .sigsys siSyscall => Function.update regs 17 (siSyscall.signExtend 64)
  | _ => regs

section Registers

variable {env : Host} {m mid m' : Machine} {sig : Signal}

theorem enterTrap_reg (m : Machine) (cause tval : Word) {i : Fin 32} (hi : i ≠ 0) :
    (enterTrap m cause tval).regs i = m.regs i := Function.update_of_ne hi _ _

theorem takeInterrupt_reg (m : Machine) {i : Fin 32} (hi : i ≠ 0) :
    (takeInterrupt m).regs i = m.regs i := by
  simp only [takeInterrupt]
  split_ifs
  · exact enterTrap_reg m scauseTimer 0 hi
  · rfl

theorem resume_regs (env : Host) (m : Machine) : (unmapConf env (clearVm m)).regs = m.regs := by
  simp only [unmapConf,clearVm]
  split_ifs <;> rfl

theorem SignalEffect.reg (h : SignalEffect env m sig mid) (hns : m.priv.privMode ≠ privS)
    {i : Fin 32} (hi : i ≠ 0) : mid.regs i = fixedRegs m.regs sig i := by
  cases h with
  | sbiQuiet hs _ => exact absurd hs hns
  | sbiSetTimer hs _ => exact absurd hs hns
  | uecall _ =>
    rw [enterTrap_reg _ _ _ hi]
    exact Function.update_of_ne hi _ _
  | privInstr hs _ _ _ => exact absurd hs hns
  | illegal _ => exact enterTrap_reg _ _ _ hi
  | alarm => rfl
  | fault _ hf =>
    cases hf with
    | noLeaf _ => exact enterTrap_reg _ _ _ hi
    | denied _ _ _ _ _ => exact enterTrap_reg _ _ _ hi
    | mapped _ _ _ _ _ => rfl
    | device _ _ _ _ _ hframe =>
      obtain ⟨blockId,buf,ram,block,pc,rfl⟩ := hframe
      exact Function.update_of_ne hi _ _

theorem step_reg (hs : Step m (.signal env sig) m') (hns : m.priv.privMode ≠ privS) {i : Fin 32}
    (hi : i ≠ 0) : m'.regs i = fixedRegs m.regs sig i := by
  cases hs with
  | signal hfree hh =>
    obtain ⟨mid,-,heff,rfl⟩ := handler_effect hfree hh
    rw [resume_regs,takeInterrupt_reg mid hi]
    exact SignalEffect.reg (m:=mapConf env m) heff hns hi

end Registers

/-- Whatever runs after a signal from U-mode, the S-mode handler if it traps, starts
with the registers of the program exactly when `a7`, at an `ecall`, is the sign
extension of the half that Linux reports. -/
theorem trap_keeps_registers_iff {env : Host} {m m' : Machine} {sig : Signal} {x : Regs}
    (hu : m.priv.privMode = privU) (hs : Step m (.signal env sig) m') (hx : ContextHolds x m sig) :
    (∀ i, i ≠ 0 → m'.regs i = x i) ↔
      ∀ n, sig = .sigsys n → x 17 = ((x 17).setWidth 32).signExtend 64 := by
  have hns : m.priv.privMode ≠ privS := by rw [hu]; decide
  constructor
  · rintro hkeep n rfl
    have hn := hx.syscall n rfl
    have h17 : m'.regs 17 = n.signExtend 64 :=
      (step_reg hs hns (by decide)).trans (Function.update_self 17 _ m.regs)
    rw [← hn,← h17,hkeep 17 (by decide)]
  · intro hfix i hi
    rw [step_reg hs hns hi]
    cases sig with
    | sigsys n =>
      by_cases h17 : i = 17
      · subst h17
        have hn := hx.syscall n rfl
        rw [hfix n rfl,← hn]
        exact Function.update_self 17 _ m.regs
      · exact (Function.update_of_ne h17 _ _).trans (hx.regs i hi fun h => absurd h h17)
    | sigill => exact hx.regs i hi fun _ n h => nomatch h
    | sigalrm _ => exact hx.regs i hi fun _ n h => nomatch h
    | sigsegv _ => exact hx.regs i hi fun _ n h => nomatch h

def ecallRegs (a7 : Word) : Regs := Function.update (smallRegs (kernelStart+4) 7 0) 17 a7

def ecallEvents (a7 : Word) : List Event :=
  sv39Events 0x2008001f++[.guest (fun _ => 0) (ecallRegs a7)]

def ecallMachine (a7 : Word) : Machine := smallAfter sv39Kernel (ecallEvents a7)

theorem ecallMachine_regs {a7 : Word} (h : Replays sv39Kernel (ecallEvents a7)) :
    (ecallMachine a7).regs = ecallRegs a7 := by
  unfold ecallMachine
  unfold ecallEvents at h ⊢
  exact small_guest_regs h

theorem ecallMachine_context {a7 : Word} (h : Replays sv39Kernel (ecallEvents a7)) :
    ContextHolds (ecallRegs a7) (ecallMachine a7) (.sigsys (a7.setWidth 32)) where
  regs i _ _ := by rw [ecallMachine_regs h]
  syscall n hn := by
    cases hn
    rfl

theorem trap_keeps_registers_iff_ecall : ∃ m',
    Run Step (boot (smallData sv39Kernel)) (ecallEvents 64) (ecallMachine 64) ∧
    Step (ecallMachine 64) (.signal smallHost (.sigsys 64)) m' ∧ m'.priv.privMode = privS ∧
    ∀ i, i ≠ 0 → m'.regs i = ecallRegs 64 i := by
  have hreplays : Replays sv39Kernel (ecallEvents 64++[.signal smallHost (.sigsys 64)]) := by
    decide +kernel
  have hstep := small_step hreplays
  have hkeep := trap_keeps_registers_iff (m:=ecallMachine 64) (by decide +kernel) hstep
    (ecallMachine_context hreplays.left)
  exact ⟨_,small_run hreplays.left,hstep,by decide +kernel,hkeep.mpr fun _ _ => by decide⟩

/-- An `ecall` with `a7` at 2^32 reaches the S-mode handler with `a7` at zero. -/
theorem wide_a7_lost : ∃ m',
    Run Step (boot (smallData sv39Kernel)) (ecallEvents 0x100000000) (ecallMachine 0x100000000) ∧
    (ecallMachine 0x100000000).priv.privMode = privU ∧
    ContextHolds (ecallRegs 0x100000000) (ecallMachine 0x100000000) (.sigsys 0) ∧
    Step (ecallMachine 0x100000000) (.signal smallHost (.sigsys 0)) m' ∧
    m'.priv.privMode = privS ∧ ecallRegs 0x100000000 17 = 0x100000000 ∧ m'.regs 17 = 0 := by
  have hreplays : Replays sv39Kernel
      (ecallEvents 0x100000000++[.signal smallHost (.sigsys 0)]) := by decide +kernel
  exact ⟨_,small_run hreplays.left,by decide +kernel,ecallMachine_context hreplays.left,
    small_step hreplays,by decide +kernel,by decide +kernel,by decide +kernel⟩

end Urvirt
