import Urvirt.LegalState

/-!
# Delivery of traps

One handler invocation enters at most one trap: trap entry leaves S-mode with
interrupts off, so the interrupt test at the end of the handler does not fire
after it. Out of U-mode there is no other way than the vector in `stvec`.
-/

namespace Urvirt

open Transition

theorem not_interruptPending {priv : PrivState} (hsie : getSstatusSie priv.sstatus = 0)
    (hmode : priv.privMode = privS) : ¬interruptPending priv := by
  rintro ⟨-,-,h | h⟩
  · exact h hsie
  · rw [hmode] at h
    exact absurd h (by decide)

theorem takeInterrupt_enterTrap (m : Machine) (scause stval : Word) :
    takeInterrupt (enterTrap m scause stval) = enterTrap m scause stval :=
  if_neg (not_interruptPending (trapStatus_sie _ _) rfl)

theorem takeInterrupt_not_pending (m : Machine) : ¬interruptPending (takeInterrupt m).priv := by
  by_cases h : interruptPending m.priv
  · rw [takeInterrupt,if_pos h]
    exact not_interruptPending (trapStatus_sie _ _) rfl
  · rw [takeInterrupt,if_neg h]
    exact h

/-- The CSRs that matter to a trap, the mode and the stub range are the same. -/
structure SameCsrs (priv priv' : PrivState) : Prop where
  privMode : priv'.privMode = priv.privMode
  sstatus : priv'.sstatus = priv.sstatus
  sscratch : priv'.sscratch = priv.sscratch
  stvec : priv'.stvec = priv.stvec
  sepc : priv'.sepc = priv.sepc
  scause : priv'.scause = priv.scause
  stval : priv'.stval = priv.stval
  sie : priv'.sie = priv.sie
  satp : priv'.satp = priv.satp
  stubStart : priv'.stubStart = priv.stubStart
  stubSize : priv'.stubSize = priv.stubSize

def EntersFrom (m mid : Machine) : Prop :=
  ∃ m₁ scause stval, SameCsrs m.priv m₁.priv ∧ m₁.priv.sip = m.priv.sip ∧ m₁.traps = m.traps ∧
    mid = enterTrap m₁ scause stval

theorem entersFrom_uecall (m : Machine) (siSyscall : BitVec 32) : EntersFrom m
    (enterTrap ((countUecall (fixA7 m siSyscall)).setPc (m.pc-4)) scauseUecall 0) :=
  ⟨(countUecall (fixA7 m siSyscall)).setPc (m.pc-4),_,_,
    by constructor <;> rfl,rfl,rfl,rfl⟩

theorem entersFrom_illegal (m : Machine) : EntersFrom m (enterTrap (countIll m) scauseIllegal 0) :=
  ⟨countIll m,_,_,by constructor <;> rfl,rfl,rfl,rfl⟩

theorem FaultEffect.trap {env : Host} {m mid : Machine} {scause stval : Word}
    (h : FaultEffect env m scause stval mid) :
    EntersFrom m mid ∨ (SameCsrs m.priv mid.priv ∧ mid.traps = m.traps ∧
      mid.priv.sip = m.priv.sip) := by
  have hself : SameCsrs m.priv m.priv := by constructor <;> rfl
  cases h with
  | noLeaf _ => exact .inl ⟨m,scause,stval,hself,rfl,rfl,rfl⟩
  | denied _ _ _ _ _ => exact .inl ⟨m,scause,stval,hself,rfl,rfl,rfl⟩
  | mapped _ _ _ _ _ => exact .inr ⟨hself,rfl,rfl⟩
  | device _ _ _ _ _ hframe =>
    obtain ⟨blockId,buf,ram,block,pc,rfl⟩ := hframe
    exact .inr ⟨by constructor <;> rfl,rfl,rfl⟩

/-- A signal case enters one trap or none. -/
theorem SignalEffect.trap {env : Host} {m mid : Machine} {sig : Signal}
    (h : SignalEffect env m sig mid) : EntersFrom m mid ∨ mid.traps = m.traps := by
  cases h with
  | sbiQuiet _ _ => exact .inr rfl
  | sbiSetTimer _ _ => exact .inr rfl
  | uecall _ => exact .inl (entersFrom_uecall m _)
  | privInstr _ _ _ hp => cases hp <;> exact .inr rfl
  | illegal _ => exact .inl (entersFrom_illegal m)
  | alarm => exact .inr rfl
  | fault _ hf =>
    rcases hf.trap with ⟨m₁,scause,stval,hp,hsip,ht,rfl⟩ | ⟨-,ht,-⟩
    · exact .inl ⟨m₁,scause,stval,{ hp with },hsip,ht,rfl⟩
    · exact .inr ht

/-- In U-mode a signal case enters a trap or leaves the CSRs alone. -/
theorem SignalEffect.umode {env : Host} {m mid : Machine} {sig : Signal}
    (h : SignalEffect env m sig mid) (hu : m.priv.privMode = privU) :
    EntersFrom m mid ∨ (SameCsrs m.priv mid.priv ∧ mid.traps = m.traps ∧
      (mid.priv.sip = m.priv.sip ∨
        sig = .sigalrm siTimer ∧ mid.priv.sip = setSixSti m.priv.sip 1)) := by
  have hns : m.priv.privMode ≠ privS := by rw [hu]; decide
  cases h with
  | sbiQuiet hs _ => exact absurd hs hns
  | sbiSetTimer hs _ => exact absurd hs hns
  | uecall _ => exact .inl (entersFrom_uecall m _)
  | privInstr hs _ _ _ => exact absurd hs hns
  | illegal _ => exact .inl (entersFrom_illegal m)
  | alarm => exact .inr ⟨by constructor <;> rfl,rfl,.inr ⟨rfl,rfl⟩⟩
  | fault _ hf =>
    rcases hf.trap with ⟨m₁,scause,stval,hp,hsip,ht,rfl⟩ | ⟨hp,ht,hsip⟩
    · exact .inl ⟨m₁,scause,stval,{ hp with },hsip,ht,rfl⟩
    · exact .inr ⟨{ hp with },ht,.inl hsip⟩

/-- What a signal handled in U-mode can change: nothing the supervisor relies on,
unless the machine enters S-mode through `stvec`. -/
structure Confined (m : Machine) (sig : Signal) (m' : Machine) : Prop where
  satp : m'.priv.satp = m.priv.satp
  stvec : m'.priv.stvec = m.priv.stvec
  sscratch : m'.priv.sscratch = m.priv.sscratch
  sie : m'.priv.sie = m.priv.sie
  stubStart : m'.priv.stubStart = m.priv.stubStart
  stubSize : m'.priv.stubSize = m.priv.stubSize
  sip : m'.priv.sip = m.priv.sip ∨
    sig = .sigalrm siTimer ∧ m'.priv.sip = setSixSti m.priv.sip 1
  outcome :
    (m'.priv.privMode = privU ∧ m'.priv.sepc = m.priv.sepc ∧ m'.priv.scause = m.priv.scause ∧
      m'.priv.stval = m.priv.stval ∧ m'.priv.sstatus = m.priv.sstatus) ∨
    (m'.priv.privMode = privS ∧ m'.pc = trapTarget m.priv m'.priv.scause ∧
      getSstatusSpp m'.priv.sstatus = sstatusSppU ∧
      getSstatusSpie m'.priv.sstatus = getSstatusSie m.priv.sstatus ∧
      getSstatusSie m'.priv.sstatus = 0)

section UMode

variable {m m' m₁ mid : Machine} {env : Host} {sig : Signal}

theorem trapTarget_congr {priv priv' : PrivState} (h : priv'.stvec = priv.stvec) (scause : Word) :
    trapTarget priv' scause = trapTarget priv scause := by
  simp only [trapTarget]
  rw [h]

theorem confined_of_enterTrap (hp : SameCsrs m.priv m₁.priv) (hu : m.priv.privMode = privU)
    (hsip : m₁.priv.sip = m.priv.sip ∨
      sig = .sigalrm siTimer ∧ m₁.priv.sip = setSixSti m.priv.sip 1) (scause stval : Word) :
    Confined m sig (unmapConf env (clearVm (enterTrap m₁ scause stval))) := by
  have hpriv := resume_priv env (enterTrap m₁ scause stval)
  have hpc : (unmapConf env (clearVm (enterTrap m₁ scause stval))).pc = trapTarget m.priv scause := by
    rw [resume_pc,enterTrap_pc,trapTarget_congr hp.stvec]
  have hns : m₁.priv.privMode ≠ privS := by rw [hp.privMode,hu]; decide
  have hspp := trapStatus_spp m₁.priv.privMode m₁.priv.sstatus
  rw [if_neg hns] at hspp
  have hspie : getSstatusSpie (trapStatus m₁.priv.privMode m₁.priv.sstatus) =
      getSstatusSie m.priv.sstatus := by rw [trapStatus_spie,hp.sstatus]
  refine ⟨?_,?_,?_,?_,?_,?_,?_,.inr ⟨?_,?_,?_,?_,?_⟩⟩ <;> rw [hpriv]
  · exact hp.satp
  · exact hp.stvec
  · exact hp.sscratch
  · exact hp.sie
  · exact hp.stubStart
  · exact hp.stubSize
  · exact hsip
  · rfl
  · exact hpc
  · exact hspp
  · exact hspie
  · exact trapStatus_sie _ _

theorem confined_of_same (hp : SameCsrs m.priv mid.priv) (hu : m.priv.privMode = privU)
    (hsip : mid.priv.sip = m.priv.sip ∨
      sig = .sigalrm siTimer ∧ mid.priv.sip = setSixSti m.priv.sip 1) :
    Confined m sig (unmapConf env (clearVm mid)) := by
  have hpriv := resume_priv env mid
  refine ⟨?_,?_,?_,?_,?_,?_,?_,.inl ⟨?_,?_,?_,?_,?_⟩⟩ <;> rw [hpriv]
  · exact hp.satp
  · exact hp.stvec
  · exact hp.sscratch
  · exact hp.sie
  · exact hp.stubStart
  · exact hp.stubSize
  · exact hsip
  · exact hp.privMode.trans hu
  · exact hp.sepc
  · exact hp.scause
  · exact hp.stval
  · exact hp.sstatus

theorem step_confined (hu : m.priv.privMode = privU) (hs : Step m (.signal env sig) m') :
    Confined m sig m' := by
  cases hs with
  | signal hfree hh =>
    obtain ⟨mid,-,heff,rfl⟩ := handler_effect hfree hh
    rcases heff.umode hu with ⟨m₁,scause,stval,hp,hsip,-,rfl⟩ | ⟨hp,-,hsip⟩
    · rw [takeInterrupt_enterTrap]
      exact confined_of_enterTrap (m:=m) hp hu (.inl hsip) scause stval
    · by_cases hpend : interruptPending mid.priv
      · rw [takeInterrupt,if_pos hpend]
        exact confined_of_enterTrap (m:=m) hp hu hsip scauseTimer 0
      · rw [takeInterrupt,if_neg hpend]
        exact confined_of_same hp hu hsip

theorem umode_run_stvec {es : List Event}
    (h : Run (fun a e b => Step a e b ∧ ¬b.priv.privMode ≠ privU) m es m')
    (hu : m.priv.privMode = privU) : m'.priv.stvec = m.priv.stvec := by
  have hinv : ∀ a e b, (a.priv.privMode = privU ∧ a.priv.stvec = m.priv.stvec) →
      (Step a e b ∧ ¬b.priv.privMode ≠ privU) →
      (b.priv.privMode = privU ∧ b.priv.stvec = m.priv.stvec) := by
    rintro a e b ⟨hua,hv⟩ ⟨hs,hub⟩
    refine ⟨not_not.mp hub,?_⟩
    cases e with
    | guest ram regs => cases hs; exact hv
    | signal env sig => exact (step_confined hua hs).stvec.trans hv
  exact (h.invariant hinv ⟨hu,rfl⟩).2

end UMode

/-- A guest in U-mode, however it got there, is confined at every signal, and in
every run from there the first step that leaves U-mode goes to the vector in `stvec`. -/
theorem umode_confined {m : Machine} (hu : m.priv.privMode = privU) :
    (∀ env sig m', Step m (.signal env sig) m' → Confined m sig m') ∧
    (∀ fs m', Run Step m fs m' → m'.priv.privMode = privS →
      ∃ fs₁ env sig fs₂ m₁ m₂, fs = fs₁++.signal env sig::fs₂ ∧
        Run (fun a e b => Step a e b ∧ ¬b.priv.privMode ≠ privU) m fs₁ m₁ ∧
        Step m₁ (.signal env sig) m₂ ∧ m₂.priv.privMode = privS ∧
        m₂.pc = trapTarget m.priv m₂.priv.scause ∧ Run Step m₂ fs₂ m') := by
  refine ⟨fun env sig m' hs => step_confined hu hs,fun fs m' hrun hs' => ?_⟩
  obtain ⟨fs₁,e,fs₂,m₁,m₂,rfl,hrun₁,hu₁,hs,hu₂,hrest⟩ :=
    hrun.first (fun m => m.priv.privMode ≠ privU) (not_not.mpr hu) (by rw [hs']; decide)
  have hu₁' : m₁.priv.privMode = privU := not_not.mp hu₁
  cases e with
  | guest ram regs => cases hs; exact absurd hu₁' hu₂
  | signal env sig =>
    have hconf := step_confined hu₁' hs
    rcases hconf.outcome with ⟨hmode,-⟩ | ⟨hmode,hpc,-⟩
    · exact absurd hmode hu₂
    · rw [trapTarget_congr (umode_run_stvec hrun₁ hu)] at hpc
      exact ⟨fs₁,env,sig,fs₂,m₁,m₂,rfl,hrun₁,hs,hmode,hpc,hrest⟩

/-- The small guest makes an `ecall` from U-mode. -/
theorem umode_confined_ecall : ∃ m m',
    Run Step (boot (smallData sv39Kernel)) (sv39Events 0x2008001f) m ∧ m.priv.privMode = privU ∧
    Step m (.signal smallHost (.sigsys 64)) m' ∧ m'.priv.privMode = privS ∧
    Confined m (.sigsys 64) m' := by
  have hreplays : Replays sv39Kernel (sv39Events 0x2008001f) := by decide +kernel
  have hreplays' : Replays sv39Kernel (sv39Events 0x2008001f++[.signal smallHost (.sigsys 64)]) := by
    decide +kernel
  have hu : (smallAfter sv39Kernel (sv39Events 0x2008001f)).priv.privMode = privU := by
    decide +kernel
  have hstep := small_step hreplays'
  exact ⟨_,_,small_run hreplays,hu,hstep,by decide +kernel,(umode_confined hu).1 _ _ _ hstep⟩

/-- A timer interrupt the guest has to see before its next instruction. -/
def TimerDue (priv : PrivState) : Prop :=
  getSixSti priv.sip ≠ 0 ∧ getSixSti priv.sie ≠ 0 ∧
    (priv.privMode = privU ∨ getSstatusSie priv.sstatus ≠ 0)

theorem timerDue_iff {priv : PrivState} (h : Legal priv) :
    TimerDue priv ↔ interruptPending priv := by
  have hmode : priv.privMode = privU ↔ priv.privMode < privS := by
    rcases h.mode with hm | hm
    · rw [hm]; decide
    · rw [hm]; decide
  simp only [TimerDue,interruptPending]
  rw [hmode,or_comm]

/-- How the traps of one handler invocation come about; `mid` is the machine when
the event itself has been emulated. -/
structure PreciseDelivery (m mid m' : Machine) : Prop where
  once : m'.traps = m.traps ∨ ∃ t, m'.traps = t :: m.traps ∧
    m'.priv.sepc = t.pc ∧ m'.priv.scause = t.scause ∧ m'.priv.stval = t.stval
  synchronous : mid.traps ≠ m.traps → m'.traps = mid.traps ∧
    m'.priv.sepc = mid.priv.sepc ∧ m'.priv.scause = mid.priv.scause ∧ m'.priv.stval = mid.priv.stval
  timer : m'.traps ≠ mid.traps ↔ TimerDue mid.priv
  timer_entry : TimerDue mid.priv → m'.priv.sepc = mid.pc ∧ m'.priv.scause = scauseTimer
  resume : ¬TimerDue mid.priv → m'.pc = mid.pc

theorem preciseDelivery_timer {m mid : Machine} (env : Host) (hd : TimerDue mid.priv)
    (ht : mid.traps = m.traps) :
    PreciseDelivery m mid (unmapConf env (clearVm (enterTrap mid scauseTimer 0))) := by
  have htraps := resume_traps env (enterTrap mid scauseTimer 0)
  have hpriv := resume_priv env (enterTrap mid scauseTimer 0)
  have hne : (enterTrap mid scauseTimer 0).traps ≠ mid.traps := List.cons_ne_self _ _
  refine ⟨.inr ⟨_,htraps.trans (congrArg (List.cons _) ht),?_,?_,?_⟩,fun h => absurd ht h,
    ⟨fun _ => hd,fun _ => htraps ▸ hne⟩,fun _ => ⟨?_,?_⟩,fun h => absurd hd h⟩
  all_goals rw [hpriv]; rfl

theorem preciseDelivery_quiet {m mid : Machine} (env : Host) (hd : ¬TimerDue mid.priv)
    (ht : mid.traps = m.traps ∨ ∃ t, mid.traps = t :: m.traps ∧
      mid.priv.sepc = t.pc ∧ mid.priv.scause = t.scause ∧ mid.priv.stval = t.stval) :
    PreciseDelivery m mid (unmapConf env (clearVm mid)) := by
  have htraps := resume_traps env mid
  have hpriv := resume_priv env mid
  refine ⟨?_,fun _ => ⟨htraps,?_,?_,?_⟩,⟨fun h => absurd htraps h,fun h => absurd h hd⟩,
    fun h => absurd h hd,fun _ => resume_pc env mid⟩
  · rw [htraps,hpriv]
    exact ht
  all_goals rw [hpriv]

theorem step_preciseDelivery {m m' : Machine} {env : Host} {sig : Signal} (hl : Legal m.priv)
    (hs : Step m (.signal env sig) m') :
    ∃ mid, emulate env sig m = .ok mid ∧ PreciseDelivery m mid m' := by
  cases hs with
  | signal hfree hh =>
    obtain ⟨mid,hmid,heff,rfl⟩ := handler_effect hfree hh
    have hlmid : Legal mid.priv := Legal.signalEffect (m:=mapConf env m) hl heff
    refine ⟨mid,hmid,?_⟩
    rcases heff.trap with ⟨m₁,scause,stval,-,-,ht,rfl⟩ | ht
    · have hnd : ¬interruptPending (enterTrap m₁ scause stval).priv :=
        not_interruptPending (trapStatus_sie _ _) rfl
      rw [takeInterrupt_enterTrap]
      exact preciseDelivery_quiet env (fun h => hnd ((timerDue_iff hlmid).mp h))
        (.inr ⟨_,congrArg (List.cons _) ht,rfl,rfl,rfl⟩)
    · by_cases hpend : interruptPending mid.priv
      · rw [takeInterrupt,if_pos hpend]
        exact preciseDelivery_timer env ((timerDue_iff hlmid).mpr hpend) ht
      · rw [takeInterrupt,if_neg hpend]
        exact preciseDelivery_quiet env (fun h => hpend ((timerDue_iff hlmid).mp h)) (.inl ht)

theorem step_not_timerDue {m m' : Machine} {e : Event} (h : GuestLegal m ∧ ¬TimerDue m.priv)
    (hs : Step m e m') : GuestLegal m' ∧ ¬TimerDue m'.priv := by
  have hl := step_legal h.1 hs
  refine ⟨hl,?_⟩
  cases hs with
  | guest ram regs => exact h.2
  | @signal _ env sig hfree hh =>
    obtain ⟨mid,-,-,rfl⟩ := handler_effect hfree hh
    intro hd
    have hpend := (timerDue_iff hl.1).mp hd
    rw [resume_priv] at hpend
    exact takeInterrupt_not_pending mid hpend

theorem run_not_timerDue {b : BootData} {es : List Event} {m : Machine}
    (h : Run Step (boot b) es m) : GuestLegal m ∧ ¬TimerDue m.priv := by
  have hsip : getSixSti 0 = 0 := by decide
  have hboot : GuestLegal (boot b) ∧ ¬TimerDue (boot b).priv :=
    ⟨run_legal (.nil _),fun hd => hd.1 hsip⟩
  exact h.invariant (I:=fun m => GuestLegal m ∧ ¬TimerDue m.priv)
    (fun _ _ _ hm hs => step_not_timerDue hm hs) hboot

/-- No timer interrupt is due while the guest runs, and every handled signal
delivers at most one trap, precisely. -/
theorem trap_delivery_precise {b : BootData} {es : List Event} {m : Machine}
    (h : Run Step (boot b) es m) :
    ¬TimerDue m.priv ∧ ∀ env sig m', Step m (.signal env sig) m' →
      ¬TimerDue m'.priv ∧ ∃ mid, emulate env sig m = .ok mid ∧ PreciseDelivery m mid m' := by
  have hm := run_not_timerDue h
  exact ⟨hm.2,fun env sig m' hs => ⟨(step_not_timerDue hm hs).2,step_preciseDelivery hm.1.1 hs⟩⟩

/-- `csrw sie, t0; csrw sepc, t1; sret`. -/
def timerKernel : List (BitVec 32) := [0x10429073,0x14131073,0x10200073]

def timerEvents : List Event :=
  [.guest (boot (smallData timerKernel)).ram (smallRegs kernelStart 0x20 kernelStart),
    .signal smallHost .sigill,
    .signal smallHost .sigill,
    .signal smallHost .sigill]

/-- A `SIGALRM` in U-mode is delivered as an interrupt at the pc of the guest. -/
theorem trap_delivery_precise_timer : ∃ m m' mid,
    Run Step (boot (smallData timerKernel)) timerEvents m ∧
    Step m (.signal smallHost (.sigalrm siTimer)) m' ∧ PreciseDelivery m mid m' ∧
    m'.traps ≠ m.traps ∧ m'.priv.scause = scauseTimer ∧ m'.priv.sepc = kernelStart := by
  have hreplays : Replays timerKernel timerEvents := by decide +kernel
  have hreplays' : Replays timerKernel
      (timerEvents++[.signal smallHost (.sigalrm siTimer)]) := by decide +kernel
  have hstep := small_step hreplays'
  obtain ⟨-,mid,-,hprecise⟩ := (trap_delivery_precise (small_run hreplays)).2 _ _ _ hstep
  exact ⟨_,_,mid,small_run hreplays,hstep,hprecise,by decide +kernel,by decide +kernel,
    by decide +kernel⟩

end Urvirt
