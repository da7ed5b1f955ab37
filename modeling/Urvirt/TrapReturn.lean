import Urvirt.TrapDelivery

/-!
# Returning from a trap

A supervisor that saved `sepc` and `sstatus` on entry restores them and executes
`sret`. Whatever happened in between, the guest goes on where the trap hit it,
in the same mode and with the same interrupt enable.
-/

namespace Urvirt

open Bitfield Transition

section Status

variable (old value : Word)

theorem restored_field {start : ℕ} (hk : sstatusWritableMask &&& mask start 1 = mask start 1)
    (hn : ~~~sstatusWritableMask &&& mask start 1 = 0) (hs : mask start 1 &&& ~~~mask start 1 = 0#64) :
    get start 1 (mergeMasked sstatusWritableMask old value) = get start 1 value :=
  get_congr (by decide) (merge_and_masked hk hn) hs

theorem restored_sie :
    getSstatusSie (mergeMasked sstatusWritableMask old value) = getSstatusSie value :=
  restored_field old value (by decide) (by decide) (by decide)

theorem restored_spie :
    getSstatusSpie (mergeMasked sstatusWritableMask old value) = getSstatusSpie value :=
  restored_field old value (by decide) (by decide) (by decide)

theorem restored_spp :
    getSstatusSpp (mergeMasked sstatusWritableMask old value) = getSstatusSpp value :=
  restored_field old value (by decide) (by decide) (by decide)

end Status

def AtCsrw (env : Host) (m : Machine) (csr : BitVec 32) (value : Word) : Prop :=
  ∃ instr, deref32 env (mapConf env m) m.pc = .ok instr ∧ insFunct3 instr = 0b001 ∧
    insRd instr = 0 ∧ insCsr instr = csr ∧ csrWriteValue m.regs instr = value

def AtSret (env : Host) (m : Machine) : Prop :=
  ∃ instr, deref32 env (mapConf env m) m.pc = .ok instr ∧ insFunct3 instr = funct3NotCsr ∧
    isSret instr

theorem PrivEffect.csrw {m mid : Machine} {instr : BitVec 32} (h : PrivEffect m instr mid)
    (hf3 : insFunct3 instr = 0b001) :
    ∃ priv regs, writeCsr m.priv (insCsr instr) (csrWriteValue m.regs instr) = .ok priv ∧
      mid = { m with priv := priv, regs := regs } := by
  have hne : insFunct3 instr ≠ funct3NotCsr := by rw [hf3]; decide
  have hrw : insFunct3 instr &&& csrOpMask = csrOpRw := by rw [hf3]; decide
  cases h with
  | sfenceVma h _ => exact absurd h hne
  | wfi h _ => exact absurd h hne
  | sret h _ => exact absurd h hne
  | csrRead _ hno => exact absurd (.inl hrw) hno
  | @csrWrite orig priv regs _ _ _ hw =>
    rw [csrNewValue,if_pos hrw] at hw
    exact ⟨priv,regs,hw,rfl⟩

theorem PrivEffect.sret_eq {m mid : Machine} {instr : BitVec 32} (h : PrivEffect m instr mid)
    (hf3 : insFunct3 instr = funct3NotCsr) (hi : isSret instr) : mid = Urvirt.sret m := by
  cases h with
  | sfenceVma _ h => exact absurd (hi.1.symm.trans h.1) (by decide)
  | wfi _ h => exact absurd (hi.2.1.symm.trans h.2.1) (by decide)
  | sret _ _ => rfl
  | csrRead h _ => exact absurd hf3 h
  | csrWrite h _ _ _ => exact absurd hf3 h

theorem step_privInstr {m m' : Machine} {env : Host} {instr : BitVec 32}
    (hs : m.priv.privMode = privS) (hi : deref32 env (mapConf env m) m.pc = .ok instr)
    (h : Step m (.signal env .sigill) m') :
    ∃ mid, emulate env .sigill m = .ok mid ∧ PrivEffect (countIll (mapConf env m)) instr mid ∧
      m' = unmapConf env (clearVm (takeInterrupt mid)) := by
  cases h with
  | signal hfree hh =>
    obtain ⟨mid,hmid,heff,hm'⟩ := handler_effect hfree hh
    refine ⟨mid,hmid,?_,hm'⟩
    cases heff with
    | privInstr _ hi' _ hp =>
      have heq : deref32 env (mapConf env m) m.pc = .ok _ := hi'
      rw [hi] at heq
      cases heq
      exact hp
    | illegal hns => exact absurd hs hns

def Masked (m : Machine) : Prop := m.priv.privMode = privS ∧ getSstatusSie m.priv.sstatus = 0

/-- A guest step, a `SIGALRM` or a page fault that is resolved without a trap. -/
def Between (m : Machine) (e : Event) (m' : Machine) : Prop :=
  Step m e m' ∧ match e with
    | .guest _ _ => True
    | .signal _ (.sigalrm _) => True
    | .signal _ (.sigsegv _) => m'.traps = m.traps
    | .signal _ _ => False

def SameReturn (m m' : Machine) : Prop :=
  m'.priv.privMode = m.priv.privMode ∧ m'.priv.sepc = m.priv.sepc ∧ m'.priv.sstatus = m.priv.sstatus

theorem Masked.of_sameReturn {m m' : Machine} (h : Masked m) (hr : SameReturn m m') : Masked m' :=
  ⟨hr.1.trans h.1,(congrArg getSstatusSie hr.2.2).trans h.2⟩

theorem Masked.takeInterrupt {m : Machine} (h : Masked m) : takeInterrupt m = m :=
  if_neg (not_interruptPending h.2 h.1)

/-- The end of the handler does nothing to a masked machine. -/
theorem Masked.resume {m : Machine} (h : Masked m) (env : Host) :
    SameReturn m (unmapConf env (clearVm (Urvirt.takeInterrupt m))) := by
  rw [h.takeInterrupt]
  have hpriv := resume_priv env m
  exact ⟨by rw [hpriv],by rw [hpriv],by rw [hpriv]⟩

theorem SameReturn.trans {m m' m'' : Machine} (h : SameReturn m m') (h' : SameReturn m' m'') :
    SameReturn m m'' :=
  ⟨h'.1.trans h.1,h'.2.1.trans h.2.1,h'.2.2.trans h.2.2⟩

theorem Between.sameReturn {m m' : Machine} {e : Event} (hm : Masked m) (h : Between m e m') :
    SameReturn m m' := by
  obtain ⟨hs,he⟩ := h
  cases hs with
  | guest ram regs => exact ⟨rfl,rfl,rfl⟩
  | @signal _ env sig hfree hh =>
    obtain ⟨mid,-,heff,rfl⟩ := handler_effect hfree hh
    cases heff with
    | alarm =>
      have hmid : SameReturn m { mapConf env m with
        priv := { (mapConf env m).priv with sip := setSixSti (mapConf env m).priv.sip 1 } } :=
        ⟨rfl,rfl,rfl⟩
      exact hmid.trans ((hm.of_sameReturn hmid).resume env)
    | fault _ hf =>
      rcases hf.trap with ⟨m₁,scause,stval,-,-,ht,rfl⟩ | ⟨hp,-,-⟩
      · rw [takeInterrupt_enterTrap] at he
        have hcons : (unmapConf env (clearVm (enterTrap m₁ scause stval))).traps = _ :: m.traps :=
          (resume_traps env _).trans (congrArg (List.cons _) ht)
        exact absurd (hcons.symm.trans he) (List.cons_ne_self _ _)
      · have hmid : SameReturn m mid := ⟨hp.privMode,hp.sepc,hp.sstatus⟩
        exact hmid.trans ((hm.of_sameReturn hmid).resume env)
    | _ => exact he.elim

theorem run_between {m m' : Machine} {es : List Event} (hm : Masked m) (h : Run Between m es m') :
    SameReturn m m' ∧ Masked m' := by
  induction h with
  | nil => exact ⟨⟨rfl,rfl,rfl⟩,hm⟩
  | cons hs _ ih =>
    have hr := hs.sameReturn hm
    obtain ⟨hrest,hend⟩ := ih (hm.of_sameReturn hr)
    exact ⟨hr.trans hrest,hend⟩

theorem step_csrw_sepc {m m' : Machine} {env : Host} {value : Word} (hm : Masked m)
    (hat : AtCsrw env m csrSepc value) (h : Step m (.signal env .sigill) m') :
    Masked m' ∧ m'.priv.sepc = value ∧ m'.priv.sstatus = m.priv.sstatus := by
  obtain ⟨instr,hi,hf3,-,hcsr,hval⟩ := hat
  obtain ⟨mid,-,hp,rfl⟩ := step_privInstr hm.1 hi h
  obtain ⟨priv,regs,hw,rfl⟩ := hp.csrw hf3
  have hw' : writeCsr (countIll (mapConf env m)).priv csrSepc value = .ok priv := by
    rw [← hcsr,← hval]
    exact hw
  cases hw'
  have hmid : Masked { countIll (mapConf env m) with
      priv := { (countIll (mapConf env m)).priv with sepc := value }, regs := regs } := hm
  obtain ⟨hmode,hsepc,hstatus⟩ := hmid.resume env
  exact ⟨hmid.of_sameReturn ⟨hmode,hsepc,hstatus⟩,hsepc,hstatus⟩

theorem step_csrw_sstatus {m m' : Machine} {env : Host} {value : Word} (hm : Masked m)
    (hat : AtCsrw env m csrSstatus value) (hsie : getSstatusSie value = 0)
    (h : Step m (.signal env .sigill) m') :
    Masked m' ∧ m'.priv.sepc = m.priv.sepc ∧
      m'.priv.sstatus = mergeMasked sstatusWritableMask m.priv.sstatus value := by
  obtain ⟨instr,hi,hf3,-,hcsr,hval⟩ := hat
  obtain ⟨mid,-,hp,rfl⟩ := step_privInstr hm.1 hi h
  obtain ⟨priv,regs,hw,rfl⟩ := hp.csrw hf3
  have hw' : writeCsr (countIll (mapConf env m)).priv csrSstatus value = .ok priv := by
    rw [← hcsr,← hval]
    exact hw
  cases hw'
  have hmid : Masked { countIll (mapConf env m) with
      priv := { (countIll (mapConf env m)).priv with
        sstatus := mergeMasked sstatusWritableMask m.priv.sstatus value }, regs := regs } :=
    ⟨hm.1,(restored_sie _ _).trans hsie⟩
  obtain ⟨hmode,hsepc,hstatus⟩ := hmid.resume env
  exact ⟨hmid.of_sameReturn ⟨hmode,hsepc,hstatus⟩,hsepc,hstatus⟩

/-- `sepc` and `sstatus` describe the trap entry. -/
structure Records (t : TrapEntry) (sepc sstatus : Word) : Prop where
  pc : sepc = t.pc
  mode : t.mode = privU ∨ t.mode = privS
  spp : getSstatusSpp sstatus = if t.mode = privS then sstatusSppS else sstatusSppU
  spie : getSstatusSpie sstatus = t.sie
  sie : getSstatusSie sstatus = 0

theorem records_enterTrap {m : Machine} {t : TrapEntry} {scause stval : Word} (env : Host)
    (hmode : m.priv.privMode = privU ∨ m.priv.privMode = privS)
    (ht : (enterTrap m scause stval).traps = t :: m.traps) :
    Records t (unmapConf env (clearVm (enterTrap m scause stval))).priv.sepc
      (unmapConf env (clearVm (enterTrap m scause stval))).priv.sstatus := by
  obtain ⟨rfl,-⟩ := List.cons.inj ht
  rw [resume_priv]
  exact ⟨rfl,hmode,trapStatus_spp _ _,trapStatus_spie _ _,trapStatus_sie _ _⟩

theorem step_records {m m' : Machine} {e : Event} {t : TrapEntry} (hl : Legal m.priv)
    (hs : Step m e m') (ht : m'.traps = t :: m.traps) :
    Records t m'.priv.sepc m'.priv.sstatus := by
  cases hs with
  | guest ram regs => exact absurd ht.symm (List.cons_ne_self _ _)
  | @signal _ env sig hfree hh =>
    obtain ⟨mid,-,heff,rfl⟩ := handler_effect hfree hh
    have hlmid : Legal mid.priv := Legal.signalEffect (m:=mapConf env m) hl heff
    rw [resume_traps] at ht
    rcases heff.trap with ⟨m₁,scause,stval,hp,-,htr,rfl⟩ | htr
    · have htr' : m₁.traps = m.traps := htr
      rw [takeInterrupt_enterTrap,← htr'] at ht
      rw [takeInterrupt_enterTrap]
      have hmode : m₁.priv.privMode = m.priv.privMode := hp.privMode
      exact records_enterTrap env (hmode ▸ hl.mode) ht
    · have htr' : mid.traps = m.traps := htr
      by_cases hpend : interruptPending mid.priv
      · rw [takeInterrupt,if_pos hpend] at ht ⊢
        exact records_enterTrap env hlmid.mode (htr' ▸ ht)
      · rw [takeInterrupt,if_neg hpend,htr'] at ht
        exact absurd ht.symm (List.cons_ne_self _ _)

/-- `sret` out of a recorded trap goes back to where it hit. -/
theorem sret_records {m : Machine} {t : TrapEntry} {value : Word} (hr : Records t m.priv.sepc value)
    (hspp : getSstatusSpp m.priv.sstatus = getSstatusSpp value)
    (hspie : getSstatusSpie m.priv.sstatus = getSstatusSpie value) :
    (sret m).pc = t.pc ∧ (sret m).priv.privMode = t.mode ∧
      getSstatusSie (sret m).priv.sstatus = t.sie := by
  refine ⟨(sret_pc m).trans hr.pc,?_,?_⟩
  · rw [sret_privMode,hspp,hr.spp]
    rcases hr.mode with hm | hm
    · rw [hm]; decide
    · rw [hm]; decide
  · exact (sretStatus_sie _).trans (hspie.trans hr.spie)

/-- The machine goes on as recorded, or the interrupt taken instead records the same. -/
def GoesOn (t : TrapEntry) (mid m' : Machine) : Prop :=
  (m'.traps = mid.traps ∧ m'.pc = t.pc ∧ m'.priv.privMode = t.mode ∧
    getSstatusSie m'.priv.sstatus = t.sie) ∨
  (m'.traps ≠ mid.traps ∧ m'.priv.scause = scauseTimer ∧ m'.priv.sepc = t.pc ∧
    getSstatusSpp m'.priv.sstatus = (if t.mode = privS then sstatusSppS else sstatusSppU) ∧
    getSstatusSpie m'.priv.sstatus = t.sie)

theorem goesOn_resume {t : TrapEntry} {mid : Machine} (env : Host) (hpc : mid.pc = t.pc)
    (hmode : mid.priv.privMode = t.mode) (hsie : getSstatusSie mid.priv.sstatus = t.sie) :
    GoesOn t mid (unmapConf env (clearVm (takeInterrupt mid))) := by
  by_cases hpend : interruptPending mid.priv
  · right
    rw [takeInterrupt,if_pos hpend,resume_traps,resume_priv]
    refine ⟨List.cons_ne_self _ _,rfl,hpc,?_,?_⟩
    · exact (trapStatus_spp _ _).trans (by rw [hmode])
    · exact (trapStatus_spie _ _).trans hsie
  · left
    rw [takeInterrupt,if_neg hpend,resume_traps,resume_priv,resume_pc]
    exact ⟨rfl,hpc,hmode,hsie⟩

section Return

variable {b : BootData} {es fs q₁ q₂ q₃ : List Event} {e : Event} {env₁ env₂ env₃ : Host}
  {m₀ m₁ m₂ m₃ m₄ m₅ m₆ m₇ m₈ : Machine} {t : TrapEntry}

/-- A trap is entered, anything at all happens, and the supervisor ends up with
interrupts off; then it restores what `sepc` and `sstatus` held right after entry
and executes `sret`. -/
theorem trap_return_exact (hreach : Run Step (boot b) es m₀) (hentry : Step m₀ e m₁)
    (ht : m₁.traps = t :: m₀.traps) (hbody : Run Step m₁ fs m₂ ∧ Masked m₂)
    (hq₁ : Run Between m₂ q₁ m₃)
    (hsepc : AtCsrw env₁ m₃ csrSepc m₁.priv.sepc ∧ Step m₃ (.signal env₁ .sigill) m₄)
    (hq₂ : Run Between m₄ q₂ m₅)
    (hsstatus : AtCsrw env₂ m₅ csrSstatus m₁.priv.sstatus ∧ Step m₅ (.signal env₂ .sigill) m₆)
    (hq₃ : Run Between m₆ q₃ m₇)
    (hsret : AtSret env₃ m₇ ∧ Step m₇ (.signal env₃ .sigill) m₈) :
    ∃ mid, emulate env₃ .sigill m₇ = .ok mid ∧ mid.pc = t.pc ∧ mid.priv.privMode = t.mode ∧
      getSstatusSie mid.priv.sstatus = t.sie ∧ GoesOn t mid m₈ := by
  have hrec := step_records (run_legal hreach).1 hentry ht
  obtain ⟨-,hm₃⟩ := run_between hbody.2 hq₁
  obtain ⟨hm₄,hsepc₄,-⟩ := step_csrw_sepc hm₃ hsepc.1 hsepc.2
  obtain ⟨⟨-,hsepc₅,-⟩,hm₅⟩ := run_between hm₄ hq₂
  obtain ⟨hm₆,hsepc₆,hstatus₆⟩ := step_csrw_sstatus hm₅ hsstatus.1 hrec.sie hsstatus.2
  obtain ⟨⟨-,hsepc₇,hstatus₇⟩,hm₇⟩ := run_between hm₆ hq₃
  have hsepc' : m₇.priv.sepc = m₁.priv.sepc := hsepc₇.trans (hsepc₆.trans (hsepc₅.trans hsepc₄))
  have hstatus' : m₇.priv.sstatus =
      mergeMasked sstatusWritableMask m₅.priv.sstatus m₁.priv.sstatus := hstatus₇.trans hstatus₆
  obtain ⟨⟨instr,hi,hf3,hsr⟩,hstep⟩ := hsret
  obtain ⟨mid,hmid,hp,rfl⟩ := step_privInstr hm₇.1 hi hstep
  obtain rfl := hp.sret_eq hf3 hsr
  have hrec' : Records t (countIll (mapConf env₃ m₇)).priv.sepc m₁.priv.sstatus := by
    rw [← hsepc'] at hrec
    exact hrec
  obtain ⟨hpc,hmode,hsie⟩ := sret_records hrec'
    ((congrArg getSstatusSpp hstatus').trans (restored_spp _ _))
    ((congrArg getSstatusSpie hstatus').trans (restored_spie _ _))
  exact ⟨_,hmid,hpc,hmode,hsie,goesOn_resume env₃ hpc hmode hsie⟩

end Return

/-- The supervisor of the small guest at its return sequence, with what it saved in `t0` and `t1`. -/
def returnRegs : Regs := smallRegs (kernelStart+12) 0x800000000001e000 0x801ffffc

def returnEvent : ℕ → Event
  | 0 => .signal smallHost (.sigsys 64)
  | 1 => .guest (sv39Tables 0x2008001f (boot (smallData sv39Kernel)).ram) returnRegs
  | 2 => .signal smallHost (.sigsegv (kernelStart+12))
  | 4 => .signal smallHost (.sigalrm siTimer)
  | _ => .signal smallHost .sigill

def returnMachine (n : ℕ) : Machine :=
  smallAfter sv39Kernel (stages (sv39Events 0x2008001f) returnEvent n)

theorem return_step {n : ℕ} (hn : n < 7) :
    Step (returnMachine n) (returnEvent n) (returnMachine (n+1)) := by
  have hall : Replays sv39Kernel (stages (sv39Events 0x2008001f) returnEvent 7) := by
    decide +kernel
  exact hall.stages_step hn

/-- The `ecall` returns to U-mode, with the supervisor's page faulted in and a
`SIGALRM` between the two restoring instructions. -/
theorem trap_return_exact_ecall :
    ∃ mid, emulate smallHost .sigill (returnMachine 6) = .ok mid ∧
      mid.pc = 0x801ffffc ∧ mid.priv.privMode = privU ∧ getSstatusSie mid.priv.sstatus = 0 ∧
      GoesOn ⟨0x801ffffc,privU,0,scauseUecall,0⟩ mid (returnMachine 7) := by
  have hreach : Run Step (boot (smallData sv39Kernel)) (sv39Events 0x2008001f)
      (returnMachine 0) :=
    small_run (by decide +kernel)
  have hmask : Masked (returnMachine 2) := ⟨by decide +kernel,by decide +kernel⟩
  have hkept : (returnMachine 3).traps = (returnMachine 2).traps := by decide +kernel
  have hfault : Between (returnMachine 2) (returnEvent 2) (returnMachine 3) :=
    ⟨return_step (by decide),hkept⟩
  have halarm : Between (returnMachine 4) (returnEvent 4) (returnMachine 5) :=
    ⟨return_step (by decide),trivial⟩
  have hsepc : AtCsrw smallHost (returnMachine 3) csrSepc (returnMachine 1).priv.sepc :=
    ⟨0x14131073,by decide +kernel,by decide,by decide,by decide,by decide +kernel⟩
  have hsstatus : AtCsrw smallHost (returnMachine 5) csrSstatus (returnMachine 1).priv.sstatus :=
    ⟨0x10029073,by decide +kernel,by decide,by decide,by decide,by decide +kernel⟩
  have hsret : AtSret smallHost (returnMachine 6) :=
    ⟨0x10200073,by decide +kernel,by decide,by decide⟩
  have ht : (returnMachine 1).traps =
      ⟨0x801ffffc,privU,0,scauseUecall,0⟩ :: (returnMachine 0).traps := by decide +kernel
  have hentry : Step (returnMachine 0) (.signal smallHost (.sigsys 64)) (returnMachine 1) :=
    return_step (n:=0) (by decide)
  have hbody : Run Step (returnMachine 1) [returnEvent 1] (returnMachine 2) :=
    .cons (return_step (n:=1) (by decide)) (.nil _)
  have hs₃ : Step (returnMachine 3) (.signal smallHost .sigill) (returnMachine 4) :=
    return_step (n:=3) (by decide)
  have hs₅ : Step (returnMachine 5) (.signal smallHost .sigill) (returnMachine 6) :=
    return_step (n:=5) (by decide)
  have hs₆ : Step (returnMachine 6) (.signal smallHost .sigill) (returnMachine 7) :=
    return_step (n:=6) (by decide)
  exact trap_return_exact hreach hentry ht ⟨hbody,hmask⟩ (.cons hfault (.nil _)) ⟨hsepc,hs₃⟩
    (.cons halarm (.nil _)) ⟨hsstatus,hs₅⟩ (.nil _) ⟨hsret,hs₆⟩

end Urvirt
