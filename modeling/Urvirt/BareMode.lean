import Urvirt.ShadowTlb

/-!
# Memory without translation

RAM is mapped at its physical address once, at start-up. A flush takes the
mapping away whatever `satp` says, and a page fault in bare mode stops the
emulator. So a guest that never writes `satp` keeps its memory exactly as long
as nothing asks for a flush.
-/

namespace Urvirt

open AddressSpace Transition

/-- After the instruction an enabled timer interrupt is pending. -/
def InstrRaises (m : Machine) (instr : BitVec 32) : Prop :=
  if insFunct3 instr = funct3NotCsr then
    if isSret instr then
      getSixSti m.priv.sip ≠ 0 ∧ getSixSti m.priv.sie ≠ 0 ∧
        (getSstatusSpie m.priv.sstatus ≠ 0 ∨ getSstatusSpp m.priv.sstatus = sstatusSppU)
    else interruptPending m.priv
  else if csrWrites m.regs instr then
    ∃ orig priv, readCsr m.priv (insCsr instr) = .ok orig ∧
      writeCsr m.priv (insCsr instr) (csrNewValue m.regs instr orig) = .ok priv ∧
      interruptPending priv
  else interruptPending m.priv

def RaisesTimer (env : Host) (m : Machine) : Signal → Prop
  | .sigsys siSyscall => interruptPending { m.priv with
      sip := if siSyscall.signExtend 64 = sbiSetTimer then
          setSixSti m.priv.sip (elapsedFlag (m.regs 10) env.time)
        else m.priv.sip }
  | .sigill => ∃ instr, deref32 env m m.pc = .ok instr ∧ InstrRaises (countIll m) instr
  | .sigalrm _ => interruptPending { m.priv with sip := setSixSti m.priv.sip 1 }
  | .sigsegv _ => interruptPending m.priv

theorem PrivEffect.raises {m m' : Machine} {instr : BitVec 32} (h : PrivEffect m instr m')
    (hno : ¬InstrFlushes m instr) : interruptPending m'.priv ↔ InstrRaises m instr := by
  cases h with
  | sfenceVma hf3 hsf =>
    rw [InstrFlushes,if_pos hf3] at hno
    exact absurd (.inl hsf) hno
  | wfi hf3 hwfi =>
    have hns : ¬isSret instr := fun hs => absurd (hwfi.2.1.symm.trans hs.2.1) (by decide)
    rw [InstrRaises,if_pos hf3,if_neg hns]
    rfl
  | sret hf3 hsret =>
    have hspp : getSstatusSpp m.priv.sstatus ≠ sstatusSppU := by
      rw [InstrFlushes,if_pos hf3] at hno
      exact fun h => hno (.inr ⟨hsret,h⟩)
    have hmode : ¬(Urvirt.sret m).priv.privMode < privS := by
      rw [sret_privMode,if_neg hspp]
      decide
    rw [InstrRaises,if_pos hf3,if_pos hsret]
    simp only [interruptPending]
    have hsie : getSstatusSie (Urvirt.sret m).priv.sstatus = getSstatusSpie m.priv.sstatus :=
      sretStatus_sie _
    simp only [hsie,hmode,hspp,or_false]
    rfl
  | csrRead hf3 hn =>
    rw [InstrRaises,if_neg hf3,if_neg hn]
  | @csrWrite orig priv regs hf3 hwr hr hw =>
    rw [InstrRaises,if_neg hf3,if_pos hwr]
    constructor
    · exact fun hp => ⟨orig,priv,hr,hw,hp⟩
    · rintro ⟨orig',priv',hr',hw',hp⟩
      rw [hr] at hr'
      cases hr'
      rw [hw] at hw'
      cases hw'
      exact hp

theorem SignalEffect.raises {env : Host} {m mid : Machine} {sig : Signal}
    (h : SignalEffect env m sig mid) (hno : ¬RequestsFlush env m sig) :
    interruptPending mid.priv ↔ RaisesTimer env m sig := by
  cases h with
  | sbiQuiet _ hne =>
    rw [RaisesTimer,if_neg hne]
    rfl
  | sbiSetTimer _ heq =>
    rw [RaisesTimer,if_pos heq]
    rfl
  | uecall hu => exact absurd hu hno
  | @privInstr instr _ _ hi _ hp =>
    have hni : ¬InstrFlushes (countIll m) instr := fun h => hno (.inr ⟨instr,hi,h⟩)
    rw [hp.raises hni]
    constructor
    · exact fun hr => ⟨instr,hi,hr⟩
    · rintro ⟨instr',hi',hr⟩
      rw [hi] at hi'
      cases hi'
      exact hr
  | illegal hu => exact absurd (.inl hu) hno
  | alarm => exact Iff.rfl
  | fault hc hf =>
    cases hf with
    | noLeaf hw => exact absurd (.inl hw) hno
    | denied hw _ hram hp _ => exact absurd ((faultTraps_iff hc hw).mpr ⟨hram,hp⟩) hno
    | mapped _ _ _ _ _ => exact Iff.rfl
    | device _ _ _ _ _ hframe =>
      obtain ⟨blockId,buf,ram,block,pc,rfl⟩ := hframe
      exact Iff.rfl

theorem takeInterrupt_flush_iff (m : Machine) :
    (takeInterrupt m).priv.shouldClearVm = true ↔
      m.priv.shouldClearVm = true ∨ interruptPending m.priv := by
  by_cases hp : interruptPending m.priv
  · rw [takeInterrupt,if_pos hp]
    exact ⟨fun _ => .inr hp,fun _ => rfl⟩
  · rw [takeInterrupt,if_neg hp]
    exact ⟨.inl,fun h => h.resolve_right hp⟩

def DropsMemory (m : Machine) : Event → Prop
  | .guest _ _ => False
  | .signal env sig => RequestsFlush env (mapConf env m) sig ∨ RaisesTimer env (mapConf env m) sig

theorem flushes_iff_dropsMemory {m m' : Machine} {e : Event} (hclear : m.priv.shouldClearVm = false)
    (hs : Step m e m') : Flushes m e ↔ DropsMemory m e := by
  cases hs with
  | guest ram regs => exact Iff.rfl
  | @signal _ env sig hfree hh =>
    obtain ⟨mid,hmid,heff,-⟩ := handler_effect hfree hh
    have hflush : Flushes m (.signal env sig) ↔
        (takeInterrupt mid).priv.shouldClearVm = true := by
      constructor
      · rintro ⟨mid',hmid',h⟩
        rw [hmid] at hmid'
        cases hmid'
        exact h
      · exact fun h => ⟨mid,hmid,h⟩
    rw [hflush,takeInterrupt_flush_iff]
    rcases heff.flush hclear with ⟨hreq,hset⟩ | ⟨hno,hunset,-⟩
    · exact ⟨fun _ => .inl hreq,fun _ => .inl hset⟩
    · rw [heff.raises hno,hunset]
      exact ⟨fun h => .inr (h.resolve_left (by decide)),fun h => .inr (h.resolve_left hno)⟩

def BareStep (m : Machine) (e : Event) (m' : Machine) : Prop :=
  Step m e m' ∧ ¬WritesCsr csrSatp m e

theorem PrivEffect.satp {m m' : Machine} {instr : BitVec 32} (h : PrivEffect m instr m')
    (hno : ¬(insFunct3 instr ≠ funct3NotCsr ∧ insCsr instr = csrSatp ∧ csrWrites m.regs instr)) :
    m'.priv.satp = m.priv.satp := by
  cases h with
  | csrWrite hf3 hwr _ hw =>
    cases writeCsr_effect hw with
    | satp hn _ => exact absurd ⟨hf3,hn,hwr⟩ hno
    | satpIgnored hn _ => exact absurd ⟨hf3,hn,hwr⟩ hno
    | _ => rfl
  | _ => rfl

theorem SignalEffect.satp {env : Host} {m mid : Machine} {sig : Signal}
    (h : SignalEffect env (mapConf env m) sig mid) (hno : ¬WritesCsr csrSatp m (.signal env sig)) :
    mid.priv.satp = m.priv.satp := by
  cases h with
  | sbiQuiet _ _ => rfl
  | sbiSetTimer _ _ => rfl
  | uecall _ => rfl
  | @privInstr instr _ hs hi _ hp => exact hp.satp fun h => hno ⟨hs,instr,hi,h⟩
  | illegal _ => rfl
  | alarm => rfl
  | fault _ hf =>
    cases hf with
    | device _ _ _ _ _ hframe =>
      obtain ⟨blockId,buf,ram,block,pc,rfl⟩ := hframe
      rfl
    | _ => rfl

theorem BareStep.satp {m m' : Machine} {e : Event} (h : BareStep m e m') :
    m'.priv.satp = m.priv.satp := by
  obtain ⟨hs,hno⟩ := h
  cases hs with
  | guest ram regs => rfl
  | @signal _ env sig hfree hh =>
    obtain ⟨mid,-,heff,rfl⟩ := handler_effect hfree hh
    have htake : (takeInterrupt mid).priv.satp = mid.priv.satp := by
      simp only [takeInterrupt]
      split_ifs <;> rfl
    rw [resume_priv]
    exact htake.trans (heff.satp hno)

theorem run_bare {b : BootData} {es : List Event} {m : Machine} (h : Run BareStep (boot b) es m) :
    m.priv.satp = 0 :=
  h.invariant (I:=fun m => m.priv.satp = 0) (fun _ _ _ hm hs => hs.satp.trans hm) rfl

/-- The RAM address is mapped to itself, or its page fault is resolved that way. -/
def BareAccessible (m : Machine) (a : Word) : Prop :=
  m.map (pageOf a) = some (ramPage (pageOf a-pageOf ramStart)) ∨
  ∃ env m', Step m (.signal env (.sigsegv a)) m' ∧
    m'.map (pageOf a) = some (ramPage (pageOf a-pageOf ramStart))

/-- A page fault in bare mode stops the emulator. -/
theorem bare_fault_halts {m m' : Machine} {env : Host} {a : Word} (hbare : m.priv.satp = 0) :
    ¬Step m (.signal env (.sigsegv a)) m' := by
  intro hs
  have hmode : getSatpMode (mapConf env m).priv.satp = satpModeBare :=
    (congrArg getSatpMode hbare).trans (by decide)
  have hleaf : ∃ l, (mapConf env m).walk a = .leaf l := ⟨⟨a,0⟩,by
    simp only [Machine.walk,lookupPaInRam]
    rw [if_pos hmode]⟩
  obtain ⟨l₀,hl₀⟩ := hleaf
  have hz : ∀ l, (mapConf env m).walk a = .leaf l → l.pte = 0 := fun l hl => (walk_leaf_bare hl).mpr hmode
  cases hs with
  | signal hfree hh =>
    obtain ⟨mid,-,heff,-⟩ := handler_effect hfree hh
    cases heff with
    | fault _ hf =>
      cases hf with
      | noLeaf hw =>
        have heq := hl₀.symm.trans hw
        cases heq
      | denied hw hne _ _ _ => exact hne (hz _ hw)
      | mapped hw hne _ _ _ => exact hne (hz _ hw)
      | device hw hne _ _ _ _ => exact hne (hz _ hw)

theorem bareAccessible_iff {m : Machine} {a : Word} (hbare : m.priv.satp = 0) :
    BareAccessible m a ↔ m.map (pageOf a) = some (ramPage (pageOf a-pageOf ramStart)) := by
  constructor
  · rintro (h | ⟨env,m',hs,-⟩)
    · exact h
    · exact absurd hs (bare_fault_halts hbare)
  · exact .inl

theorem inRamWindow_of_inRam {a : Word} (h : inRam a) : InRamWindow (pageOf a) := by
  obtain ⟨h₁,h₂⟩ := h
  have hstart : ramStart.toNat = 0x80000000 := by decide
  have hend : (ramStart+ramSize).toNat = 0x81000000 := by decide
  rw [BitVec.le_def,hstart] at h₁
  rw [BitVec.lt_def,hend] at h₂
  have hfirst : pageOf ramStart = 0x80000 := by decide
  have hcount : pages ramSize = 0x1000 := by decide
  simp only [InRamWindow,InRange,pageOf]
  rw [pageOf] at hfirst
  rw [hfirst,hcount]
  omega

/-- No step writes `satp`, and none takes the memory away. -/
def KeepsMemory (m : Machine) (e : Event) (m' : Machine) : Prop :=
  BareStep m e m' ∧ ¬DropsMemory m e

section Bare

variable {b : Boot} {es : List Event} {m : Machine}

theorem not_installedFrom_of_bare {p : ℕ} {l : Leaf} (hbare : m.priv.satp = 0) :
    ¬InstalledFrom b es m p l := by
  rintro ⟨es₁,env,a,es₂,m₁,m₂,-,-,-,-,-,hi,hsatp,-⟩
  have hmode : getSatpMode m₁.priv.satp = satpModeBare :=
    (congrArg getSatpMode (hsatp.trans hbare)).trans (by decide)
  exact hi.pte_ne ((walk_leaf_bare hi.walk).mpr hmode)

theorem keepsMemory_of_flushFree (h : Run BareStep (boot b.toBootData) es m)
    (hfree : Run FlushFree (boot b.toBootData) es m) :
    Run KeepsMemory (boot b.toBootData) es m := by
  have hboth := h.inter hfree fun _ _ _ _ h₁ h₂ => h₁.1.det h₂.1
  have hkept := hboth.strengthen (I:=StubKept b) (fun _ _ _ hk hs => hk.step hs.1.1)
    (StubKept.boot b)
  exact hkept.mono fun a e c ⟨⟨hbare,hff⟩,hk,_⟩ =>
    ⟨hbare,fun hd => hff.2 ((flushes_iff_dropsMemory hk.clear hbare.1).mpr hd)⟩

theorem flushFree_of_keepsMemory (h : Run KeepsMemory (boot b.toBootData) es m) :
    Run FlushFree (boot b.toBootData) es m := by
  have hkept := h.strengthen (I:=StubKept b) (fun _ _ _ hk hs => hk.step hs.1.1)
    (StubKept.boot b)
  exact hkept.mono fun a e c ⟨⟨hbare,hno⟩,hk,_⟩ =>
    ⟨hbare.1,fun hf => hno ((flushes_iff_dropsMemory hk.clear hbare.1).mp hf)⟩

/-- After a run without a write of `satp`, RAM is accessible exactly when no step
of the run took the memory away. -/
theorem bare_memory_kept (h : Run BareStep (boot b.toBootData) es m) {a : Word} (ha : inRam a) :
    BareAccessible m a ↔ Run KeepsMemory (boot b.toBootData) es m := by
  have hbare := run_bare h
  have hwin := inRamWindow_of_inRam ha
  have hlt : pageOf a < taskPages := Nat.lt_trans hwin.2 (by decide)
  rw [bareAccessible_iff hbare]
  constructor
  · intro hm
    have hrun : Run Step (boot b.toBootData) es m := h.mono fun _ _ _ h => h.1
    rcases mapped_origin hrun hlt (fun hs => b.not_ram _ hs hwin) hm with ⟨-,-,hfree⟩ | ⟨l,hi,-⟩
    · exact keepsMemory_of_flushFree h hfree
    · exact absurd hi (not_installedFrom_of_bare hbare)
  · intro hk
    apply (FlushFree.run_keeps (flushFree_of_keepsMemory hk) (StubKept.boot b)).2
    exact (b.mapStart_apply hlt).trans (if_pos hwin)

end Bare

/-- `csrw sepc, t1; sret`. -/
def bareKernel : List (BitVec 32) := [0x14131073,0x10200073]

def bareStart : List Event :=
  []++[.guest (boot (smallData bareKernel)).ram (smallRegs kernelStart 0 kernelStart)]

def bareSepc : List Event := bareStart++[.signal smallHost .sigill]

/-- It returns to U-mode, at that address. -/
def bareUser : List Event := bareSepc++[.signal smallHost .sigill]

theorem bareSepc_run :
    Run BareStep (boot (smallData bareKernel)) bareSepc (smallAfter bareKernel bareSepc) := by
  have h₂ : Replays bareKernel bareSepc := by decide +kernel
  have h₁ : Replays bareKernel bareStart := h₂.left
  have hi : deref32 smallHost (mapConf smallHost (smallAfter bareKernel bareStart))
      (smallAfter bareKernel bareStart).pc = .ok 0x14131073 := by decide +kernel
  have hstart : Run BareStep (boot (smallData bareKernel)) bareStart (smallAfter bareKernel bareStart) :=
    .cons ⟨small_step h₁,id⟩ (.nil _)
  exact hstart.snoc ⟨small_step h₂,not_writesCsr hi (.inr (by decide))⟩

/-- While the kernel prepares its return it has its memory. -/
theorem bare_memory_kept_sepc :
    BareAccessible (smallAfter bareKernel bareSepc) kernelStart ∧
    Run KeepsMemory (boot (smallBoot bareKernel).toBootData) bareSepc
      (smallAfter bareKernel bareSepc) := by
  have hmap : (smallAfter bareKernel bareSepc).map 0x80200 = some (ramPage 0x200) := by
    decide +kernel
  have hacc : BareAccessible (smallAfter bareKernel bareSepc) kernelStart := .inl hmap
  exact ⟨hacc,(bare_memory_kept (b:=smallBoot bareKernel) bareSepc_run (by decide)).mp hacc⟩

/-- The `sret` to U-mode leaves a guest whose next instruction cannot be fetched:
its page is not mapped, and the fault stops the emulator. -/
theorem bare_sret_loses_memory :
    Run BareStep (boot (smallData bareKernel)) bareUser (smallAfter bareKernel bareUser) ∧
    (smallAfter bareKernel bareUser).priv.privMode = privU ∧
    (smallAfter bareKernel bareUser).pc = kernelStart ∧ inRam kernelStart ∧
    ¬BareAccessible (smallAfter bareKernel bareUser) kernelStart := by
  have h₃ : Replays bareKernel bareUser := by decide +kernel
  have hi : deref32 smallHost (mapConf smallHost (smallAfter bareKernel bareSepc))
      (smallAfter bareKernel bareSepc).pc = .ok 0x10200073 := by decide +kernel
  have hrun := bareSepc_run.snoc ⟨small_step h₃,not_writesCsr hi (.inl (by decide))⟩
  have hmap : (smallAfter bareKernel bareUser).map 0x80200 = none := by decide +kernel
  refine ⟨hrun,by decide +kernel,by decide +kernel,by decide,fun hacc => ?_⟩
  have hsome : (smallAfter bareKernel bareUser).map 0x80200 = _ :=
    (bareAccessible_iff (run_bare hrun)).mp hacc
  rw [hmap] at hsome
  cases hsome

end Urvirt
