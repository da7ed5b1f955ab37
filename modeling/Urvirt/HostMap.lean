import Urvirt.Entrypoint

/-!
# The host address space between two guest instructions

One handled signal either flushes, which leaves the stub alone, or keeps the
context of the address space and adds at most the page of a page fault. The
temporary mappings leave no trace.
-/

namespace Urvirt

open AddressSpace Transition

/-- A privileged instruction asks for a flush: `sfence.vma`, an `sret` to U-mode or
an accepted write of `satp`. -/
def InstrFlushes (m : Machine) (instr : BitVec 32) : Prop :=
  if insFunct3 instr = funct3NotCsr then
    isSfenceVma instr ∨ isSret instr ∧ getSstatusSpp m.priv.sstatus = sstatusSppU
  else
    insCsr instr = csrSatp ∧ csrWrites m.regs instr ∧
      (getSatpMode (csrNewValue m.regs instr m.priv.satp) = satpModeSv39 ∨
        getSatpMode (csrNewValue m.regs instr m.priv.satp) = satpModeBare)

def FaultTraps (env : Host) (m : Machine) (siAddr : Word) : Prop :=
  m.walk siAddr = .fault ∨ ∃ l scause, m.walk siAddr = .leaf l ∧ inRam l.pa ∧
    segvCause env m siAddr = .ok scause ∧ ¬ptePermits scause l.pte

/-- Emulating the signal asks for a flush: such an instruction, or a trap. -/
def RequestsFlush (env : Host) (m : Machine) : Signal → Prop
  | .sigsys _ => m.priv.privMode ≠ privS
  | .sigill => m.priv.privMode ≠ privS ∨
      ∃ instr, deref32 env m m.pc = .ok instr ∧ InstrFlushes m instr
  | .sigalrm _ => False
  | .sigsegv siAddr => FaultTraps env m siAddr

def Flushes (m : Machine) : Event → Prop
  | .guest _ _ => False
  | .signal env sig =>
    ∃ mid, emulate env sig m = .ok mid ∧ (takeInterrupt mid).priv.shouldClearVm = true

/-- What installed pages depend on is the same in both machines, and no trap lies between them. -/
def SameContext (m m' : Machine) : Prop :=
  m'.priv.satp = m.priv.satp ∧ m'.priv.privMode = m.priv.privMode ∧ m'.traps = m.traps

/-- The page fault at `a` has a leaf in RAM, and its page is installed. -/
structure Installs (m : Machine) (a : Word) (l : Leaf) (map : HostMap) : Prop where
  walk : m.walk a = .leaf l
  pte_ne : l.pte ≠ 0
  in_ram : inRam l.pa
  lt : pageOf a < taskPages
  free : m.map (pageOf a) = none
  eq : map = Function.update m.map (pageOf a) (some (leafPage l.pte))

theorem pageOf_mask (a : Word) : pageOf (a &&& ~~~0xfff) = pageOf a := by
  have hshift : (a &&& ~~~0xfff) >>> 12 = a >>> 12 := by
    apply BitVec.eq_of_getLsbD_eq
    intro i hi
    have hbit : (0xfff : Word).getLsbD (12+i) = false := by
      rw [← BitVec.testBit_toNat]
      apply Nat.testBit_lt_two_pow
      calc (0xfff : Word).toNat < 2^12 := by decide
        _ ≤ 2^(12+i) := Nat.pow_le_pow_right (by decide) (Nat.le_add_right 12 i)
    rw [BitVec.getLsbD_ushiftRight,BitVec.getLsbD_ushiftRight,BitVec.getLsbD_and,
      BitVec.getLsbD_not,hbit]
    by_cases h : 12+i < 64
    · simp only [h,decide_true,Bool.not_false,Bool.and_self,Bool.and_true]
    · rw [BitVec.getLsbD_of_ge a (12+i) (by omega)]
      rfl
  have h := congrArg BitVec.toNat hshift
  rw [BitVec.toNat_ushiftRight,BitVec.toNat_ushiftRight,Nat.shiftRight_eq_div_pow,
    Nat.shiftRight_eq_div_pow] at h
  exact h

theorem sMmapNoreplace_some {map map' : HostMap} {addr : Word} {page : HostPage}
    (h : sMmapNoreplace map addr page = some map') :
    pageOf addr < taskPages ∧ map (pageOf addr) = none ∧
      map' = Function.update map (pageOf addr) (some page) := by
  simp only [sMmapNoreplace,mapNew] at h
  split_ifs at h with ht hn
  cases h
  exact ⟨Nat.lt_of_not_le ht,hn,rfl⟩

theorem SignalEffect.map_cases {env : Host} {m mid : Machine} {sig : Signal}
    (h : SignalEffect env m sig mid) :
    mid.map = m.map ∨ ∃ a l, sig = .sigsegv a ∧ Installs m a l mid.map := by
  cases h with
  | sbiQuiet _ _ => exact .inl rfl
  | sbiSetTimer _ _ => exact .inl rfl
  | uecall _ => exact .inl rfl
  | privInstr _ _ _ hp => cases hp <;> exact .inl rfl
  | illegal _ => exact .inl rfl
  | alarm => exact .inl rfl
  | fault _ hf =>
    cases hf with
    | noLeaf _ => exact .inl rfl
    | denied _ _ _ _ _ => exact .inl rfl
    | @mapped l map hw hz hram hp hmap =>
      obtain ⟨hlt,hfree,rfl⟩ := sMmapNoreplace_some hmap
      rw [pageOf_mask] at hlt hfree ⊢
      exact .inr ⟨_,l,rfl,hw,hz,hram,hlt,hfree,rfl⟩
    | device _ _ _ _ _ hframe =>
      obtain ⟨blockId,buf,ram,block,pc,rfl⟩ := hframe
      exact .inl rfl

theorem PrivEffect.flush {m m' : Machine} {instr : BitVec 32} (h : PrivEffect m instr m')
    (hs : m.priv.privMode = privS) (hc : m.priv.shouldClearVm = false) :
    (InstrFlushes m instr ∧ m'.priv.shouldClearVm = true) ∨
    (¬InstrFlushes m instr ∧ m'.priv.shouldClearVm = false ∧ SameContext m m') := by
  cases h with
  | sfenceVma hf3 hsf => exact .inl ⟨by rw [InstrFlushes,if_pos hf3]; exact .inl hsf,rfl⟩
  | wfi hf3 hwfi =>
    refine .inr ⟨?_,hc,rfl,rfl,rfl⟩
    rw [InstrFlushes,if_pos hf3]
    rintro (hsf | ⟨hsret,-⟩)
    · exact absurd (hwfi.1.symm.trans hsf.1) (by decide)
    · exact absurd (hwfi.2.1.symm.trans hsret.2.1) (by decide)
  | sret hf3 hsret =>
    have hreq : InstrFlushes m instr ↔ getSstatusSpp m.priv.sstatus = sstatusSppU := by
      rw [InstrFlushes,if_pos hf3]
      constructor
      · rintro (hsf | ⟨-,hspp⟩)
        · exact absurd (hsret.1.symm.trans hsf.1) (by decide)
        · exact hspp
      · exact fun hspp => .inr ⟨hsret,hspp⟩
    by_cases hspp : getSstatusSpp m.priv.sstatus = sstatusSppU
    · exact .inl ⟨hreq.mpr hspp,if_pos hspp⟩
    · exact .inr ⟨fun h => hspp (hreq.mp h),(if_neg hspp).trans hc,rfl,(if_neg hspp).trans hs.symm,rfl⟩
  | csrRead hf3 hno =>
    refine .inr ⟨?_,hc,rfl,rfl,rfl⟩
    rw [InstrFlushes,if_neg hf3]
    exact fun h => hno h.2.1
  | @csrWrite orig priv regs hf3 hwr hr hw =>
    have hreq : InstrFlushes m instr → insCsr instr = csrSatp := by
      rw [InstrFlushes,if_neg hf3]
      exact fun h => h.1
    cases writeCsr_effect hw with
    | satp hn hmode =>
      rw [hn] at hr
      cases hr
      refine .inl ⟨?_,rfl⟩
      rw [InstrFlushes,if_neg hf3]
      exact ⟨hn,hwr,hmode⟩
    | satpIgnored hn hmode =>
      rw [hn] at hr
      cases hr
      refine .inr ⟨?_,hc,rfl,rfl,rfl⟩
      rw [InstrFlushes,if_neg hf3]
      exact fun h => hmode h.2.2
    | _ hn => exact .inr ⟨fun h => absurd (hn.symm.trans (hreq h)) (by decide),hc,rfl,rfl,rfl⟩

theorem faultTraps_iff {env : Host} {m : Machine} {siAddr scause : Word} {l : Leaf}
    (hc : segvCause env m siAddr = .ok scause) (hw : m.walk siAddr = .leaf l) :
    FaultTraps env m siAddr ↔ inRam l.pa ∧ ¬ptePermits scause l.pte := by
  constructor
  · rintro (hf | ⟨l',scause',hw',hram,hc',hp⟩)
    · simp [hw] at hf
    · obtain rfl := leaf_unique hw hw'
      rw [hc] at hc'; cases hc'
      exact ⟨hram,hp⟩
  · rintro ⟨hram,hp⟩
    exact .inr ⟨l,scause,hw,hram,hc,hp⟩

/-- A signal case leaves a flush request exactly when it makes one, and keeps the
context of the address space otherwise. -/
theorem SignalEffect.flush {env : Host} {m mid : Machine} {sig : Signal}
    (h : SignalEffect env m sig mid) (hc : m.priv.shouldClearVm = false) :
    (RequestsFlush env m sig ∧ mid.priv.shouldClearVm = true) ∨
    (¬RequestsFlush env m sig ∧ mid.priv.shouldClearVm = false ∧ SameContext m mid) := by
  cases h with
  | sbiQuiet hs _ => exact .inr ⟨fun h => h hs,hc,rfl,rfl,rfl⟩
  | sbiSetTimer hs _ => exact .inr ⟨fun h => h hs,hc,rfl,rfl,rfl⟩
  | uecall hu => exact .inl ⟨hu,rfl⟩
  | @privInstr instr _ hs hi _ hp =>
    rcases hp.flush hs hc with ⟨hreq,hset⟩ | ⟨hreq,hset,hctx⟩
    · exact .inl ⟨.inr ⟨instr,hi,hreq⟩,hset⟩
    · refine .inr ⟨?_,hset,hctx⟩
      rintro (hu | ⟨instr',hi',hreq'⟩)
      · exact hu hs
      · rw [hi] at hi'
        cases hi'
        exact hreq hreq'
  | illegal hu => exact .inl ⟨.inl hu,rfl⟩
  | alarm => exact .inr ⟨id,hc,rfl,rfl,rfl⟩
  | fault hcause hf =>
    cases hf with
    | noLeaf hw => exact .inl ⟨.inl hw,rfl⟩
    | denied hw _ hram hp _ => exact .inl ⟨(faultTraps_iff hcause hw).mpr ⟨hram,hp⟩,rfl⟩
    | mapped hw _ _ hp _ =>
      exact .inr ⟨fun h => ((faultTraps_iff hcause hw).mp h).2 hp,hc,rfl,rfl,rfl⟩
    | device hw _ hram _ _ hframe =>
      obtain ⟨blockId,buf,ram,block,pc,rfl⟩ := hframe
      exact .inr ⟨fun h => hram ((faultTraps_iff hcause hw).mp h).1,hc,rfl,rfl,rfl⟩

theorem SignalEffect.stub_eq {env : Host} {m mid : Machine} {sig : Signal}
    (h : SignalEffect env m sig mid) :
    mid.priv.stubStart = m.priv.stubStart ∧ mid.priv.stubSize = m.priv.stubSize := by
  cases h with
  | sbiQuiet _ _ => exact ⟨rfl,rfl⟩
  | sbiSetTimer _ _ => exact ⟨rfl,rfl⟩
  | uecall _ => exact ⟨rfl,rfl⟩
  | privInstr _ _ _ hp =>
    cases hp with
    | csrWrite _ _ _ hw =>
      cases writeCsr_effect hw <;> exact ⟨rfl,rfl⟩
    | _ => exact ⟨rfl,rfl⟩
  | illegal _ => exact ⟨rfl,rfl⟩
  | alarm => exact ⟨rfl,rfl⟩
  | fault _ hf =>
    cases hf with
    | device _ _ _ _ _ hframe =>
      obtain ⟨blockId,buf,ram,block,pc,rfl⟩ := hframe
      exact ⟨rfl,rfl⟩
    | _ => exact ⟨rfl,rfl⟩

theorem takeInterrupt_map (m : Machine) : (takeInterrupt m).map = m.map := by
  simp only [takeInterrupt]
  split_ifs <;> rfl

theorem takeInterrupt_stub (m : Machine) :
    (takeInterrupt m).priv.stubStart = m.priv.stubStart ∧
      (takeInterrupt m).priv.stubSize = m.priv.stubSize := by
  simp only [takeInterrupt]
  split_ifs <;> exact ⟨rfl,rfl⟩

theorem takeInterrupt_of_no_flush {m : Machine} (h : (takeInterrupt m).priv.shouldClearVm = false) :
    ¬interruptPending m.priv ∧ takeInterrupt m = m := by
  simp only [takeInterrupt] at h ⊢
  split_ifs at h ⊢ with hp
  · cases h
  · exact ⟨hp,rfl⟩

theorem handler_of_quiet {env : Host} {sig : Signal} {m mid : Machine}
    (hmid : emulate env sig m = .ok mid) (hpend : ¬interruptPending mid.priv)
    (hclear : mid.priv.shouldClearVm = false) : handler env sig m = .ok (unmapConf env mid) := by
  have htake : takeInterrupt mid = mid := if_neg hpend
  have hkeep : clearVm mid = mid := if_neg (by simp [hclear])
  simp [handler,hmid,htake,hkeep,bind,Except.bind]

theorem clearVm_priv (m : Machine) : (clearVm m).priv = { m.priv with shouldClearVm := false } := by
  simp only [clearVm]
  split_ifs with h
  · rfl
  · have hf : m.priv.shouldClearVm = false := by simpa using h
    rw [← hf]

theorem resume_priv (env : Host) (m : Machine) :
    (unmapConf env (clearVm m)).priv = { m.priv with shouldClearVm := false } := clearVm_priv m

theorem resume_pc (env : Host) (m : Machine) : (unmapConf env (clearVm m)).pc = m.pc := by
  simp only [unmapConf,clearVm,Machine.pc]
  split_ifs <;> rfl

theorem resume_traps (env : Host) (m : Machine) : (unmapConf env (clearVm m)).traps = m.traps := by
  simp only [unmapConf,clearVm]
  split_ifs <;> rfl

theorem inStub_congr {priv priv' : PrivState} (hstart : priv'.stubStart = priv.stubStart)
    (hsize : priv'.stubSize = priv.stubSize) (p : ℕ) : InStub priv' p ↔ InStub priv p := by
  simp only [InStub]
  rw [hstart,hsize]

theorem StubFits.congr {priv priv' : PrivState} (h : StubFits priv)
    (hstart : priv'.stubStart = priv.stubStart) (hsize : priv'.stubSize = priv.stubSize) :
    StubFits priv' := by
  refine ⟨?_,?_,?_⟩
  · rw [hstart]; exact h.start_aligned
  · rw [hsize]; exact h.size_aligned
  · rw [hstart,hsize]; exact h.below

theorem SignalEffect.map_of_mapped {env : Host} {m mid : Machine} {sig : Signal} {p : ℕ}
    (h : SignalEffect env m sig mid) (hp : m.map p ≠ none) : mid.map p = m.map p := by
  rcases h.map_cases with hmap | ⟨a,l,-,hi⟩
  · rw [hmap]
  · have hne : p ≠ pageOf a := by
      rintro rfl
      exact hp hi.free
    rw [hi.eq,Function.update_of_ne hne]

theorem unmapConf_clearVm_map {env : Host} {m mid : Machine} {sig : Signal} (hfit : StubFits m.priv)
    (hstub : ∀ p, InStub m.priv p → m.map p ≠ none) (hfree : FreeChoice m.map env sig)
    (heff : SignalEffect env (mapConf env m) sig mid)
    (hfl : (takeInterrupt mid).priv.shouldClearVm = true) {p : ℕ} (hp : p < taskPages) :
    (unmapConf env (clearVm (takeInterrupt mid))).map p =
      if InStub m.priv p then m.map p else none := by
  by_cases hc : InRange env.confPage (pages confSize) p
  · rw [hfree.conf_free p hc,ite_self]
    exact unmapRange_of_mem hc
  · obtain ⟨hstart,hsize⟩ := heff.stub_eq
    have hfit' : StubFits (takeInterrupt mid).priv :=
      hfit.congr ((takeInterrupt_stub mid).1.trans hstart) ((takeInterrupt_stub mid).2.trans hsize)
    have hin := inStub_congr (p:=p) ((takeInterrupt_stub mid).1.trans hstart)
      ((takeInterrupt_stub mid).2.trans hsize)
    have hclear : (clearVm (takeInterrupt mid)).map p =
        if InStub (takeInterrupt mid).priv p then mid.map p else none := by
      rw [clearVm,if_pos hfl,← takeInterrupt_map mid]
      exact clearMap_apply hfit' _ hp
    refine (unmapRange_of_not hc).trans (hclear.trans ?_)
    by_cases hs : InStub m.priv p
    · rw [if_pos hs,if_pos (hin.mpr hs)]
      have hconf : (mapConf env m).map p = m.map p := by rw [mapConf_map,mapRange_of_not hc]
      rw [heff.map_of_mapped (hconf ▸ hstub p hs),hconf]
    · rw [if_neg hs,if_neg (fun h => hs (hin.mp h))]

/-- Without a flush the temporary mapping of the config page leaves no trace. -/
theorem unmapConf_map {env : Host} {m mid : Machine} {sig : Signal}
    (hfree : FreeChoice m.map env sig) (heff : SignalEffect env (mapConf env m) sig mid) :
    (unmapConf env mid).map = m.map ∨
      ∃ a l, sig = .sigsegv a ∧ Installs m a l (unmapConf env mid).map := by
  rcases heff.map_cases with hmap | ⟨a,l,rfl,hi⟩
  · left
    rw [mapConf_map] at hmap
    exact (congrArg (unmapRange · _ _) hmap).trans (unmapRange_mapRange hfree.conf_free)
  · right
    have hout : ¬InRange env.confPage (pages confSize) (pageOf a) := by
      intro hin
      have hnone := hi.free
      rw [mapConf_map,mapRange,if_pos hin] at hnone
      cases hnone
    have hnone := hi.free
    have hmap := hi.eq
    rw [mapConf_map] at hnone hmap
    rw [mapRange_of_not hout] at hnone
    refine ⟨a,l,rfl,hi.walk,hi.pte_ne,hi.in_ram,hi.lt,hnone,?_⟩
    exact (congrArg (unmapRange · _ _) hmap).trans
      (unmapRange_update_mapRange hfree.conf_free hout)

/-- One step flushes, or keeps the context and adds at most one page. -/
theorem step_map {m m' : Machine} {e : Event} (hfit : StubFits m.priv)
    (hstub : ∀ p, InStub m.priv p → m.map p ≠ none) (hclear : m.priv.shouldClearVm = false)
    (hs : Step m e m') :
    (Flushes m e ∧ ∀ p < taskPages, m'.map p = if InStub m.priv p then m.map p else none) ∨
    (¬Flushes m e ∧ SameContext m m' ∧
      (m'.map = m.map ∨ ∃ env a l, e = .signal env (.sigsegv a) ∧ Installs m a l m'.map)) := by
  cases hs with
  | guest ram regs => exact .inr ⟨id,⟨rfl,rfl,rfl⟩,.inl rfl⟩
  | @signal _ env sig hfree hh =>
    obtain ⟨mid,hmid,heff,rfl⟩ := handler_effect hfree hh
    cases hfl : (takeInterrupt mid).priv.shouldClearVm with
    | true =>
      exact .inl ⟨⟨mid,hmid,hfl⟩,fun p hp => unmapConf_clearVm_map hfit hstub hfree heff hfl hp⟩
    | false =>
      obtain ⟨-,htake⟩ := takeInterrupt_of_no_flush hfl
      have hno : mid.priv.shouldClearVm = false := htake ▸ hfl
      have hend : clearVm (takeInterrupt mid) = mid := by
        rw [htake,clearVm,if_neg (by rw [hno]; decide)]
      have hctx : SameContext m mid := by
        rcases heff.flush hclear with ⟨-,hset⟩ | ⟨-,-,hctx⟩
        · simp [hno] at hset
        · exact hctx
      rw [hend]
      refine .inr ⟨?_,hctx,?_⟩
      · rintro ⟨mid',hmid',hfl'⟩
        rw [hmid] at hmid'
        cases hmid'
        rw [hfl] at hfl'
        cases hfl'
      · rcases unmapConf_map hfree heff with hmap | ⟨a,l,rfl,hi⟩
        · exact .inl hmap
        · exact .inr ⟨env,a,l,rfl,hi⟩

theorem step_stub {m m' : Machine} {e : Event} (hs : Step m e m') :
    m'.priv.stubStart = m.priv.stubStart ∧ m'.priv.stubSize = m.priv.stubSize := by
  cases hs with
  | guest ram regs => exact ⟨rfl,rfl⟩
  | signal hfree hh =>
    obtain ⟨mid,-,heff,rfl⟩ := handler_effect hfree hh
    obtain ⟨h₁,h₂⟩ := heff.stub_eq
    obtain ⟨h₃,h₄⟩ := takeInterrupt_stub mid
    rw [resume_priv]
    exact ⟨h₃.trans h₁,h₄.trans h₂⟩

theorem takeInterrupt_shouldClearVm {m : Machine} (h : m.priv.shouldClearVm = true) :
    (takeInterrupt m).priv.shouldClearVm = true := by
  simp only [takeInterrupt]
  split_ifs
  · rfl
  · exact h

structure StubKept (b : Boot) (m : Machine) : Prop where
  clear : m.priv.shouldClearVm = false
  start : m.priv.stubStart = b.config.stubStart
  size : m.priv.stubSize = b.config.stubSize
  page : ∀ p, InStub b.config p → m.map p = some (b.stubPage p)

namespace StubKept

variable {b : Boot} {m m' : Machine} {e : Event}

theorem fits (h : StubKept b m) : StubFits m.priv := b.stubFits.congr h.start h.size

theorem inStub (h : StubKept b m) (p : ℕ) : InStub m.priv p ↔ InStub b.config p :=
  inStub_congr h.start h.size p

theorem mapped (h : StubKept b m) (p : ℕ) (hp : InStub m.priv p) : m.map p ≠ none := by
  rw [h.page p ((h.inStub p).mp hp)]
  exact Option.some_ne_none _

theorem map_cases (h : StubKept b m) (hs : Step m e m') :
    (Flushes m e ∧ ∀ p < taskPages, m'.map p = if InStub m.priv p then m.map p else none) ∨
    (¬Flushes m e ∧ SameContext m m' ∧
      (m'.map = m.map ∨ ∃ env a l, e = .signal env (.sigsegv a) ∧ Installs m a l m'.map)) :=
  step_map h.fits h.mapped h.clear hs

theorem map_of_mapped (h : StubKept b m) (hs : Step m e m') (hno : ¬Flushes m e) {p : ℕ}
    {pg : HostPage} (hp : m.map p = some pg) : m'.map p = some pg := by
  rcases h.map_cases hs with ⟨hfl,-⟩ | ⟨-,-,hmap | ⟨env,a,l,-,hi⟩⟩
  · exact absurd hfl hno
  · rw [hmap,hp]
  · have hne : p ≠ pageOf a := by
      rintro rfl
      rw [hi.free] at hp
      cases hp
    rw [hi.eq,Function.update_of_ne hne,hp]

theorem boot (b : Boot) : StubKept b (boot b.toBootData) where
  clear := rfl
  start := rfl
  size := rfl
  page p hp := by
    refine (b.mapStart_apply (b.stubFits.lt hp)).trans ?_
    rw [if_neg (b.not_ram p hp),if_pos hp]

theorem step (h : StubKept b m) (hs : Step m e m') : StubKept b m' where
  clear := by
    cases hs with
    | guest ram regs => exact h.clear
    | signal hfree hh =>
      obtain ⟨mid,-,-,rfl⟩ := handler_effect hfree hh
      rw [resume_priv]
  start := (step_stub hs).1.trans h.start
  size := (step_stub hs).2.trans h.size
  page p hp := by
    rcases h.map_cases hs with ⟨-,hmap⟩ | ⟨hno,-⟩
    · rw [hmap p (b.stubFits.lt hp),if_pos ((h.inStub p).mpr hp),h.page p hp]
    · exact h.map_of_mapped hs hno (h.page p hp)

theorem run {es : List Event} (h : Run Step (Urvirt.boot b.toBootData) es m) : StubKept b m :=
  h.invariant (fun _ _ _ h hs => h.step hs) (boot b)

end StubKept

end Urvirt
