import Urvirt.VirtualMachine

/-!
# The hart behind the emulator

A state of the emulator stands for a state of the hart. What the host map shows of RAM
are translations that the hart may have cached, and this outlives every step.
-/

namespace Urvirt

open AddressSpace Bitfield PageTable Rv64gc MemoryProgram Transition Scatter

variable {σ : Type}

def hartOf (m : Machine) (x : Unemulated σ) (tlb : ℕ → Mapping → Prop) : Hart σ where
  user := decide (m.priv.privMode = privU)
  csr := fun c => c.value m.priv
  regs := m.regs
  ext := x.ext
  ram := m.ram
  disk := m.block
  blockId := m.priv.urvbBlockId
  buf := m.priv.urvbBuf
  console := m.stdout
  clock := x.clock
  timecmp := x.timecmp
  tlb := tlb

theorem Hart.with_congr (h : Hart σ) {user user' : Bool} {csr csr' : Csr → Word} {regs regs' : Regs}
    (huser : user = user') (hcsr : csr = csr') (hregs : regs = regs') :
    { h with user := user, csr := csr, regs := regs } =
      { h with user := user', csr := csr', regs := regs' } := by
  rw [huser,hcsr,hregs]

section HartOf

variable {m : Machine} {x : Unemulated σ} {tlb : ℕ → Mapping → Prop}

theorem hartOf_resume (env : Host) (m : Machine) (x : Unemulated σ) (tlb : ℕ → Mapping → Prop) :
    hartOf (unmapConf env (clearVm m)) x tlb = hartOf m x tlb := by
  simp only [hartOf,unmapConf,clearVm]
  split_ifs <;> rfl

theorem bare_iff : Hart.Bare m.priv.satp ↔ getSatpMode m.priv.satp = satpModeBare := by
  have hlt := m.priv.satp.isLt
  have hget := @get_eq_iff 64 60 4 (by decide) m.priv.satp satpModeBare
  have hzero : satpModeBare.toNat = 0 := rfl
  rw [getSatpMode,hget,hzero,Hart.Bare]
  omega

theorem sv39_of_not_bare (hl : Legal m.priv) (hb : ¬Hart.Bare m.priv.satp) :
    getSatpMode m.priv.satp = satpModeSv39 :=
  hl.satp_mode.resolve_left fun h => hb (bare_iff.mpr h)

theorem not_bare_of_sv39 (h : getSatpMode m.priv.satp = satpModeSv39) : ¬Hart.Bare m.priv.satp := by
  rw [bare_iff,h]
  decide

theorem user_eq (hl : Legal m.priv) :
    (hartOf m x tlb).user = !decide (m.priv.privMode = privS) := by
  change decide (m.priv.privMode = privU) = _
  rcases hl.mode with h | h <;> rw [h] <;> decide

theorem trapStatus_eq (hl : Legal m.priv) :
    trapStatus m.priv.privMode m.priv.sstatus = (hartOf m x tlb).trapStatus := by
  apply BitVec.eq_of_getLsbD_eq
  intro i hi
  rw [getLsbD_trapStatus]
  simp only [Hart.trapStatus,Hart.getLsbD_withBit _ hi,user_eq hl,Bool.not_not]
  change _ = if i = 8 then _ else if i = 5 then m.priv.sstatus.getLsbD 1
    else if i = 1 then false else m.priv.sstatus.getLsbD i
  by_cases h1 : i = 1
  · subst h1; rfl
  · by_cases h5 : i = 5
    · subst h5; rfl
    · rw [if_neg h1,if_neg h5,if_neg h5,if_neg h1]

theorem sretStatus_eq : sretStatus m.priv.sstatus = (hartOf m x tlb).returnStatus := by
  let s₁ := setSstatusSie m.priv.sstatus (getSstatusSpie m.priv.sstatus)
  have hspie : (getSstatusSpie m.priv.sstatus).getLsbD 0 = m.priv.sstatus.getLsbD 5 := by
    rw [getSstatusSpie,getLsbD_get (by decide)]
    rfl
  have hs₁ : ∀ i, s₁.getLsbD i =
      if i = 1 then m.priv.sstatus.getLsbD 5 else m.priv.sstatus.getLsbD i := by
    intro i
    refine (getLsbD_set_one (by decide) _ (isFlag_get (by decide) _ _) i).trans ?_
    exact congrArg (if i = 1 then · else m.priv.sstatus.getLsbD i) hspie
  have hs₂ : ∀ i, (setSstatusSpie s₁ 1).getLsbD i = if i = 5 then true else s₁.getLsbD i :=
    fun i => getLsbD_set_one (by decide) _ isFlag_one i
  apply BitVec.eq_of_getLsbD_eq
  intro i hi
  refine (getLsbD_set_one (by decide) _ isFlag_zero i).trans ?_
  rw [hs₂,hs₁]
  simp only [Hart.returnStatus,Hart.getLsbD_withBit _ hi]
  rfl

theorem setSixSti_eq (v : Word) {f : Word} (hf : IsFlag f) :
    setSixSti v f = Hart.withBit v 5 (f.getLsbD 0) := by
  apply BitVec.eq_of_getLsbD_eq
  intro i hi
  rw [Hart.getLsbD_withBit _ hi]
  exact getLsbD_set_one (by decide) _ hf i

theorem getSixSti_iff (v : Word) : getSixSti v ≠ 0 ↔ v.getLsbD 5 = true := by
  rw [getSixSti,get_one (by decide)]
  cases v.getLsbD 5 <;> decide

theorem hartOf_enterTrap (hl : Legal m.priv) (cause tval : Word) :
    hartOf (enterTrap m cause tval) x tlb = (hartOf m x tlb).trap m.pc cause tval := by
  have hvector : trapTarget m.priv cause =
      BitVec.ofNat 64 (vectorAddress m.priv.stvec.toNat cause.toNat) := by
    rw [← toNat_trapTarget hl,BitVec.ofNat_toNat,BitVec.setWidth_eq]
  have hcsr : (hartOf (enterTrap m cause tval) x tlb).csr =
      ((hartOf m x tlb).trap m.pc cause tval).csr := by
    funext c
    cases c with
    | sstatus => exact trapStatus_eq hl
    | _ => rfl
  have hregs : (hartOf (enterTrap m cause tval) x tlb).regs =
      ((hartOf m x tlb).trap m.pc cause tval).regs := congrArg (Function.update m.regs 0) hvector
  exact Hart.with_congr (hartOf m x tlb) rfl hcsr hregs

theorem interruptDue_iff (hl : Legal m.priv) :
    (hartOf m x tlb).InterruptDue ↔ interruptPending m.priv := by
  rw [← timerDue_iff hl,TimerDue,getSixSti_iff,getSixSti_iff]
  refine and_congr Iff.rfl (and_congr Iff.rfl (or_congr decide_eq_true_iff ?_))
  rw [getSstatusSie,get_one (by decide)]
  change m.priv.sstatus.getLsbD 1 = true ↔ _
  cases m.priv.sstatus.getLsbD 1 <;> decide

end HartOf

section Tables

variable {m : Machine} {x : Unemulated σ} {tlb : ℕ → Mapping → Prop} {va : Word} {l : Leaf} {k : Kind}

theorem canonical_of_user (h : pageOf va < taskPages) : Canonical 39 va := by
  have hlt : va.toNat < 2^38 := by
    simp only [pageOf,taskPages] at h
    omega
  have hzero : ∀ i, 38 ≤ i → va.getLsbD i = false := fun i hi =>
    BitVec.testBit_toNat va ▸ Nat.testBit_lt_two_pow (lt_of_lt_of_le hlt (Nat.pow_le_pow_right (by decide) hi))
  intro i _ hi
  rw [hzero i (by omega),hzero (39-1) (by decide)]

theorem walk_pointer {mem : ℕ → Option Entry} {level table : ℕ} {e : Entry}
    (h : walk mem va level table = .pointer e) : leafProt e = ⟨false,false,false⟩ := by
  induction level generalizing table with
  | zero =>
    simp only [walk,visit] at h
    split at h
    · cases h
    · split_ifs at h with hv hl
      cases h
      simp only [Entry.invalid,Entry.isLeaf] at hv hl
      cases hr : e.r <;> cases hx : e.x <;> cases hw : e.w <;> simp_all [leafProt]
  | succ level ih =>
    simp only [walk,visit] at h
    split at h
    · cases h
    · split_ifs at h
      exact ih h

theorem found_of_leaf (hsatp : getSatpMode m.priv.satp = satpModeSv39) (hva : Canonical 39 va)
    (hw : m.walk va = .leaf l) (hk : (leafProt l.pte).allows k = true) :
    Hart.found m.priv.satp m.ram va = some ⟨Entry.ppn l.pte,l.pte⟩ := by
  rw [Machine.walk_eq hsatp hva] at hw
  rcases emulated_leaf hw with ho | ho
  · obtain ⟨hframe,hmis⟩ := frame_zero va l.pte
    simp only [Hart.found,if_pos hva,ho,hframe,if_neg hmis]
  · rw [walk_pointer ho] at hk
    cases k <;> exact absurd hk Bool.false_ne_true

theorem refuses_of_fault (hl : Legal m.priv) (hw : m.walk va = .fault) :
    (hartOf m x tlb).Refuses k va := by
  have hb : ¬Hart.Bare m.priv.satp := by
    intro hb
    rw [bare_iff] at hb
    simp [Machine.walk,lookupPaInRam,hb] at hw
  refine ⟨hb,or_iff_not_imp_left.mpr fun hva => ?_⟩
  rw [Machine.walk_eq (sv39_of_not_bare hl hb) (not_not.mp hva)] at hw
  have ho : tableWalk m.priv.satp m.ram va = .invalid := emulated_fault.mp hw
  refine ⟨fun hout => ?_,fun t ht => ?_⟩
  · cases ho.symm.trans hout
  · have ht : Hart.found m.priv.satp m.ram va = some t := ht
    simp [Hart.found,ho] at ht

theorem refuses_of_leaf (hl : Legal m.priv) (hw : m.walk va = .leaf l) (hz : l.pte ≠ 0)
    (hk : (leafProt l.pte).allows k = false)
    (hmxr : k = .load → m.priv.sstatus.getLsbD 19 = false) : (hartOf m x tlb).Refuses k va := by
  have hb : ¬Hart.Bare m.priv.satp := fun hb => hz ((walk_leaf_bare hw).mpr (bare_iff.mp hb))
  refine ⟨hb,or_iff_not_imp_left.mpr fun hva => ?_⟩
  have hva := not_not.mp hva
  rw [Machine.walk_eq (sv39_of_not_bare hl hb) hva] at hw
  obtain ⟨hframe,hmis⟩ := frame_zero va l.pte
  have hnot : ¬(hartOf m x tlb).Grants k l.pte := by
    rintro ⟨hk' | ⟨hload,hmxr',-⟩,-⟩
    · cases hk.symm.trans hk'
    · cases (hmxr hload).symm.trans hmxr'
  rcases emulated_leaf hw with ho | ho
  · refine ⟨fun hout => ?_,fun t ht => ?_⟩
    · cases ho.symm.trans hout
    · have ht : Hart.found m.priv.satp m.ram va = some t := ht
      simp only [Hart.found,if_pos hva,ho,if_neg hmis,Option.some.injEq] at ht
      rw [← ht]
      exact hnot
  · refine ⟨fun hout => ?_,fun t ht => ?_⟩
    · cases ho.symm.trans hout
    · have ht : Hart.found m.priv.satp m.ram va = some t := ht
      simp [Hart.found,ho] at ht

theorem ptePermits_kind (k : Kind) (pte : Word) :
    ptePermits k.cause pte ↔ (leafProt pte).allows k = true := by
  cases k with
  | fetch => exact ptePermits_iff (.inl rfl) pte
  | load => exact ptePermits_iff (.inr (.inl rfl)) pte
  | store => exact ptePermits_iff (.inr (.inr rfl)) pte

end Tables

/-- A native access goes where the hart's may go, with a translation that needs neither
SUM nor MXR. -/
inductive Shown (m : Machine) (tlb : ℕ → Mapping → Prop) (k : Kind) (a : Word) (o : ℕ) : Prop
  | bare : Hart.Bare m.priv.satp → a.toNat = ramStart.toNat+o → o < ramSize.toNat → Shown m tlb k a o
  | mapped {t : Mapping} : ¬Hart.Bare m.priv.satp → tlb (a.toNat/4096) t →
      (leafProt t.entry).allows k = true → EntrySound m t.entry →
      t.frame*4096+a.toNat%4096 = ramStart.toNat+o → o < ramSize.toNat → Shown m tlb k a o

/-- The machine is reached by a run, and the current translations are cached. -/
structure Shadows (b : Boot) (m : Machine) (tlb : ℕ → Mapping → Prop) : Prop where
  reached : ∃ es, Run Step (boot b.toBootData) es m
  current : ¬Hart.Bare m.priv.satp → ∀ va t, Hart.found m.priv.satp m.ram va = some t →
    tlb (va.toNat/4096) t
  native : ∀ k a o, m.Native k a o → Shown m tlb k a o

section Shadows

variable {b : Boot} {m m' : Machine} {x : Unemulated σ} {tlb tlb' : ℕ → Mapping → Prop} {e : Event}
  {k : Kind} {a : Word} {o : ℕ}

theorem EntrySound.grants {pte : Entry} (h : EntrySound m pte)
    (hk : (leafProt pte).allows k = true) : (hartOf m x tlb).Grants k pte := by
  refine ⟨.inl hk,.inl h.user,h.accessed,?_⟩
  rintro rfl
  exact h.dirty hk

theorem Shown.cell (h : Shown m tlb k a o) : (hartOf m x tlb).Cell k a o := by
  cases h with
  | bare hb ha hlt =>
    refine ⟨?_,hlt⟩
    rw [← ha]
    exact .bare hb
  | mapped hb ht hk he ha hlt =>
    refine ⟨?_,hlt⟩
    rw [← ha]
    exact .mapped hb ht (he.grants hk)

theorem Shown.mono (h : Shown m tlb k a o) (hctx : SameContext m m')
    (htlb : ∀ p t, tlb p t → tlb' p t) : Shown m' tlb' k a o := by
  obtain ⟨hsatp,hmode,-⟩ := hctx
  cases h with
  | bare hb ha hlt => exact .bare (hsatp ▸ hb) ha hlt
  | mapped hb ht hk he ha hlt =>
    exact .mapped (hsatp ▸ hb) (htlb _ _ ht) hk { he with user := hmode ▸ he.user } ha hlt

theorem Shadows.legal (h : Shadows b m tlb) : GuestLegal m ∧ ¬TimerDue m.priv :=
  let ⟨_,hrun⟩ := h.reached
  run_not_timerDue hrun

theorem Shadows.not_due (h : Shadows b m tlb) : ¬(hartOf m x tlb).InterruptDue := by
  obtain ⟨⟨hl,-⟩,hdue⟩ := h.legal
  rw [interruptDue_iff hl]
  exact fun hpend => hdue ((timerDue_iff hl).mpr hpend)

theorem Shadows.cell (h : Shadows b m tlb) (x : Unemulated σ) :
    ∀ k a o, m.Native k a o → (hartOf m x tlb).Cell k a o :=
  fun k a o hn => (h.native k a o hn).cell

theorem shown_of_leaf {va : Word} {l : Leaf} (hsatp : getSatpMode m.priv.satp = satpModeSv39)
    (hcur : ∀ va t, Hart.found m.priv.satp m.ram va = some t → tlb (va.toNat/4096) t)
    (hlt : pageOf va < taskPages) (hw : m.walk va = .leaf l) (hram : inRam l.pa)
    (he : EntrySound m l.pte) (hpage : pageOf a = pageOf va)
    (hk : (leafProt l.pte).allows k = true) :
    Shown m tlb k a (((getPtePpn l.pte <<< 12)-ramStart).toNat+a.toNat%4096) := by
  have hpa := walk_leaf_pa hsatp hw
  obtain ⟨hoff,hsize⟩ := leafPage_off hpa hram
  have ht := hcur va _ (found_of_leaf hsatp (canonical_of_user hlt) hw hk)
  have hkey : tlb (a.toNat/4096) ⟨Entry.ppn l.pte,l.pte⟩ := by
    have hp : a.toNat/4096 = va.toNat/4096 := hpage
    rw [hp]
    exact ht
  have hphys : l.pa.toNat = Entry.ppn l.pte*4096+va.toNat%4096 := by
    rw [hpa]
    exact toNat_pa va l.pte
  have hs : ramStart.toNat = 0x80000000 := rfl
  have hz : ramSize.toNat = 0x1000000 := rfl
  rw [inRam_iff] at hram
  refine .mapped (not_bare_of_sv39 hsatp) hkey hk he ?_ ?_
  · rw [hoff,hs]
    change Entry.ppn l.pte*4096+a.toNat%4096 = _
    omega
  · rw [hoff,hz]
    omega

/-- What a step may do to the host map and to the cache: a flush clears the map, else the
cache keeps what it has, and a page that is added is one that the hart grants. -/
def KeepsShown (m : Machine) (e : Event) (m' : Machine) (tlb tlb' : ℕ → Mapping → Prop) : Prop :=
  Flushes m e ∨ (∀ p t, tlb p t → tlb' p t) ∧
    ∀ env va l, e = .signal env (.sigsegv va) → Installs m va l m'.map → EntrySound m l.pte

/-- Whatever a step does to the host map, what it shows stays cached. -/
theorem Shadows.step (h : Shadows b m tlb) (hs : Step m e m')
    (hcur : ¬Hart.Bare m'.priv.satp → ∀ va t, Hart.found m'.priv.satp m'.ram va = some t →
      tlb' (va.toNat/4096) t)
    (hkeep : KeepsShown m e m' tlb tlb') : Shadows b m' tlb' where
  reached := by
    obtain ⟨es,hrun⟩ := h.reached
    exact ⟨_,hrun.snoc hs⟩
  current := hcur
  native := by
    obtain ⟨es,hrun⟩ := h.reached
    have hk := StubKept.run hrun
    rintro k a o ⟨hlt,page,off,hp,hb,hx,rfl⟩
    rcases hk.map_cases hs with ⟨-,hmap⟩ | ⟨hno,hctx,hmap⟩
    · -- the flush leaves the stub, which is no RAM
      rw [hmap _ hlt] at hp
      split_ifs at hp with hin
      rw [hk.page _ ((hk.inStub _).mp hin)] at hp
      have hback : (b.stubPage (pageOf a)).back = .ram off := by
        rw [Option.some.inj hp]
        exact hb
      simp only [Boot.stubPage] at hback
      split_ifs at hback
    · obtain ⟨htlb,hentry⟩ := hkeep.resolve_left hno
      have hold : m.map (pageOf a) = some page → Shown m' tlb' k a (off.toNat+a.toNat%4096) :=
        fun hp => (h.native k a _ ⟨hlt,page,off,hp,hb,hx,rfl⟩).mono hctx htlb
      rcases hmap with hmap | ⟨env,va,l,rfl,hi⟩
      · exact hold (hmap ▸ hp)
      · by_cases hpage : pageOf a = pageOf va
        · rw [hi.eq,hpage,Function.update_self,leafPage_eq] at hp
          cases hp
          cases hb
          have hbare : ¬Hart.Bare m.priv.satp := fun hb =>
            hi.pte_ne ((walk_leaf_bare hi.walk).mpr (bare_iff.mp hb))
          exact (shown_of_leaf (sv39_of_not_bare h.legal.1.1 hbare) (h.current hbare) hi.lt hi.walk
            hi.in_ram (hentry env va l rfl hi) hpage hx).mono hctx htlb
        · rw [hi.eq,Function.update_of_ne hpage] at hp
          exact hold hp

theorem boot_bare (b : BootData) : Hart.Bare (boot b).priv.satp := by
  have hmode : getSatpMode 0 = satpModeBare := by decide
  exact bare_iff.mpr hmode

theorem boot_shadows (b : Boot) : Shadows b (boot b.toBootData) fun _ _ => False where
  reached := ⟨[],.nil _⟩
  current hb := absurd (boot_bare _) hb
  native := by
    rintro k a o ⟨hlt,page,off,hp,hb,hx,rfl⟩
    have hmap := b.mapStart_apply hlt
    have hstart : (boot b.toBootData).map = b.mapStart := rfl
    rw [hstart,hmap] at hp
    split_ifs at hp with hram hin
    · have hback : (ramPage (pageOf a-pageOf ramStart)).back = .ram off := by
        rw [Option.some.inj hp]
        exact hb
      obtain rfl := Backing.ram.inj hback
      have hs : ramStart.toNat = 0x80000000 := rfl
      have hz : ramSize.toNat = 0x1000000 := rfl
      have hpages : pageOf ramStart = 0x80000 ∧ pages ramSize = 0x1000 := ⟨rfl,rfl⟩
      obtain ⟨hlow,hhigh⟩ := hram
      rw [hpages.1] at hlow
      rw [hpages.1,hpages.2] at hhigh
      have hoff : (BitVec.ofNat 64 (4096*(pageOf a-pageOf ramStart)) : Word).toNat =
          4096*(pageOf a-pageOf ramStart) := by
        rw [BitVec.toNat_ofNat,hpages.1]
        exact Nat.mod_eq_of_lt (by omega)
      refine .bare (boot_bare _) ?_ ?_
      · rw [hoff,hpages.1,hs]
        simp only [pageOf] at hlow ⊢
        omega
      · rw [hoff,hpages.1,hz]
        omega
    · have hback : (b.stubPage (pageOf a)).back = .ram off := by
        rw [Option.some.inj hp]
        exact hb
      simp only [Boot.stubPage] at hback
      split_ifs at hback

theorem boot_reset (b : BootData) (x : σ) :
    hartOf (boot b) ⟨x,0,none⟩ (fun _ _ => False) = Hart.reset b x := by
  have hstatus : setSstatusSd (setSstatusXs (setSstatusFs 0 sstatusXsDirty) sstatusXsDirty) 1 =
      0x800000000001e000 := by decide
  have hcsr : (hartOf (boot b) ⟨x,0,none⟩ fun _ _ => False).csr = (Hart.reset b x).csr := by
    funext c
    cases c with
    | sstatus => exact hstatus
    | _ => rfl
  exact Hart.with_congr (Hart.reset b x) rfl hcsr rfl

theorem refill_current (m : Machine) (x : Unemulated σ) (tlb : ℕ → Mapping → Prop) :
    ¬Hart.Bare m.priv.satp → ∀ va t, Hart.found m.priv.satp m.ram va = some t →
      (hartOf m x tlb).refill.tlb (va.toNat/4096) t :=
  fun hb va _ ht => .inr ⟨hb,va,rfl,ht⟩

/-- Once the event is emulated the hart may be interrupted, and the handler returns. -/
theorem Shadows.signal {isa : Isa σ} {mid : Machine} {env : Host} {sig : Signal} {h₀ : Hart σ}
    {f : Hart.Event} {tlb₁ : ℕ → Mapping → Prop} (h : Shadows b m tlb)
    (hs : Step m (.signal env sig) m') (hmid : emulate env sig m = .ok mid)
    (hstep : Hart.Step isa h₀ f (hartOf mid x tlb₁).refill)
    (hkeep : KeepsShown m (.signal env sig) m' tlb tlb₁) :
    ∃ fs tlb', (fs = [f] ∨ fs = [f,.interrupt]) ∧ Run (Hart.Step isa) h₀ fs (hartOf m' x tlb') ∧
      Shadows b m' tlb' := by
  cases hs with
  | signal hfree hh =>
    obtain ⟨mid',hmid',heff,hm'⟩ := handler_effect hfree hh
    obtain rfl := Except.ok.inj (hmid.symm.trans hmid')
    have hs : Step m (.signal env sig) m' := .signal hfree hh
    have hl : Legal mid.priv := Legal.signalEffect (m:=mapConf env m) h.legal.1.1 heff
    have hgrow : ∀ p t, tlb₁ p t → (hartOf mid x tlb₁).refill.tlb p t := fun p t => .inl
    have hend : ∀ T, hartOf m' x T = hartOf (takeInterrupt mid) x T := fun T => by
      rw [hm',hartOf_resume]
    have hkeep' : ∀ T, (∀ p t, (hartOf mid x tlb₁).refill.tlb p t → T p t) →
        KeepsShown m (.signal env sig) m' tlb T := fun T hT =>
      hkeep.imp id fun hrest => ⟨fun p t ht => hT p t (hgrow p t (hrest.1 p t ht)),hrest.2⟩
    have hcur : ∀ (M : Machine) (T : ℕ → Mapping → Prop), takeInterrupt mid = M →
        ¬Hart.Bare m'.priv.satp → ∀ va t, Hart.found m'.priv.satp m'.ram va = some t →
          (hartOf M x T).refill.tlb (va.toNat/4096) t := by
      rintro M T rfl
      have hsame := hend T
      have hsatp : m'.priv.satp = (takeInterrupt mid).priv.satp := congrArg (fun h => h.csr .satp) hsame
      have hram : m'.ram = (takeInterrupt mid).ram := congrArg Hart.ram hsame
      rw [hsatp,hram]
      exact refill_current _ _ _
    by_cases hpend : interruptPending mid.priv
    · have hcause : scauseTimer = 0x8000000000000005 := by decide
      let T := (hartOf mid x tlb₁).refill.tlb
      let T' := (hartOf (enterTrap mid scauseTimer 0) x T).refill.tlb
      have htake : takeInterrupt mid = enterTrap mid scauseTimer 0 := if_pos hpend
      have hint : Hart.Step isa (hartOf mid x T) .interrupt (hartOf m' x T') := by
        rw [hend,htake]
        change Hart.Step isa _ _ (hartOf (enterTrap mid scauseTimer 0) x T).refill
        rw [hartOf_enterTrap hl,hcause]
        exact .interrupt ((interruptDue_iff hl).mpr hpend)
      exact ⟨_,T',.inr rfl,.cons hstep (.cons hint (.nil _)),
        h.step hs (hcur _ _ htake) (hkeep' _ fun p t => .inl)⟩
    · have htake : takeInterrupt mid = mid := if_neg hpend
      refine ⟨_,(hartOf mid x tlb₁).refill.tlb,.inl rfl,?_,
        h.step hs (hcur _ _ htake) (hkeep' _ fun p t => id)⟩
      rw [hend,htake]
      exact .cons hstep (.nil _)

end Shadows

end Urvirt
