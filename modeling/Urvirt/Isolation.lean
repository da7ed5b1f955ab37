import Urvirt.ShadowTlb

/-!
# User pages and supervisor pages

`handle_page_fault` checks R, W and X of the leaf but never U, and for device
addresses nothing at all. U-mode is kept away from supervisor pages exactly when
each of its page faults finds no leaf, a user leaf, or a leaf in RAM whose R, W
and X already refuse the access.
-/

namespace Urvirt

open AddressSpace Transition

def InUser (m : Machine) : Prop :=
  m.priv.privMode = privU ∧ getSatpMode m.priv.satp = satpModeSv39

instance (m : Machine) : Decidable (InUser m) := inferInstanceAs (Decidable (_ ∧ _))

/-- A leaf for the address is a user leaf, or in RAM and refused by its R, W and X. -/
def UserGuarded (env : Host) (m : Machine) (a : Word) : Prop :=
  ∀ l, m.walk a = .leaf l → pteHas l.pte pteU = true ∨
    (inRam l.pa ∧ ∀ scause, segvCause env (mapConf env m) a = .ok scause →
      ¬ptePermits scause l.pte)

/-- The page fault is answered by mapping the page of a leaf or by a device store. -/
def FaultServed (env : Host) (m : Machine) (a : Word) (l : Leaf) (mid : Machine) : Prop :=
  m.walk a = .leaf l ∧ (Installs (mapConf env m) a l mid.map ∨
    ¬inRam l.pa ∧ DeviceFrame (countSegv (mapConf env m)) mid)

def FaultDelivered (env : Host) (m : Machine) (a : Word) (mid : Machine) : Prop :=
  ∃ scause, segvCause env (mapConf env m) a = .ok scause ∧
    mid = enterTrap (countSegv (mapConf env m)) scause a

/-- Only a user leaf is served; without one the fault is delivered. -/
def FaultIsolated (env : Host) (m : Machine) (a : Word) (mid : Machine) : Prop :=
  (∀ l, FaultServed env m a l mid → pteHas l.pte pteU = true) ∧
  ((∀ l, ¬FaultServed env m a l mid) → FaultDelivered env m a mid)

section Fault

variable {env : Host} {m mid : Machine} {a : Word} {l : Leaf}

theorem not_served_of_delivered {scause : Word} (hw : m.walk a = .leaf l) (hram : inRam l.pa)
    (l' : Leaf) :
    ¬FaultServed env m a l' (enterTrap (countSegv (mapConf env m)) scause a) := by
  rintro ⟨hw',hi | ⟨hn,-⟩⟩
  · have hmap := congrFun hi.eq (pageOf a)
    rw [Function.update_self] at hmap
    have hnone : (mapConf env m).map (pageOf a) = some (leafPage l'.pte) := hmap
    rw [hi.free] at hnone
    cases hnone
  · obtain rfl := leaf_unique hw hw'
    exact hn hram

theorem isolated_of_served (h : FaultServed env m a l mid) :
    FaultIsolated env m a mid ↔ pteHas l.pte pteU = true := by
  constructor
  · exact fun hiso => hiso.1 l h
  · intro hu
    refine ⟨fun l' h' => ?_,fun hn => absurd h (hn l)⟩
    obtain rfl := leaf_unique h.1 h'.1
    exact hu

theorem guarded_of_leaf {scause : Word} (hw : m.walk a = .leaf l)
    (hc : segvCause env (mapConf env m) a = .ok scause) :
    UserGuarded env m a ↔ pteHas l.pte pteU = true ∨ (inRam l.pa ∧ ¬ptePermits scause l.pte) := by
  constructor
  · intro hg
    exact (hg l hw).imp_right fun ⟨hram,hp⟩ => ⟨hram,hp scause hc⟩
  · intro h l' hw'
    obtain rfl := leaf_unique hw hw'
    refine h.imp_right fun ⟨hram,hp⟩ => ⟨hram,fun scause' hc' => ?_⟩
    rw [hc] at hc'
    cases hc'
    exact hp

/-- A completed page fault is isolated exactly when its leaf is guarded. -/
theorem faultIsolated_iff {m' : Machine} (hs : Step m (.signal env (.sigsegv a)) m') :
    ∃ mid, emulate env (.sigsegv a) m = .ok mid ∧
      (FaultIsolated env m a mid ↔ UserGuarded env m a) := by
  cases hs with
  | signal hfree hh =>
    obtain ⟨mid,hmid,heff,-⟩ := handler_effect hfree hh
    refine ⟨mid,hmid,?_⟩
    cases heff with
    | @fault _ scause _ hc hf =>
      cases hf with
      | noLeaf hw =>
        have hw' : m.walk a = .fault := hw
        have hguard : UserGuarded env m a := fun l hl => by simp [hw'] at hl
        refine ⟨fun _ => hguard,fun _ => ⟨fun l hl => ?_,fun _ => ⟨scause,hc,rfl⟩⟩⟩
        have heq := hw'.symm.trans hl.1
        cases heq
      | @denied l hw _ hram hp _ =>
        have hw' : m.walk a = .leaf l := hw
        have hguard : UserGuarded env m a := (guarded_of_leaf hw' hc).mpr (.inr ⟨hram,hp⟩)
        exact ⟨fun _ => hguard,fun _ => ⟨fun l' hl => absurd hl (not_served_of_delivered hw' hram l'),
          fun _ => ⟨scause,hc,rfl⟩⟩⟩
      | @mapped l map hw hz hram hp hmm =>
        have hw' : m.walk a = .leaf l := hw
        obtain ⟨hlt,hnone,rfl⟩ := sMmapNoreplace_some hmm
        rw [pageOf_mask] at hlt hnone
        have hserved : FaultServed env m a l { countSegv (mapConf env m) with
            map := Function.update (countSegv (mapConf env m)).map (pageOf (a &&& ~~~0xfff))
              (some (leafPage l.pte)) } :=
          ⟨hw',.inl ⟨hw',hz,hram,hlt,hnone,by rw [pageOf_mask]; rfl⟩⟩
        rw [isolated_of_served hserved,guarded_of_leaf hw' hc]
        exact ⟨.inl,fun h => h.resolve_right fun h' => h'.2 hp⟩
      | @device l _ hw _ hram _ _ hframe =>
        have hw' : m.walk a = .leaf l := hw
        rw [isolated_of_served ⟨hw',.inr ⟨hram,hframe⟩⟩,guarded_of_leaf hw' hc]
        exact ⟨.inl,fun h => h.resolve_right fun h' => hram h'.1⟩

end Fault

def GuardedStep (m : Machine) (e : Event) (m' : Machine) : Prop :=
  Step m e m' ∧ ∀ env a, e = .signal env (.sigsegv a) → InUser m → UserGuarded env m a

section Run

variable {b : Boot} {es : List Event} {m : Machine}

theorem flushes_of_refused {m m' : Machine} {env : Host} {a : Word} {l : Leaf}
    (hclear : m.priv.shouldClearVm = false) (hs : Step m (.signal env (.sigsegv a)) m')
    (hw : m.walk a = .leaf l) (hram : inRam l.pa)
    (hp : ∀ scause, segvCause env (mapConf env m) a = .ok scause → ¬ptePermits scause l.pte) :
    Flushes m (.signal env (.sigsegv a)) := by
  cases hs with
  | signal hfree hh =>
    obtain ⟨mid,hmid,heff,-⟩ := handler_effect hfree hh
    have hreq : RequestsFlush env (mapConf env m) (.sigsegv a) := by
      cases heff with
      | @fault _ scause _ hc _ => exact .inr ⟨l,scause,hw,hram,hc,hp scause hc⟩
    rcases heff.flush hclear with ⟨-,hset⟩ | ⟨hn,-⟩
    · exact ⟨mid,hmid,takeInterrupt_shouldClearVm hset⟩
    · exact absurd hreq hn

theorem installedFrom_user {p : ℕ} {l : Leaf} (h : Run GuardedStep (boot b.toBootData) es m)
    (hu : InUser m) (hi : InstalledFrom b es m p l) : pteHas l.pte pteU = true := by
  obtain ⟨es₁,env,a,es₂,m₁,m₂,rfl,hrun,hff,-,-,hinst,hsatp,hmode⟩ := hi
  obtain ⟨m₁',hrun',hrest⟩ := h.append_inv
  have hstep : Run Step (boot b.toBootData) es₁ m₁' := hrun'.mono fun _ _ _ h => h.1
  obtain rfl : m₁' = m₁ := hstep.det hrun fun _ _ _ _ => Step.det
  have huser : InUser m₁' := ⟨hmode.trans hu.1,(congrArg getSatpMode hsatp).trans hu.2⟩
  cases hrest with
  | cons hs _ =>
    rcases hs.2 env a rfl huser l hinst.walk with hU | ⟨hram,hp⟩
    · exact hU
    · exact absurd (flushes_of_refused (StubKept.run hrun).clear hff.1 hinst.walk hram hp) hff.2

theorem not_flushFree_of_sv39 (hsatp : getSatpMode m.priv.satp = satpModeSv39) :
    ¬Run FlushFree (boot b.toBootData) es m := by
  intro hrun
  have hzero : m.priv.satp = 0 := (FlushFree.run_keeps hrun (StubKept.boot b)).1.1
  rw [hzero] at hsatp
  exact absurd hsatp (by decide)

end Run

/-- In every reachable U-mode state under translation a page fault is isolated
exactly when its leaf is guarded; and after a run whose faults all are, the pages
accessible in U-mode besides the stub come from user leaves. -/
theorem user_isolation (b : Boot) :
    (∀ es m, Run Step (boot b.toBootData) es m → InUser m →
      ∀ env a m', Step m (.signal env (.sigsegv a)) m' →
        ∃ mid, emulate env (.sigsegv a) m = .ok mid ∧
          (FaultIsolated env m a mid ↔ UserGuarded env m a)) ∧
    (∀ es m, Run GuardedStep (boot b.toBootData) es m → InUser m →
      ∀ p < taskPages, ∀ pg, m.map p = some pg → InStub m.priv p ∨
        ∃ l, InstalledFrom b es m p l ∧ pg = leafPage l.pte ∧ pteHas l.pte pteU = true) := by
  refine ⟨fun es m _ _ env a m' hs => faultIsolated_iff hs,fun es m h hu p hp pg hm => ?_⟩
  have hrun : Run Step (boot b.toBootData) es m := h.mono fun _ _ _ h => h.1
  have hk := StubKept.run hrun
  by_cases hin : InStub m.priv p
  · exact .inl hin
  · right
    rcases mapped_origin hrun hp (fun h => hin ((hk.inStub p).mpr h)) hm with
      ⟨-,-,hfree⟩ | ⟨l,hi,hpg⟩
    · exact absurd hfree (not_flushFree_of_sv39 hu.2)
    · exact ⟨l,hi,hpg,installedFrom_user h hu hi⟩

def userMachine (leaf : Word) : Machine := smallAfter sv39Kernel (sv39Setup leaf)

theorem guarded_of_no_fault {es : List Event} {m m' : Machine} (h : Run Step m es m')
    (hno : ∀ env a, Event.signal env (.sigsegv a) ∉ es) : Run GuardedStep m es m' := by
  induction h with
  | nil => exact .nil _
  | cons hs _ ih =>
    refine .cons ⟨hs,?_⟩ (ih fun env a h => hno env a (List.mem_cons_of_mem _ h))
    rintro env a rfl
    exact absurd (List.mem_cons_self ..) (hno env a)

theorem small_guarded : Run GuardedStep (boot (smallData sv39Kernel)) (sv39Events 0x2008001f)
    (smallAfter sv39Kernel (sv39Events 0x2008001f)) := by
  have h₆ : Replays sv39Kernel (sv39Events 0x2008001f) := by decide +kernel
  have h₅ : Replays sv39Kernel (sv39Setup 0x2008001f) := h₆.left
  have h₄ := h₅.left
  have hstart : Run GuardedStep (boot (smallData sv39Kernel)) (sv39Start 0x2008001f)
      (smallAfter sv39Kernel (sv39Start 0x2008001f)) :=
    guarded_of_no_fault (small_run h₄.left) (by simp [sv39Start])
  have hsuper : ¬InUser (smallAfter sv39Kernel (sv39Start 0x2008001f)) := by decide +kernel
  have hwalk : (userMachine 0x2008001f).walk kernelStart = .leaf ⟨0x80200000,0x2008001f⟩ := by
    decide +kernel
  have hguard : UserGuarded smallHost (userMachine 0x2008001f) kernelStart := by
    intro l hl
    rw [hwalk] at hl
    cases hl
    exact .inl (by decide)
  have hrun₄ := hstart.snoc ⟨small_step h₄,fun _ _ _ hu => absurd hu hsuper⟩
  have hrun₅ := hrun₄.snoc ⟨small_step h₅,by rintro env a ⟨⟩⟩
  exact hrun₅.snoc ⟨small_step h₆,by rintro env a ⟨⟩ _; exact hguard⟩

theorem user_isolation_guarded :
    (∃ mid, emulate smallHost (.sigsegv kernelStart) (userMachine 0x2008001f) = .ok mid ∧
      (FaultIsolated smallHost (userMachine 0x2008001f) kernelStart mid ↔
        UserGuarded smallHost (userMachine 0x2008001f) kernelStart)) ∧
    ∃ l, InstalledFrom (smallBoot sv39Kernel) (sv39Events 0x2008001f)
      (smallAfter sv39Kernel (sv39Events 0x2008001f)) 0x80200 l ∧ pteHas l.pte pteU = true := by
  have h₆ : Replays sv39Kernel (sv39Events 0x2008001f) := by decide +kernel
  have hu : InUser (userMachine 0x2008001f) := by decide +kernel
  have hu' : InUser (smallAfter sv39Kernel (sv39Events 0x2008001f)) := by decide +kernel
  have hmap : (smallAfter sv39Kernel (sv39Events 0x2008001f)).map 0x80200 =
      some (leafPage 0x2008001f) := by decide +kernel
  have hstub : ¬InStub (smallAfter sv39Kernel (sv39Events 0x2008001f)).priv 0x80200 := by
    decide +kernel
  have hiso := user_isolation (smallBoot sv39Kernel)
  refine ⟨hiso.1 _ _ (small_run h₆.left) hu _ _ _ (small_step h₆),?_⟩
  rcases hiso.2 _ _ small_guarded hu' 0x80200 (by decide) _ hmap with hin | ⟨l,hi,-,hU⟩
  · exact absurd hin hstub
  · exact ⟨l,hi,hU⟩

/-- With a supervisor leaf (U clear, R, W and X set) the kernel's own page is
mapped for U-mode. -/
theorem supervisor_page_mapped_in_user :
    Run Step (boot (smallData sv39Kernel)) (sv39Setup 0x2008000f) (userMachine 0x2008000f) ∧
    InUser (userMachine 0x2008000f) ∧
    (userMachine 0x2008000f).walk kernelStart = .leaf ⟨0x80200000,0x2008000f⟩ ∧
    pteHas 0x2008000f pteU = false ∧
    (∃ m', Step (userMachine 0x2008000f) (.signal smallHost (.sigsegv kernelStart)) m' ∧
      InUser m' ∧ m'.map 0x80200 = some (leafPage 0x2008000f)) ∧
    ∃ mid, emulate smallHost (.sigsegv kernelStart) (userMachine 0x2008000f) = .ok mid ∧
      ¬FaultIsolated smallHost (userMachine 0x2008000f) kernelStart mid := by
  have h₆ : Replays sv39Kernel (sv39Events 0x2008000f) := by decide +kernel
  have hwalk : (userMachine 0x2008000f).walk kernelStart = .leaf ⟨0x80200000,0x2008000f⟩ := by
    decide +kernel
  have hcause : segvCause smallHost (mapConf smallHost (userMachine 0x2008000f)) kernelStart =
      .ok scauseInstrPf := by decide +kernel
  have hopen : ¬UserGuarded smallHost (userMachine 0x2008000f) kernelStart := by
    rw [guarded_of_leaf hwalk hcause]
    decide
  obtain ⟨mid,hmid,hiff⟩ := faultIsolated_iff (small_step h₆)
  exact ⟨small_run h₆.left,by decide +kernel,hwalk,by decide,
    ⟨_,small_step h₆,by decide +kernel,by decide +kernel⟩,mid,hmid,fun h => hopen (hiff.mp h)⟩

end Urvirt
