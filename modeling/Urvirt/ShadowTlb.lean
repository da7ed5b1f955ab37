import Urvirt.Replay

/-!
# The host address space as a TLB

Between two flushes the address space only grows, by pages installed from leaf
entries under the current `satp` and mode. A flush leaves the stub alone.
-/

namespace Urvirt

open AddressSpace Transition

def FlushFree (m : Machine) (e : Event) (m' : Machine) : Prop := Step m e m' ∧ ¬Flushes m e

namespace FlushFree

variable {b : Boot} {m m' : Machine} {es : List Event}

theorem run_keeps (h : Run FlushFree m es m') (hk : StubKept b m) :
    SameContext m m' ∧ ∀ p pg, m.map p = some pg → m'.map p = some pg := by
  induction h with
  | nil => exact ⟨⟨rfl,rfl,rfl⟩,fun _ _ h => h⟩
  | @cons s e t es u hs _ ih =>
    obtain ⟨⟨hsatp,hmode,htraps⟩,hkeep⟩ := ih (hk.step hs.1)
    rcases hk.map_cases hs.1 with ⟨hfl,-⟩ | ⟨-,⟨hsatp',hmode',htraps'⟩,-⟩
    · exact absurd hfl hs.2
    · exact ⟨⟨hsatp.trans hsatp',hmode.trans hmode',htraps.trans htraps'⟩,
        fun p pg hp => hkeep p pg (hk.map_of_mapped hs.1 hs.2 hp)⟩

end FlushFree

/-- The page was installed by a page fault since the last flush, from the leaf its
walk found then, under the `satp` and in the mode of now. -/
def InstalledFrom (b : Boot) (es : List Event) (m : Machine) (p : ℕ) (l : Leaf) : Prop :=
  ∃ es₁ env a es₂ m₁ m₂,
    es = es₁++.signal env (.sigsegv a)::es₂ ∧ Run Step (boot b.toBootData) es₁ m₁ ∧
    FlushFree m₁ (.signal env (.sigsegv a)) m₂ ∧ Run FlushFree m₂ es₂ m ∧
    pageOf a = p ∧ Installs m₁ a l m₂.map ∧
    m₁.priv.satp = m.priv.satp ∧ m₁.priv.privMode = m.priv.privMode

def InstalledSince (b : Boot) (es : List Event) (m : Machine) (p : ℕ) (pg : HostPage) : Prop :=
  ∃ l, InstalledFrom b es m p l ∧ pg = leafPage l.pte

section Coherence

variable {b : Boot} {es : List Event} {m : Machine} {p : ℕ} {pg : HostPage}

theorem flushFree_of_mapped {m m' : Machine} {e : Event} (hk : StubKept b m)
    (hp : p < taskPages) (hns : ¬InStub b.config p) (hs : Step m e m') (hm : m'.map p = some pg) :
    FlushFree m e m' := by
  refine ⟨hs,fun hfl => ?_⟩
  rcases hk.map_cases hs with ⟨-,hmap⟩ | ⟨hno,-⟩
  · rw [hmap p hp,if_neg (fun h => hns ((hk.inStub p).mp h))] at hm
    cases hm
  · exact hno hfl

/-- Where a mapped page outside the stub comes from. -/
theorem mapped_origin (h : Run Step (boot b.toBootData) es m) (hp : p < taskPages)
    (hns : ¬InStub b.config p) (hm : m.map p = some pg) :
    (InRamWindow p ∧ pg = ramPage (p-pageOf ramStart) ∧
      Run FlushFree (boot b.toBootData) es m) ∨ InstalledSince b es m p pg := by
  have hkept := h.strengthen (fun _ _ _ h hs => StubKept.step h hs) (StubKept.boot b)
  have hfree : ∀ {s es t}, Run (fun a e c => (Step a e c ∧ StubKept b a ∧ StubKept b c) ∧
      c.map p = some pg) s es t → Run FlushFree s es t := fun hrun =>
    hrun.mono fun _ _ _ ⟨⟨hs,hk,_⟩,hc⟩ => flushFree_of_mapped hk hp hns hs hc
  rcases hkept.since (fun m => m.map p = some pg) hm with
    ⟨h₀,hrun⟩ | ⟨es₁,e,es₂,m₁,m₂,rfl,hrun₁,⟨hs,hk₁,hk₂⟩,hne,h₂,hrun₂⟩
  · left
    have hstart : b.mapStart p = some pg := h₀
    rw [b.mapStart_apply hp] at hstart
    by_cases hram : InRamWindow p
    · rw [if_pos hram] at hstart
      exact ⟨hram,(Option.some.inj hstart).symm,hfree hrun⟩
    · rw [if_neg hram,if_neg hns] at hstart
      cases hstart
  · right
    have hff := flushFree_of_mapped hk₁ hp hns hs h₂
    rcases hk₁.map_cases hs with ⟨hfl,-⟩ | ⟨-,⟨hsatp,hmode,-⟩,hmap | ⟨env,a,l,rfl,hi⟩⟩
    · exact absurd hfl hff.2
    · exact absurd (hmap ▸ h₂) hne
    · have hpage : pageOf a = p := by
        by_contra hpa
        rw [hi.eq,Function.update_of_ne (Ne.symm hpa)] at h₂
        exact hne h₂
      have hpg : pg = leafPage l.pte := by
        rw [hi.eq,hpage,Function.update_self] at h₂
        exact (Option.some.inj h₂).symm
      obtain ⟨⟨hsatp',hmode',-⟩,-⟩ := FlushFree.run_keeps (hfree hrun₂) hk₂
      exact ⟨l,⟨es₁,env,a,es₂,m₁,m₂,rfl,hrun₁.mono (fun _ _ _ h => h.1),hff,hfree hrun₂,hpage,hi,
        (hsatp'.trans hsatp).symm,(hmode'.trans hmode).symm⟩,hpg⟩

theorem InstalledSince.mapped (h : InstalledSince b es m p pg) : m.map p = some pg := by
  obtain ⟨l,⟨es₁,env,a,es₂,m₁,m₂,rfl,hrun,hs,hrest,rfl,hi,-,-⟩,rfl⟩ := h
  have hk₂ := (StubKept.run hrun).step hs.1
  apply (FlushFree.run_keeps hrest hk₂).2
  rw [hi.eq,Function.update_self]

/-- Whenever the guest runs, the host address space is the stub, RAM at its
physical address if nothing was flushed yet, and the pages installed since the
last flush; a request for a flush, a change of `satp` or mode and a trap each
leave the stub alone. -/
theorem shadow_tlb_coherent (h : Run Step (boot b.toBootData) es m) :
    (∀ p < taskPages, ∀ pg, m.map p = some pg ↔
      (InStub m.priv p ∧ pg = b.stubPage p) ∨
      (InRamWindow p ∧ pg = ramPage (p-pageOf ramStart) ∧
        Run FlushFree (boot b.toBootData) es m) ∨
      InstalledSince b es m p pg) ∧
    (∀ env sig m', Step m (.signal env sig) m' →
      (RequestsFlush env (mapConf env m) sig ∨ ¬SameContext m m') →
      ∀ p < taskPages, m'.map p = if InStub m.priv p then some (b.stubPage p) else none) := by
  have hk := StubKept.run h
  refine ⟨fun p hp pg => ⟨fun hm => ?_,?_⟩,fun env sig m' hs hreq p hp => ?_⟩
  · by_cases hin : InStub m.priv p
    · rw [hk.page p ((hk.inStub p).mp hin)] at hm
      exact .inl ⟨hin,(Option.some.inj hm).symm⟩
    · exact .inr (mapped_origin h hp (fun h => hin ((hk.inStub p).mpr h)) hm)
  · rintro (⟨hin,rfl⟩ | ⟨hram,rfl,hrun⟩ | hsince)
    · exact hk.page p ((hk.inStub p).mp hin)
    · apply (FlushFree.run_keeps hrun (StubKept.boot b)).2
      exact (b.mapStart_apply hp).trans (if_pos hram)
    · exact hsince.mapped
  · rcases hk.map_cases hs with ⟨-,hmap⟩ | ⟨hno,hctx,-⟩
    · rw [hmap p hp]
      by_cases hin : InStub m.priv p
      · rw [if_pos hin,if_pos hin,hk.page p ((hk.inStub p).mp hin)]
      · rw [if_neg hin,if_neg hin]
    · have hreq' := hreq.resolve_right (fun h => h hctx)
      cases hs with
      | signal hfree hh =>
        obtain ⟨mid,hmid,heff,rfl⟩ := handler_effect hfree hh
        rcases heff.flush hk.clear with ⟨-,hset⟩ | ⟨hn,-⟩
        · exact absurd ⟨mid,hmid,takeInterrupt_shouldClearVm hset⟩ hno
        · exact absurd hreq' hn

end Coherence

/-- The kernel's page as it is faulted in again in U-mode. -/
theorem shadow_tlb_coherent_user : ∃ m,
    Run Step (boot (smallBoot sv39Kernel).toBootData) (sv39Events 0x2008001f) m ∧
    InstalledSince (smallBoot sv39Kernel) (sv39Events 0x2008001f) m 0x80200
      (leafPage 0x2008001f) := by
  have hreplays : Replays sv39Kernel (sv39Events 0x2008001f) := by decide +kernel
  have hrun := small_run hreplays
  have hmap : (smallAfter sv39Kernel (sv39Events 0x2008001f)).map 0x80200 =
      some (leafPage 0x2008001f) := by decide +kernel
  have hstub : ¬InStub (smallAfter sv39Kernel (sv39Events 0x2008001f)).priv 0x80200 := by
    decide +kernel
  have hsatp : (smallAfter sv39Kernel (sv39Events 0x2008001f)).priv.satp ≠ 0 := by decide +kernel
  refine ⟨_,hrun,?_⟩
  rcases ((shadow_tlb_coherent (b:=smallBoot sv39Kernel) hrun).1 0x80200 (by decide) _).mp hmap with
    ⟨hin,-⟩ | ⟨-,-,hfree⟩ | hsince
  · exact absurd hin hstub
  · exact absurd (FlushFree.run_keeps hfree (StubKept.boot _)).1.1 hsatp
  · exact hsince

end Urvirt
