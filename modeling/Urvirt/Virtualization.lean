import Urvirt.HartSteps
import Urvirt.Simulation

/-!
# Virtualization

A guest under the emulator does what it does on a hart. Each native instruction and
each signal is a step of the hart, but for the page faults that the emulator resolves
by itself.
-/

namespace Urvirt

open AddressSpace Bitfield PageTable Rv64gc MemoryProgram Transition

variable {σ : Type}

inductive Emulates : VmEvent → Hart.Event → Prop
  | pageFault (env : Host) (k : Kind) (a : Word) : Emulates (.fault env k a) (.pageFault k a)
  | device (env : Host) (a : Word) : Emulates (.fault env .store a) .device
  | ecall (env : Host) : Emulates (.ecall env) .ecall
  | sbi (env : Host) : Emulates (.ecall env) (.sbi env.time env.read)
  | illegal (env : Host) : Emulates (.illegal env) .illegal
  | privileged (env : Host) : Emulates (.illegal env) .privileged
  | timer (env : Host) : Emulates (.alarm env) (.timer env.time)

/-- An interrupt can follow in the same invocation of the handler. -/
inductive Shows : VmEvent → List Hart.Event → Prop
  | retire : Shows .retire [.retire]
  | resolved (env : Host) (k : Kind) (a : Word) : Shows (.fault env k a) []
  | emulated {e : VmEvent} {f : Hart.Event} {fs : List Hart.Event} : Emulates e f →
      fs = [f] ∨ fs = [f,.interrupt] → Shows e fs

section Matched

variable {b : Boot} {isa : Isa σ} {m m' mid : Machine} {x : Unemulated σ} {tlb : ℕ → Mapping → Prop}
  {env : Host} {k : Kind} {a : Word} {i : Instr}

/-- Some steps of the hart match the step of the emulator, or a page is added that the
hart has had in its cache. -/
def Matched (b : Boot) (isa : Isa σ) (s : Vm σ) (tlb : ℕ → Mapping → Prop) (e : VmEvent)
    (s' : Vm σ) : Prop :=
  ∃ fs tlb', Shows e fs ∧
    Run (Hart.Step isa) (hartOf s.machine s.other tlb) fs (hartOf s'.machine s'.other tlb') ∧
    Shadows b s'.machine tlb' ∧ (fs = [] →
      unmapped s'.machine.map (Finset.range taskPages) < unmapped s.machine.map (Finset.range taskPages))

theorem Shadows.emulated {sig : Signal} {e : VmEvent} {f : Hart.Event} {start : Machine}
    {y : Unemulated σ} {tlb₁ : ℕ → Mapping → Prop} (h : Shadows b m tlb) (hstart : Shadows b start tlb)
    (hs : Step start (.signal env sig) m') (hmid : emulate env sig start = .ok mid)
    (hexec : Hart.Exec isa (hartOf m x tlb) f (hartOf mid y tlb₁)) (he : Emulates e f)
    (hkeep : KeepsShown start (.signal env sig) m' tlb tlb₁) :
    Matched b isa ⟨m,x⟩ tlb e ⟨m',y⟩ := by
  have hstep : Hart.Step isa (hartOf m x tlb) f (hartOf mid y tlb₁).refill := .exec h.not_due hexec
  obtain ⟨fs,tlb',hfs,hrun,hshadows⟩ := hstart.signal hs hmid hstep hkeep
  refine ⟨fs,tlb',.emulated he hfs,hrun,hshadows,fun hnil => ?_⟩
  rcases hfs with rfl | rfl <;> cases hnil

theorem matched_retire {p : Prog Kind Word (BitVec 8) (σ × Regs)} {y : σ} {regs : Regs} {ram : Ram}
    (h : Shadows b m tlb) (hi : m.Decodes i) (hisa : isa x.ext m.regs i (.run p))
    (hp : Finishes m.Native p m.ram (y,regs) ram) :
    Matched b isa ⟨m,x⟩ tlb .retire ⟨{ m with ram := ram, regs := regs },{ x with ext := y }⟩ := by
  have hexec : Hart.Exec isa (hartOf m x tlb) .retire _ :=
    .retire (hi.mono (h.cell x)) hisa (hp.mono (h.cell x))
  refine ⟨_,_,.retire,.cons (.exec h.not_due hexec) (.nil _),?_,fun hnil => by cases hnil⟩
  refine h.step (.guest m ram regs)
    (refill_current { m with ram := ram, regs := regs } { x with ext := y } tlb) (.inr ⟨fun p t => .inl,?_⟩)
  intro env va l he
  cases he

theorem KeepsShown.of_not_segv {sig : Signal} (h : ∀ a, sig ≠ .sigsegv a) :
    KeepsShown m (.signal env sig) m' tlb tlb := by
  refine .inr ⟨fun p t => id,fun env' va l he => ?_⟩
  cases he
  exact absurd rfl (h va)

/-- A resolved fault is nothing that the hart sees. -/
theorem matched_mapped {l : Leaf} {map : HostMap} (h : Shadows b m tlb)
    (hs : Step m (.signal env (.sigsegv a)) m') (hw : m.walk a = .leaf l)
    (hentry : EntrySound m l.pte)
    (hmid : emulate env (.sigsegv a) m = .ok { countSegv (mapConf env m) with map := map })
    (hmap : sMmapNoreplace (mapConf env m).map (a &&& ~~~0xfff) (leafPage l.pte) = some map) :
    Matched b isa ⟨m,x⟩ tlb (.fault env k a) ⟨m',x⟩ := by
  obtain ⟨⟨hlegal,hclear⟩,hdue⟩ := h.legal
  have hpend : ¬interruptPending m.priv := fun hpend => hdue ((timerDue_iff hlegal).mpr hpend)
  obtain ⟨hlt,hnone,rfl⟩ := sMmapNoreplace_some hmap
  rw [pageOf_mask] at hlt hnone hmid
  have hquiet := handler_of_quiet hmid hpend hclear
  cases hs with
  | signal hfree hh =>
    have hm' := Except.ok.inj (hh.symm.trans hquiet)
    have hout : ¬InRange env.confPage (pages confSize) (pageOf a) := by
      intro hin
      rw [mapConf_map,mapRange,if_pos hin] at hnone
      cases hnone
    have hmap' : m'.map = Function.update m.map (pageOf a) (some (leafPage l.pte)) := by
      rw [hm']
      change unmapRange (Function.update (mapConf env m).map _ _) _ _ = _
      rw [mapConf_map]
      exact unmapRange_update_mapRange hfree.conf_free hout
    have hhart : hartOf m' x tlb = hartOf m x tlb := by
      rw [hm']
      rfl
    rw [mapConf_map,mapRange_of_not hout] at hnone
    have hkeep : KeepsShown m (.signal env (.sigsegv a)) m' tlb tlb := by
      refine .inr ⟨fun p t => id,fun env' va l' he hi => ?_⟩
      cases he
      rw [leaf_unique hw hi.walk]
      exact hentry
    have hcur : ¬Hart.Bare m'.priv.satp → ∀ va t, Hart.found m'.priv.satp m'.ram va = some t →
        tlb (va.toNat/4096) t := by
      rw [hm']
      exact h.current
    refine ⟨[],tlb,.resolved env k a,?_,h.step (.signal hfree hh) hcur hkeep,fun _ => ?_⟩
    · rw [hhart]
      exact .nil _
    · rw [hmap']
      exact unmapped_update (Finset.mem_range.mpr hlt) hnone

theorem matched_fault (h : Shadows b m tlb) (hdemand : Demands isa m.Native m.ram x.ext m.regs k a)
    (hs : Step m (.signal env (.sigsegv a)) m') (hsound : FaultSound isa env m x.ext k a) :
    Matched b isa ⟨m,x⟩ tlb (.fault env k a) ⟨m',x⟩ := by
  have hs₀ := hs
  have hdemand' := hdemand.mono (h.cell x)
  cases hs with
  | signal hfree hh =>
    obtain ⟨mid,hmid,heff,-⟩ := handler_effect hfree hh
    cases heff with
    | @fault _ scause _ hcause heff =>
      obtain rfl : k.cause = scause := Except.ok.inj (hsound.guess.symm.trans hcause)
      have htrap : hartOf (enterTrap (countSegv (mapConf env m)) k.cause a) x tlb =
          (hartOf m x tlb).trap m.pc k.cause a :=
        hartOf_enterTrap (m:=countSegv (mapConf env m)) { h.legal.1.1 with } k.cause a
      -- the trap asks for a flush
      have hfault : (hartOf m x tlb).Refuses k a →
          mid = enterTrap (countSegv (mapConf env m)) k.cause a →
          Matched b isa ⟨m,x⟩ tlb (.fault env k a) ⟨m',x⟩ := by
        rintro hrefuses rfl
        have hexec : Hart.Exec isa (hartOf m x tlb) (.pageFault k a)
            (hartOf (enterTrap (countSegv (mapConf env m)) k.cause a) x tlb) := by
          rw [htrap]
          exact .pageFault hdemand' hrefuses
        exact h.emulated h hs₀ hmid hexec (.pageFault env k a)
          (.inl ⟨_,hmid,takeInterrupt_shouldClearVm rfl⟩)
      cases heff with
      | noLeaf hw => exact hfault (refuses_of_fault h.legal.1.1 hw) rfl
      | denied hw hz hram hnot hu =>
        have hk : (leafProt _).allows k = false :=
          Bool.eq_false_of_not_eq_true fun hk => hnot ((ptePermits_kind k _).mpr hk)
        exact hfault (refuses_of_leaf h.legal.1.1 hw hz hk hsound.readable) rfl
      | mapped hw hz hram hp hmap =>
        have hentry := hsound.entry _ hw hram ((ptePermits_kind k _).mp hp)
        exact matched_mapped h hs₀ hw hentry hmid hmap
      | device hw hz hram hstore hdev =>
        have hk : k = .store := by
          cases k with
          | store => rfl
          | fetch => exact absurd hstore (by decide)
          | load => exact absurd hstore (by decide)
        subst hk
        have hexec := hart_device h hfree hdemand (hsound.device _ hw hram) hw hz hdev
        refine h.emulated h hs₀ hmid hexec (.device env a) (.inr ⟨fun p t => id,fun _ va l he hi => ?_⟩)
        cases he
        rw [leaf_unique hw hi.walk] at hi
        exact absurd hi.in_ram hram

theorem matched_ecall {ctx : Regs} (h : Shadows b m tlb) (hi : m.Decodes i)
    (hisa : isa x.ext m.regs i .ecall) (hctx : EcallContext m.regs ctx) (htime : x.clock ≤ env.time)
    (hs : Step { m with regs := ctx } (.signal env (.sigsys ((m.regs 17).setWidth 32))) m')
    (ha7 : m.regs 17 = ((m.regs 17).setWidth 32).signExtend 64) :
    Matched b isa ⟨m,x⟩ tlb (.ecall env) ⟨m',x.called m env.time⟩ := by
  have hs₀ := hs
  have hi' := hi.mono (h.cell x)
  have hguest : KeepsShown m (.guest m.ram ctx) { m with regs := ctx } tlb tlb := by
    refine .inr ⟨fun p t => id,fun _ va l he => ?_⟩
    cases he
  have hstart : Shadows b { m with regs := ctx } tlb := h.step (.guest m m.ram ctx) h.current hguest
  have hkeep : KeepsShown { m with regs := ctx } (.signal env (.sigsys ((m.regs 17).setWidth 32))) m'
      tlb tlb := .of_not_segv fun a he => by cases he
  cases hs with
  | signal hfree hh =>
    obtain ⟨mid,hmid,-,-⟩ := handler_effect hfree hh
    by_cases hmode : m.priv.privMode = privS
    · have hsbi : ((hartOf m x tlb).atTime env.time).sbi env.read = _ := hart_sbi hctx ha7 hmode hmid
      have huser : (hartOf m x tlb).user = false := by
        rw [user_eq h.legal.1.1,hmode]
        rfl
      exact h.emulated hstart hs₀ hmid (.sbi hi' hisa huser htime hsbi) (.sbi env) hkeep
    · have huser : (hartOf m x tlb).user = true := by
        rw [user_eq h.legal.1.1,decide_eq_false hmode]
        rfl
      have hcalled : x.called m env.time = x := if_neg hmode
      let M := (countUecall (fixA7 (mapConf env { m with regs := ctx }) ((m.regs 17).setWidth 32))).setPc
        (ctx 0-4)
      have hmid' : emulate env (.sigsys ((m.regs 17).setWidth 32)) { m with regs := ctx } =
          .ok (enterTrap M scauseUecall 0) := if_neg hmode
      obtain rfl := Except.ok.inj (hmid.symm.trans hmid')
      have hregs : M.regs = m.regs := by
        have hfixed : M.regs = Function.update (Function.update m.regs 0 (m.regs 0+4)) 0 (ctx 0-4) :=
          congrArg (fun x : Regs => Function.update x 0 (ctx 0-4)) (hctx.fixed ha7)
        rw [hfixed,Function.update_idem,hctx.pc,BitVec.add_sub_cancel,Function.update_eq_self]
      have hhart : hartOf M x tlb = hartOf m x tlb := Hart.with_congr (hartOf m x tlb) rfl rfl hregs
      have hpc : M.pc = m.pc := congrFun hregs 0
      have hexec : Hart.Exec isa (hartOf m x tlb) .ecall (hartOf (enterTrap M scauseUecall 0) x tlb) := by
        rw [hartOf_enterTrap (m:=M) { h.legal.1.1 with },hhart,hpc]
        exact .ecall hi' hisa huser
      rw [hcalled]
      exact h.emulated hstart hs₀ hmid hexec (.ecall env) hkeep

theorem matched_illegal (h : Shadows b m tlb) (hi : m.Decodes i) (hisa : isa x.ext m.regs i .illegal)
    (hs : Step m (.signal env .sigill) m')
    (hsound : ∀ w long, m.Decodes (.word w long) → InstrSound m w) :
    Matched b isa ⟨m,x⟩ tlb (.illegal env) ⟨m',x⟩ := by
  have hs₀ := hs
  have hi' := hi.mono (h.cell x)
  cases hs with
  | signal hfree hh =>
    obtain ⟨mid,hmid,-,-⟩ := handler_effect hfree hh
    have hmid' : handleIllegal env (mapConf env m) = .ok mid := hmid
    by_cases hmode : m.priv.privMode = privS
    · have huser : (hartOf m x tlb).user = false := by
        rw [user_eq h.legal.1.1,hmode]
        rfl
      obtain ⟨w,long,rfl,hinstr⟩ := hi.emulated hfree.conf_free hmode hmid'
      have hlegal : Legal (countIll (mapConf env m)).priv := { h.legal.1.1 with }
      have hwrite : InstrSound (countIll (mapConf env m)) w := by
        intro i c hdec hwr hc
        have hsame : c.value (countIll (mapConf env m)).priv = c.value m.priv := by cases c <;> rfl
        rw [hsame]
        exact hsound w long hi i c hdec hwr hc
      obtain ⟨tlb₁,hpriv,hkeep⟩ := @hart_privInstr σ _ _ x tlb _ hlegal hwrite hinstr
      have hexec : Hart.Exec isa (hartOf m x tlb) .privileged (hartOf mid x tlb₁) :=
        .privileged hi' hisa huser hpriv
      refine h.emulated h hs₀ hmid hexec (.privileged env) ?_
      rcases hkeep with hflush | rfl
      · exact .inl ⟨mid,hmid,takeInterrupt_shouldClearVm hflush⟩
      · exact .of_not_segv fun a he => by cases he
    · have huser : (hartOf m x tlb).user = true := by
        rw [user_eq h.legal.1.1,decide_eq_false hmode]
        rfl
      rw [handleIllegal,if_neg (by exact hmode)] at hmid'
      cases hmid'
      have htrap : hartOf (enterTrap (countIll (mapConf env m)) scauseIllegal 0) x tlb =
          (hartOf m x tlb).trap m.pc 2 0 :=
        hartOf_enterTrap (m:=countIll (mapConf env m)) { h.legal.1.1 with } scauseIllegal 0
      have hexec : Hart.Exec isa (hartOf m x tlb) .illegal
          (hartOf (enterTrap (countIll (mapConf env m)) scauseIllegal 0) x tlb) := by
        rw [htrap]
        exact .illegal hi' hisa huser
      exact h.emulated h hs₀ hmid hexec (.illegal env) (.of_not_segv fun a he => by cases he)

theorem matched_alarm {d : Word} (h : Shadows b m tlb) (htime : x.clock ≤ env.time)
    (hs : Step m (.signal env (.sigalrm siTimer)) m') (hd : x.timecmp = some d) (hle : d ≤ env.time) :
    Matched b isa ⟨m,x⟩ tlb (.alarm env) ⟨m',{ x with clock := env.time }⟩ := by
  have hmid : emulate env (.sigalrm siTimer) m = .ok { mapConf env m with
      priv := { m.priv with sip := setSixSti m.priv.sip 1 } } := by
    rw [emulate,dispatch,if_pos rfl]
    rfl
  have hcsr : hartOf { mapConf env m with priv := { m.priv with sip := setSixSti m.priv.sip 1 } }
      { x with clock := env.time } tlb = ((hartOf m x tlb).atTime env.time).setPending true := by
    have hsip := setSixSti_eq m.priv.sip isFlag_one
    refine Hart.with_congr ((hartOf m x tlb).atTime env.time) rfl ?_ rfl
    funext c
    cases c with
    | sip => exact hsip
    | _ => rfl
  have hexec : Hart.Exec isa (hartOf m x tlb) (.timer env.time) (hartOf { mapConf env m with
      priv := { m.priv with sip := setSixSti m.priv.sip 1 } } { x with clock := env.time } tlb) := by
    rw [hcsr]
    exact .timer hd hle htime
  exact h.emulated h hs hmid hexec (.timer env) (.of_not_segv fun a he => by cases he)

theorem matched {s s' : Vm σ} {e : VmEvent} (h : Shadows b s.machine tlb)
    (hs : SoundStep isa s e s') : Matched b isa s tlb e s' := by
  obtain ⟨hs,hsound⟩ := hs
  cases hs with
  | retire hi hisa hp => exact matched_retire h hi hisa hp
  | fault hdemand _ hs => exact matched_fault h hdemand hs hsound
  | ecall hi hisa _ hctx htime hs => exact matched_ecall h hi hisa hctx htime hs hsound
  | illegal hi hisa hs => exact matched_illegal h hi hisa hs hsound
  | alarm htime hs =>
    obtain ⟨d,hd,hle⟩ := hsound
    exact matched_alarm h htime hs hd hle

end Matched

/-- Pages that are not mapped bound the faults that are resolved in a row. -/
def virtualization (b : Boot) (isa : Isa σ) : Simulation (SoundStep isa) (Hart.Step isa) Shows where
  Related s h := ∃ tlb, h = hartOf s.machine s.other tlb ∧ Shadows b s.machine tlb
  rank s := unmapped s.machine.map (Finset.range taskPages)
  matched := by
    rintro s e s' _ ⟨tlb,rfl,h⟩ hs
    obtain ⟨fs,tlb',hshow,hrun,h',hrank⟩ := Urvirt.matched h hs
    exact ⟨fs,_,hshow,hrun,⟨tlb',rfl,h'⟩,hrank⟩

/-- A run of the emulated guest is a run of the guest on a hart. The states agree at
its end, and the emulator does not go on for ever without a step of the hart. -/
theorem runs_as_hart {b : Boot} {isa : Isa σ} {x : σ} {es : List VmEvent} {s : Vm σ}
    (h : Run (SoundStep isa) (.boot b.toBootData x) es s) :
    ∃ fss hart, List.Forall₂ Shows es fss ∧
      Run (Hart.Step isa) (Hart.reset b.toBootData x) fss.flatten hart ∧
      hart = hartOf s.machine s.other hart.tlb ∧
      es.length ≤ taskPages+(taskPages+1)*fss.flatten.length := by
  have hrank : ∀ s : Vm σ, (virtualization b isa).rank s ≤ taskPages := fun s => by
    simp only [virtualization]
    exact (unmapped_le s.machine.map _).trans_eq (Finset.card_range _)
  have hstart : (virtualization b isa).Related (.boot b.toBootData x) (Hart.reset b.toBootData x) :=
    ⟨_,(boot_reset b.toBootData x).symm,boot_shadows b⟩
  obtain ⟨fss,hart,hshows,hrun,⟨tlb,rfl,-⟩,hlen⟩ := (virtualization b isa).run_bounded hrank h hstart
  exact ⟨fss,_,hshows,hrun,rfl,hlen.trans (Nat.add_le_add_right (hrank _) _)⟩

def storeDouble {α : Type} (a v : Word) (next : Prog Kind Word (BitVec 8) α) :
    ℕ → Prog Kind Word (BitVec 8) α
  | 0 => next
  | n+1 => storeDouble a v (.write .store (a+BitVec.ofNat 64 n) ((v >>> (8*n)).setWidth 8) next) n

theorem storeDouble_finishes {α : Type} {tr : Kind → Word → ℕ → Prop} {a v : Word} {o : ℕ}
    {next : Prog Kind Word (BitVec 8) α} {mem mem' : Ram} {x : α} {n : ℕ}
    (htr : ∀ j < n, tr .store (a+BitVec.ofNat 64 j) (o+j))
    (h : Finishes tr next
      (fun i => if InRange o n i then (v >>> (8*(i-o))).setWidth 8 else mem i) x mem') :
    Finishes tr (storeDouble a v next n) mem x mem' := by
  induction n generalizing next with
  | zero =>
    have hnone : ∀ i, ¬InRange o 0 i := fun i hi => by
      simp only [InRange] at hi
      omega
    simp only [hnone,if_false] at h
    exact h
  | succ n ih =>
    refine ih (fun j hj => htr j (Nat.lt_succ_of_lt hj)) (.write (htr n (Nat.lt_succ_self n)) ?_)
    refine cast (congrArg (fun mem => Finishes tr next mem x mem') (funext fun i => ?_)) h
    have hsucc : InRange o (n+1) i ↔ i = o+n ∨ InRange o n i := by
      simp only [InRange]
      omega
    rw [Function.update_apply]
    by_cases hi : i = o+n
    · rw [if_pos hi,if_pos (hsucc.mpr (.inl hi)),hi,Nat.add_sub_cancel_left]
    · rw [if_neg hi]
      by_cases hin : InRange o n i
      · rw [if_pos hin,if_pos (hsucc.mpr (.inr hin))]
      · rw [if_neg hin,if_neg fun h => (hsucc.mp h).elim hi hin]

/-- An instruction that builds the tables, `csrw satp, t0` and `ecall`. -/
def vmKernel : List (BitVec 32) := [0x0000000b,0x18029073,0x00000073]

/-- The tables are ready, `satp` is in `t0`, and the call is a `putchar`. -/
def vmRegs (pc : Word) : Regs := fun i =>
  if i = 0 then pc else if i = 5 then 0x8000000000080000 else if i = 10 then 0x76
    else if i = 17 then 1 else 0

def vmIsa : Isa Unit := fun _ regs i b => b =
  match i with
  | .half _ _ => .illegal
  | .word w _ =>
    if w = 0x00000073 then .ecall
    else if field 0 7 w = 0b1110011 then .illegal
    else .run (storeDouble 0x80002000 0x200800cf (storeDouble 0x80001008 0x20000801
      (storeDouble 0x80000010 0x20000401 (.done ((),vmRegs (regs 0+4))) 8) 8) 8)

def vmEvents : List Event :=
  [.guest (sv39Tables 0x200800cf (boot (smallData vmKernel)).ram) (vmRegs (kernelStart+4)),
    .signal smallHost .sigill,.signal smallHost (.sigsegv (kernelStart+8))]

theorem decodes_word {m : Machine} {o : Word} {p : Prot} {w : BitVec 32} (long : field 0 2 w = 3)
    (hlt : pageOf m.pc < taskPages) (hfit : m.pc.toNat%4096+4 ≤ 4096)
    (hp : m.map (pageOf m.pc) = some ⟨.ram o,p⟩) (hx : p.exec = true)
    (hw : w = m.ram (o.toNat+m.pc.toNat%4096+3) ++ m.ram (o.toNat+m.pc.toNat%4096+2) ++
      m.ram (o.toNat+m.pc.toNat%4096+1) ++ m.ram (o.toNat+m.pc.toNat%4096)) :
    m.Decodes (.word w long) := by
  have hnative : ∀ j < 4, m.Native .fetch (m.pc+BitVec.ofNat 64 j) (o.toNat+m.pc.toNat%4096+j) := by
    intro j hj
    have hpc := m.pc.isLt
    have hadd : (m.pc+BitVec.ofNat 64 j).toNat = m.pc.toNat+j := by
      rw [BitVec.toNat_add,BitVec.toNat_ofNat]
      omega
    have hpage : pageOf (m.pc+BitVec.ofNat 64 j) = pageOf m.pc := by
      rw [pageOf,pageOf,hadd]
      omega
    have hnat := native_of_map (k:=.fetch) (hpage ▸ hlt) (hpage ▸ hp) hx
    have hoff : o.toNat+(m.pc+BitVec.ofNat 64 j).toNat%4096 = o.toNat+m.pc.toNat%4096+j := by
      rw [hadd]
      omega
    rw [hoff] at hnat
    exact hnat
  have h₀ := hnative 0 (by decide)
  rw [BitVec.add_zero] at h₀
  exact finishes_fetch ⟨_,_,_,_,h₀,hnative 1 (by decide),hnative 2 (by decide),hnative 3 (by decide),hw⟩

theorem boot_native (code : List (BitVec 32)) (k : Kind) {o : ℕ} (ho : o < 0x1000000) :
    (boot (smallData code)).Native k (ramStart+BitVec.ofNat 64 o) o := by
  have hadd : (ramStart+BitVec.ofNat 64 o).toNat = 0x80000000+o := by
    have hs : ramStart.toNat = 0x80000000 := rfl
    rw [BitVec.toNat_add,BitVec.toNat_ofNat,hs]
    omega
  have hpage : pageOf (ramStart+BitVec.ofNat 64 o) = 0x80000+o/4096 := by
    rw [pageOf,hadd]
    omega
  have hlt : pageOf (ramStart+BitVec.ofNat 64 o) < taskPages := by
    rw [hpage,taskPages]
    omega
  have hin : InRamWindow (pageOf (ramStart+BitVec.ofNat 64 o)) := by
    have hwin : pageOf ramStart = 0x80000 ∧ pages ramSize = 0x1000 := ⟨rfl,rfl⟩
    rw [hpage,InRamWindow,InRange,hwin.1,hwin.2]
    omega
  have hmap : (boot (smallData code)).map (pageOf (ramStart+BitVec.ofNat 64 o)) =
      some (ramPage (o/4096)) := by
    refine ((smallBoot code).mapStart_apply hlt).trans ?_
    rw [if_pos hin,hpage]
    exact congrArg (fun i => some (ramPage i)) (Nat.add_sub_cancel_left _ _)
  have hk : protRwx.allows k = true := by cases k <;> rfl
  have hnat := native_of_map hlt hmap hk
  have hoff : (BitVec.ofNat 64 (4096*(o/4096)) : Word).toNat+
      (ramStart+BitVec.ofNat 64 o).toNat%4096 = o := by
    rw [hadd,BitVec.toNat_ofNat]
    omega
  rw [hoff] at hnat
  exact hnat

def smallVm (m : Machine) (time : Word) : Vm Unit := ⟨m,(),time,none⟩

theorem vm_retire : VmStep vmIsa (.boot (smallData vmKernel) ()) .retire
    (smallVm { boot (smallData vmKernel) with
      ram := sv39Tables 0x200800cf (boot (smallData vmKernel)).ram
      regs := vmRegs (kernelStart+4) } 0) := by
  have hi : (boot (smallData vmKernel)).Decodes (.word 0x0000000b (by decide)) :=
    decodes_word (o:=0x200000) (p:=protRwx) (by decide) (by decide) (by decide)
      (by decide +kernel) rfl (by decide +kernel)
  have hstore : ∀ off j, off+j < 0x1000000 → (boot (smallData vmKernel)).Native .store
      (ramStart+BitVec.ofNat 64 off+BitVec.ofNat 64 j) (off+j) := by
    intro off j ho
    have hnat := boot_native vmKernel .store ho
    rw [BitVec.ofNat_add,← BitVec.add_assoc] at hnat
    exact hnat
  refine VmStep.retire (x:=⟨(),0,none⟩) (y:=()) hi rfl ?_
  refine storeDouble_finishes (o:=0x2000) (fun j hj => hstore 0x2000 j (by omega)) ?_
  refine storeDouble_finishes (o:=0x1008) (fun j hj => hstore 0x1008 j (by omega)) ?_
  refine storeDouble_finishes (o:=0x10) (fun j hj => hstore 0x10 j (by omega)) ?_
  exact .done _ _

def vmAfter (n : ℕ) : Machine := smallAfter vmKernel (vmEvents.take n)

theorem vm_replays :
    Replays vmKernel (vmEvents.take 2++[.signal smallHost (.sigsegv (kernelStart+8))]) := by
  decide +kernel

theorem vm_replays_csrw : Replays vmKernel (vmEvents.take 1++[.signal smallHost .sigill]) :=
  vm_replays.left

theorem vm_tables : SoundStep vmIsa (.boot (smallData vmKernel) ()) .retire (smallVm (vmAfter 1) 0) := by
  have hone : vmAfter 1 = { boot (smallData vmKernel) with
      ram := sv39Tables 0x200800cf (boot (smallData vmKernel)).ram
      regs := vmRegs (kernelStart+4) } := by
    have hs := @small_step vmKernel [] _ vm_replays_csrw.left
    change Step (boot (smallData vmKernel)) _ (vmAfter 1) at hs
    cases hs
    rfl
  exact ⟨hone ▸ vm_retire,trivial⟩

theorem vm_csrw :
    SoundStep vmIsa (smallVm (vmAfter 1) 0) (.illegal smallHost) (smallVm (vmAfter 2) 0) := by
  have hi : (vmAfter 1).Decodes (.word 0x18029073 (by decide)) :=
    decodes_word (o:=0x200000) (p:=protRwx) (by decide) (by decide +kernel)
      (by decide +kernel) (by decide +kernel) rfl (by decide +kernel)
  refine ⟨.illegal hi rfl (small_step vm_replays_csrw),fun w long hi' i c hdec _ hc => ?_⟩
  obtain rfl := Instr.word.inj (hi.unique hi')
  have hsatp : Zicsr.decode 0x18029073 = some ⟨.rw,false,0,5,0x180⟩ := rfl
  obtain rfl := Option.some.inj (hsatp.symm.trans hdec)
  have hcsr : Csr.ofNumber (BitVec.ofNat 32 0x180) = some .satp := by decide
  obtain rfl := Option.some.inj (hcsr.symm.trans hc)
  trivial

theorem vm_fetch : SoundStep vmIsa (smallVm (vmAfter 2) 0)
    (.fault smallHost .fetch (kernelStart+8)) (smallVm (vmAfter 3) 0) := by
  have hpc : (vmAfter 2).regs 0 = kernelStart+8 := by decide +kernel
  have hdemand : Demands vmIsa (vmAfter 2).Native (vmAfter 2).ram () (vmAfter 2).regs .fetch
      (kernelStart+8) := by
    refine .fetch ?_
    rw [hpc]
    exact .read _ _ _ _
  have hnone : (vmAfter 2).map (pageOf (kernelStart+8)) = none := by decide +kernel
  have hwalk : (vmAfter 2).walk (kernelStart+8) = .leaf ⟨0x80200008,0x200800cf⟩ := by decide +kernel
  have hmode : (vmAfter 2).priv.privMode = privS := by decide +kernel
  refine ⟨.fault hdemand (.inr fun page hp => ?_) (small_step vm_replays),by decide +kernel,
    fun hk => (by cases hk),fun l hl _ _ => ?_,fun l hl hout => ?_⟩
  · rw [hnone] at hp
    cases hp
  · cases leaf_unique hwalk hl
    have huser : Entry.u 0x200800cf = decide ((vmAfter 2).priv.privMode = privU) := by
      rw [hmode]
      decide
    exact ⟨huser,by decide,fun _ => by decide⟩
  · cases leaf_unique hwalk hl
    exact absurd hout (by decide)

theorem vm_putchar : ∃ m, m.stdout = [0x76] ∧
    SoundStep vmIsa (smallVm (vmAfter 3) 0) (.ecall smallHost) (smallVm m smallHost.time) := by
  let ctx : Regs := Function.update (vmAfter 3).regs 0 ((vmAfter 3).regs 0+4)
  let sig : Signal := .sigsys (((vmAfter 3).regs 17).setWidth 32)
  have hi : (vmAfter 3).Decodes (.word 0x00000073 (by decide)) :=
    decodes_word (o:=0x200000) (p:=protRwx) (by decide) (by decide +kernel)
      (by decide +kernel) (by decide +kernel) rfl (by decide +kernel)
  have hctx : EcallContext (vmAfter 3).regs ctx :=
    ⟨Function.update_self _ _ _,fun i hi _ => Function.update_of_ne hi _ _⟩
  have hok : (handler smallHost sig { vmAfter 3 with regs := ctx }).isOk = true := by decide +kernel
  have hout : (handler smallHost sig { vmAfter 3 with regs := ctx }).toOption.map
      (fun m => m.stdout) = some [0x76] := by decide +kernel
  obtain ⟨m,hm⟩ := ok_of_isOk hok
  rw [hm] at hout
  have hfree : FreeChoice (vmAfter 3).map smallHost sig := (small_free vm_replays).freeChoice ⟨rfl,rfl⟩
  have ha7 : (vmAfter 3).regs 17 = (((vmAfter 3).regs 17).setWidth 32).signExtend 64 := by
    decide +kernel
  have htrap : SeccompBpf.ecallVerdict (vmAfter 3).priv.stubStart (vmAfter 3).priv.stubSize
      (vmAfter 3).pc ⟨1,0xc00000f3,0,fun _ => 0⟩ = .ret SeccompBpf.seccompRetTrap := by
    decide +kernel
  have hcalled : (⟨(),0,none⟩ : Unemulated Unit).called (vmAfter 3) smallHost.time =
      ⟨(),smallHost.time,none⟩ :=
    Unemulated.called_quiet (by decide +kernel) (by decide +kernel) _
  refine ⟨m,Option.some.inj hout,?_,ha7⟩
  rw [smallVm,smallVm,← hcalled]
  exact .ecall hi rfl htrap hctx (by decide) (.signal hfree hm)

/-- The letter is on the console of the hart, too. -/
theorem runs_as_hart_putchar : ∃ m,
    Run (SoundStep vmIsa) (.boot (smallBoot vmKernel).toBootData ())
      [.retire,.illegal smallHost,.fault smallHost .fetch (kernelStart+8),.ecall smallHost]
      (smallVm m smallHost.time) ∧
    m.stdout = [0x76] ∧ ∃ fss hart,
      List.Forall₂ Shows
        [.retire,.illegal smallHost,.fault smallHost .fetch (kernelStart+8),.ecall smallHost] fss ∧
      Run (Hart.Step vmIsa) (Hart.reset (smallBoot vmKernel).toBootData ()) fss.flatten hart ∧
      hart = hartOf m ⟨(),smallHost.time,none⟩ hart.tlb ∧
      4 ≤ taskPages+(taskPages+1)*fss.flatten.length := by
  obtain ⟨m,hout,hs⟩ := vm_putchar
  have hrun : Run (SoundStep vmIsa) (.boot (smallBoot vmKernel).toBootData ())
      [.retire,.illegal smallHost,.fault smallHost .fetch (kernelStart+8),.ecall smallHost]
      (smallVm m smallHost.time) :=
    .cons vm_tables (.cons vm_csrw (.cons vm_fetch (.cons hs (.nil _))))
  exact ⟨m,hrun,hout,runs_as_hart hrun⟩

end Urvirt
