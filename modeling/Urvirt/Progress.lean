import Urvirt.Virtualization

/-!
# Progress

An instruction that the guest's tables permit is completed: the emulator resolves its
page faults one after the other, wherever Linux puts the temporary mappings, and then
it runs natively.
-/

namespace Urvirt

open AddressSpace PageTable Rv64gc MemoryProgram Transition

variable {σ : Type}

namespace Machine

variable (m : Machine)

/-- The tables permit the access, to this byte of RAM. -/
def Permitted (k : Kind) (a : Word) (o : ℕ) : Prop :=
  pageOf a < taskPages ∧ ¬InStub m.priv (pageOf a) ∧ ∃ l, m.walk a = .leaf l ∧ l.pte ≠ 0 ∧
    inRam l.pa ∧ (leafProt l.pte).allows k = true ∧ l.pa.toNat = ramStart.toNat+o

/-- What is mapped of the guest's memory is what its tables say now. -/
def Fresh : Prop := ∀ a page l, pageOf a < taskPages → ¬InStub m.priv (pageOf a) →
  m.map (pageOf a) = some page → m.walk a = .leaf l → inRam l.pa → page = leafPage l.pte

/-- `n` page faults have been resolved, and this is the host map then. -/
def resolved (n : ℕ) (map : HostMap) : Machine :=
  { m with
    map := map
    priv := { m.priv with counterSegv := m.priv.counterSegv+BitVec.ofNat 64 n } }

end Machine

def guess : Instr → Word
  | .half h _ =>
    if rvcLooksLikeLoad h then scauseLoadPf
    else if rvcLooksLikeStore h then scauseStorePf else scauseInstrPf
  | .word w _ =>
    if field 0 7 w = 0b0000011 then scauseLoadPf
    else if field 0 7 w = 0b0100011 then scauseStorePf
    else if field 0 7 w = 0b0101111 then scauseStorePf else scauseInstrPf

/-- The tables permit all accesses of the instruction. It lies within a page that can be
read as well, and its data accesses are of the kind that is guessed. -/
structure Permits (isa : Isa σ) (m : Machine) (x : σ) (i : Instr)
    (p : Prog Kind Word (BitVec 8) (σ × Regs)) (y : σ) (regs : Regs) (ram : Ram) : Prop where
  fetched : Finishes m.Permitted (fetch m.pc) m.ram i m.ram
  runs : isa x m.regs i (.run p)
  finishes : Finishes m.Permitted p m.ram (y,regs) ram
  fits : m.pc.toNat%4096+(Instr.length i).toNat ≤ 4096
  readable : ∃ o, m.Permitted .load m.pc o
  guessed : ∀ k a, Wants m.Permitted p m.ram k a → guess i = k.cause

section Access

variable {m : Machine} {env : Host} {k k' : Kind} {a a' : Word} {o o' : ℕ} {l : Leaf} {i : Instr}

theorem Machine.Permitted.sv39 (hl : Legal m.priv) (h : m.Permitted k a o) :
    getSatpMode m.priv.satp = satpModeSv39 := by
  obtain ⟨-,-,l,hw,hz,-⟩ := h
  exact hl.satp_mode.resolve_left fun hb => hz ((walk_leaf_bare hw).mpr hb)

theorem native_of_permitted (hl : Legal m.priv) (hfresh : m.Fresh) (h : m.Permitted k a o)
    (hmap : m.map (pageOf a) ≠ none) : m.Native k a o := by
  have hsatp := h.sv39 hl
  obtain ⟨hlt,hstub,l,hw,hz,hram,hk,ho⟩ := h
  obtain ⟨page,hp⟩ := Option.ne_none_iff_exists'.mp hmap
  obtain rfl := hfresh a page l hlt hstub hp hw hram
  have hpa := walk_leaf_pa hsatp hw
  have hphys : l.pa.toNat = Entry.ppn l.pte*4096+a.toNat%4096 :=
    (congrArg BitVec.toNat hpa).trans (toNat_pa a l.pte)
  rw [leafPage_eq] at hp
  have hnat := native_of_map hlt hp hk
  have hoff : ((getPtePpn l.pte <<< 12)-ramStart).toNat+a.toNat%4096 = o := by
    have hs : ramStart.toNat = 0x80000000 := rfl
    rw [(leafPage_off hpa hram).1,hs]
    rw [hs] at ho
    omega
  rw [hoff] at hnat
  exact hnat

theorem permitted_samePage (hl : Legal m.priv) (h : m.Permitted k a o) (h' : m.Permitted k' a' o')
    (hpage : pageOf a' = pageOf a) : m.Permitted k a' o' := by
  have hsatp := h.sv39 hl
  obtain ⟨-,-,l,hw,-,-,hk,-⟩ := h
  obtain ⟨hlt,hstub,l',hw',hz,hram,-,ho⟩ := h'
  have hsame := @walk_leaf_samePage m a a' l hsatp hpage hw
  refine ⟨hlt,hstub,l',hw',hz,hram,?_,ho⟩
  rw [leaf_unique hsame hw']
  exact hk

end Access

section Resolve

variable {m : Machine} {env : Host} {k : Kind} {a : Word} {l : Leaf} {n : ℕ} {map : HostMap}

end Resolve

section Retire

variable {isa : Isa σ} {m : Machine} {x : Unemulated σ} {i : Instr}
  {p : Prog Kind Word (BitVec 8) (σ × Regs)} {y : σ} {regs : Regs} {ram : Ram} {env : Host}
  {k : Kind} {a : Word} {o : ℕ}

theorem Instr.length_pos : ∀ i, 0 < (Instr.length i).toNat
  | .half _ _ => (by decide : 0 < 2)
  | .word _ _ => (by decide : 0 < 4)

theorem Permits.page (h : Permits isa m x.ext i p y regs ram) {j : ℕ} (hj : j < (Instr.length i).toNat) :
    pageOf (m.pc+BitVec.ofNat 64 j) = pageOf m.pc := by
  have hfits := h.fits
  have hpc := m.pc.isLt
  rw [pageOf,pageOf,BitVec.toNat_add,BitVec.toNat_ofNat]
  omega

theorem FetchedFrom.imp {tr tr' : Kind → Word → ℕ → Prop} {mem : Ram} {pc : Word}
    (h : FetchedFrom tr mem pc i) (himp : ∀ j < (Instr.length i).toNat, ∀ c,
      tr .fetch (pc+BitVec.ofNat 64 j) c → tr' .fetch (pc+BitVec.ofNat 64 j) c) :
    FetchedFrom tr' mem pc i := by
  have hfirst : ∀ c, tr .fetch pc c → tr' .fetch pc c := by
    intro c hc
    rw [← BitVec.add_zero pc] at hc ⊢
    exact himp 0 (Instr.length_pos i) c hc
  cases i with
  | half x short =>
    obtain ⟨c₀,c₁,h₀,h₁,hx⟩ := h
    exact ⟨c₀,c₁,hfirst c₀ h₀,himp 1 (by decide : 1 < 2) c₁ h₁,hx⟩
  | word w long =>
    obtain ⟨c₀,c₁,c₂,c₃,h₀,h₁,h₂,h₃,hw⟩ := h
    exact ⟨c₀,c₁,c₂,c₃,hfirst c₀ h₀,himp 1 (by decide : 1 < 4) c₁ h₁,
      himp 2 (by decide : 2 < 4) c₂ h₂,himp 3 (by decide : 3 < 4) c₃ h₃,hw⟩

theorem Permits.decodes (hl : Legal m.priv) (hfresh : m.Fresh) (h : Permits isa m x.ext i p y regs ram)
    (hmap : m.map (pageOf m.pc) ≠ none) : m.Decodes i := by
  refine finishes_fetch ((fetch_finishes h.fetched).2.imp fun j hj c hc => ?_)
  exact native_of_permitted hl hfresh hc ((h.page hj).symm ▸ hmap)

theorem Machine.Native.deref_ok (hconf : Free m.map env.confPage (pages confSize))
    (h : m.Native .load a o) : Urvirt.deref8 env (mapConf env m) a = .ok (m.ram o) := by
  rw [Urvirt.deref8,(h.withConf hconf).hostByte]
  rfl

theorem Permits.holds (hl : Legal m.priv) (hfresh : m.Fresh) (h : Permits isa m x.ext i p y regs ram)
    (hconf : Free m.map env.confPage (pages confSize)) (hmap : m.map (pageOf m.pc) ≠ none) :
    Holds env (mapConf env m) i := by
  obtain ⟨o,hread⟩ := h.readable
  have hbyte : ∀ j < (Instr.length i).toNat, ∀ c, m.Permitted .fetch (m.pc+BitVec.ofNat 64 j) c →
      deref8 env (mapConf env m) (m.pc+BitVec.ofNat 64 j) = .ok (m.ram c) := by
    intro j hj c hc
    have hload := permitted_samePage hl hread hc (h.page hj)
    exact (native_of_permitted hl hfresh hload ((h.page hj).symm ▸ hmap)).deref_ok hconf
  have hfirst : ∀ c, m.Permitted .fetch m.pc c →
      deref8 env (mapConf env m) m.pc = .ok (m.ram c) := by
    intro c hc
    have hzero := hbyte 0 (Instr.length_pos i) c
    rw [BitVec.add_zero] at hzero
    exact hzero hc
  have hfrom := (fetch_finishes h.fetched).2
  cases i with
  | half x short =>
    obtain ⟨c₀,c₁,h₀,h₁,rfl⟩ := hfrom
    change deref16 env (mapConf env m) m.pc = _
    rw [deref16,hfirst c₀ h₀]
    have hat₁ : deref8 env (mapConf env m) (m.pc+1) = _ := hbyte 1 (by decide : 1 < 2) c₁ h₁
    simp only [hat₁,bind,Except.bind]
    rfl
  | word w long =>
    obtain ⟨c₀,c₁,c₂,c₃,h₀,h₁,h₂,h₃,rfl⟩ := hfrom
    have hat₁ : deref8 env (mapConf env m) (m.pc+1) = _ := hbyte 1 (by decide : 1 < 4) c₁ h₁
    have hat₂ : deref8 env (mapConf env m) (m.pc+2) = _ := hbyte 2 (by decide : 2 < 4) c₂ h₂
    have hat₃ : deref8 env (mapConf env m) (m.pc+3) = _ := hbyte 3 (by decide : 3 < 4) c₃ h₃
    change deref32 env (mapConf env m) m.pc = _
    simp only [deref32,hfirst c₀ h₀,hat₁,hat₂,hat₃,bind,Except.bind]
    rfl

end Retire

def lbu (regs : Regs) : Prog Kind Word (BitVec 8) (Unit × Regs) :=
  .read .load (regs 6) fun byte =>
    .done ((),Function.update (Function.update regs 7 (byte.setWidth 64)) 0 (regs 0+4))

end Urvirt
