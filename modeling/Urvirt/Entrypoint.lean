import Urvirt.Handler

/-!
# Start-up

`entrypoint` and `entrypoint_1` of `urvirt-stub/urvirt-stub.c`: everything but
the stub is unmapped, a signal stack is put behind it, RAM is mapped at its
physical address, the kernel is copied there and the privileged state is
initialized in the zero-filled config page.
-/

namespace Urvirt

/-- What the loader and Linux supply: the loader's configuration and address
space, the kernel and block images, and the pages `mmap(NULL)` chose. -/
structure BootData where
  stubStart : Word
  stubSize : Word
  kernelSize : Word
  timerid : Word
  kernel : ℕ → BitVec 8
  block : BlockImage
  regs : Regs
  map : HostMap
  conf₁ : ℕ
  conf₂ : ℕ
  conf₃ : ℕ
  kernelPage : ℕ

namespace BootData

variable (b : BootData)

def stubEnd : Word := b.stubStart+b.stubSize

def mapConfAt (map : HostMap) (p : ℕ) : HostMap :=
  AddressSpace.mapRange map p (pages confSize) fun _ => configPage

def unmapConfAt (map : HostMap) (p : ℕ) : HostMap := AddressSpace.unmapRange map p (pages confSize)

def mapBelow : HostMap := unmapConfAt (sMunmap (mapConfAt b.map b.conf₁) 0 b.stubStart) b.conf₁

def mapAbove : HostMap :=
  unmapConfAt (sMunmap (mapConfAt b.mapBelow b.conf₂) b.stubEnd ((1 <<< 38)-b.stubEnd)) b.conf₂

def mapSigstack : HostMap :=
  AddressSpace.mapRange b.mapAbove (pageOf b.stubEnd) (pages sigstackSize)
    fun _ => ⟨.sigstack,protRw⟩

/-- The address space `entrypoint` hands to `entrypoint_1`. -/
def mapEntry : HostMap := mapConfAt b.mapSigstack b.conf₃

/-- RAM replaces whatever was mapped at its address. -/
def mapRam : HostMap := AddressSpace.mapRange b.mapEntry (pageOf ramStart) (pages ramSize) ramPage

def mapKernel : HostMap :=
  AddressSpace.mapRange b.mapRam b.kernelPage (pages b.kernelSize) fun _ =>
    ⟨.kernel,⟨true,false,false⟩⟩

/-- The address space in which the kernel starts. -/
def mapStart : HostMap :=
  unmapConfAt (AddressSpace.unmapRange b.mapKernel b.kernelPage (pages b.kernelSize)) b.conf₃

/-- The zero-filled config page with the loader's fields; `entrypoint` counts
the signal stack as part of the stub. -/
def config : PrivState :=
  { stubStart := b.stubStart, stubSize := b.stubSize+sigstackSize, kernelSize := b.kernelSize,
    timerid := 0, privMode := 0, sstatus := 0, sscratch := 0, stvec := 0, sepc := 0, scause := 0,
    stval := 0, sip := 0, sie := 0, satp := 0, urvbBlockId := 0, urvbBuf := 0,
    shouldClearVm := false, counterIll := 0, counterSegv := 0, counterSret := 0,
    counterUecall := 0, counterSecall := 0 }

end BootData

/-- `((char *) KERNEL_START)[i] = kernel[i]` for all `i < n`. -/
def copyKernel (kernel : ℕ → BitVec 8) : ℕ → Ram → Ram
  | 0, ram => ram
  | n+1, ram =>
    Function.update (copyKernel kernel n ram) ((kernelStart-ramStart).toNat+n) (kernel n)

/-- The machine as the kernel's first instruction finds it. -/
def boot (b : BootData) : Machine where
  priv := { initializePriv b.config with timerid := b.timerid }
  regs := Function.update b.regs 0 kernelStart
  ram := copyKernel b.kernel b.kernelSize.toNat fun _ => 0
  block := b.block
  map := b.mapStart
  stdout := []
  settimes := []
  traps := []

def InStub (priv : PrivState) (p : ℕ) : Prop :=
  AddressSpace.InRange (pageOf priv.stubStart) (pages priv.stubSize) p

instance (priv : PrivState) (p : ℕ) : Decidable (InStub priv p) :=
  inferInstanceAs (Decidable (AddressSpace.InRange _ _ _))

/-- The pages at which RAM is mapped before the first flush. -/
def InRamWindow (p : ℕ) : Prop := AddressSpace.InRange (pageOf ramStart) (pages ramSize) p

instance (p : ℕ) : Decidable (InRamWindow p) := inferInstanceAs (Decidable (AddressSpace.InRange _ _ _))

/-- A start-up that worked. The loader maps the page-aligned stub into user
space, away from RAM; `mmap(NULL)` returns free ranges and does not put the
config page where RAM goes. -/
structure Boot extends BootData where
  start_aligned : stubStart.toNat%4096 = 0
  size_aligned : stubSize.toNat%4096 = 0
  below : stubStart.toNat+stubSize.toNat+4096 ≤ 2^38
  stub_mapped : ∀ p, AddressSpace.InRange (pageOf stubStart) (pages stubSize) p →
    map p = some ⟨.stub,protRx⟩
  not_ram : ∀ p, InStub toBootData.config p → ¬InRamWindow p
  conf₁_free : AddressSpace.Free map conf₁ (pages confSize)
  conf₂_free : AddressSpace.Free toBootData.mapBelow conf₂ (pages confSize)
  conf₃_free : AddressSpace.Free toBootData.mapSigstack conf₃ (pages confSize)
  conf₃_not_ram : ¬InRamWindow conf₃
  kernel_free : AddressSpace.Free toBootData.mapRam kernelPage (pages kernelSize)
  kernel_fits : kernelStart.toNat+kernelSize.toNat ≤ (ramStart+ramSize).toNat

structure StubFits (priv : PrivState) : Prop where
  start_aligned : priv.stubStart.toNat%4096 = 0
  size_aligned : priv.stubSize.toNat%4096 = 0
  below : priv.stubStart.toNat+priv.stubSize.toNat ≤ 2^38

theorem StubFits.lt {priv : PrivState} (h : StubFits priv) {p : ℕ} (hp : InStub priv p) :
    p < taskPages := by
  have h₁ := h.start_aligned
  have h₂ := h.size_aligned
  have h₃ := h.below
  obtain ⟨-,hlt⟩ := hp
  simp only [pageOf,pages] at hlt
  simp only [taskPages]
  omega

theorem stub_ranges {start size : Word} (hstart : start.toNat%4096 = 0)
    (hsize : size.toNat%4096 = 0) (hbelow : start.toNat+size.toNat ≤ 2^38) (p : ℕ) :
    (AddressSpace.InRange (pageOf 0) (pages start) p ↔ p < pageOf start) ∧
    (AddressSpace.InRange (pageOf (start+size)) (pages ((1 <<< 38)-(start+size))) p ↔
      pageOf start+pages size ≤ p ∧ p < taskPages) := by
  have hsum : (start+size).toNat = start.toNat+size.toNat := by
    rw [BitVec.toNat_add,Nat.mod_eq_of_lt (by omega)]
  have hshift : ((1 <<< 38 : Word)).toNat = 2^38 := by decide
  have hrest : ((1 <<< 38 : Word)-(start+size)).toNat = 2^38-(start.toNat+size.toNat) := by
    rw [BitVec.toNat_sub,hshift,hsum]
    omega
  have hzero : (0 : Word).toNat = 0 := rfl
  simp only [AddressSpace.InRange,pageOf,pages,taskPages,hsum,hrest,hzero]
  constructor
  · omega
  · omega

theorem clearMap_apply {priv : PrivState} (h : StubFits priv) (map : HostMap) {p : ℕ}
    (hp : p < taskPages) : clearMap priv map p = if InStub priv p then map p else none := by
  obtain ⟨hlow,hhigh⟩ := stub_ranges h.start_aligned h.size_aligned h.below p
  have hstub : InStub priv p ↔
      pageOf priv.stubStart ≤ p ∧ p < pageOf priv.stubStart+pages priv.stubSize := Iff.rfl
  simp only [clearMap,sMunmap]
  by_cases hh : AddressSpace.InRange (pageOf (priv.stubStart+priv.stubSize))
      (pages ((1 <<< 38)-(priv.stubStart+priv.stubSize))) p
  · rw [AddressSpace.unmapRange_of_mem hh,if_neg]
    have := hhigh.mp hh
    rw [hstub]; omega
  · rw [AddressSpace.unmapRange_of_not hh]
    by_cases hl : AddressSpace.InRange (pageOf 0) (pages priv.stubStart) p
    · rw [AddressSpace.unmapRange_of_mem hl,if_neg]
      have := hlow.mp hl
      rw [hstub]; omega
    · rw [AddressSpace.unmapRange_of_not hl,if_pos]
      rw [hhigh] at hh
      rw [hlow] at hl
      rw [hstub]; omega

namespace Boot

variable (b : Boot)

theorem stubFits : StubFits b.config where
  start_aligned := b.start_aligned
  size_aligned := by
    have := b.size_aligned
    have hs : sigstackSize.toNat = 4096 := rfl
    simp only [BootData.config,BitVec.toNat_add,hs]
    omega
  below := by
    have := b.below
    have hs : sigstackSize.toNat = 4096 := rfl
    simp only [BootData.config,BitVec.toNat_add,hs]
    omega

theorem inStub_iff (p : ℕ) : InStub b.config p ↔
    AddressSpace.InRange (pageOf b.stubStart) (pages b.stubSize) p ∨ p = pageOf b.stubEnd := by
  have h₁ := b.start_aligned
  have h₂ := b.size_aligned
  have h₃ := b.below
  have hs : sigstackSize.toNat = 4096 := rfl
  simp only [InStub,AddressSpace.InRange,BootData.config,BootData.stubEnd,pageOf,pages,
    BitVec.toNat_add,hs]
  omega

/-- The config page as the loader filled it in, before the signal stack is counted. -/
def loaderConfig : PrivState := { b.config with stubSize := b.stubSize }

theorem loaderConfig_fits : StubFits b.loaderConfig where
  start_aligned := b.start_aligned
  size_aligned := b.size_aligned
  below := Nat.le_trans (Nat.le_add_right _ _) b.below

/-- The two unmappings of `entrypoint` are a flush around the loader's stub. -/
theorem mapAbove_eq : b.mapAbove = clearMap b.loaderConfig b.map := by
  have hbelow : b.mapBelow = sMunmap b.map 0 b.stubStart :=
    AddressSpace.unmapRange_unmapRange_mapRange b.conf₁_free
  have habove : b.mapAbove = sMunmap b.mapBelow b.stubEnd ((1 <<< 38)-b.stubEnd) :=
    AddressSpace.unmapRange_unmapRange_mapRange b.conf₂_free
  rw [habove,hbelow]
  rfl

theorem mapSigstack_apply {p : ℕ} (hp : p < taskPages) :
    b.mapSigstack p =
      if p = pageOf b.stubEnd then some ⟨.sigstack,protRw⟩
      else if InStub b.config p then some ⟨.stub,protRx⟩ else none := by
  have hone : AddressSpace.InRange (pageOf b.stubEnd) (pages sigstackSize) p ↔
      p = pageOf b.stubEnd := by
    have : pages sigstackSize = 1 := rfl
    simp only [AddressSpace.InRange]
    omega
  simp only [BootData.mapSigstack,AddressSpace.mapRange]
  by_cases hs : p = pageOf b.stubEnd
  · rw [if_pos (hone.mpr hs),if_pos hs]
  · rw [if_neg (fun h => hs (hone.mp h)),if_neg hs,b.mapAbove_eq,
      clearMap_apply b.loaderConfig_fits b.map hp]
    by_cases hin : AddressSpace.InRange (pageOf b.stubStart) (pages b.stubSize) p
    · rw [if_pos ((b.inStub_iff p).mpr (.inl hin))]
      exact (if_pos hin).trans (b.stub_mapped p hin)
    · rw [if_neg (fun h => ((b.inStub_iff p).mp h).elim hin hs)]
      exact if_neg hin

def stubPage (p : ℕ) : HostPage :=
  if p = pageOf b.stubEnd then ⟨.sigstack,protRw⟩ else ⟨.stub,protRx⟩

theorem mapStart_ram (p : ℕ) :
    b.mapStart p =
      if InRamWindow p then some (ramPage (p-pageOf ramStart)) else b.mapSigstack p := by
  have hkernel : b.mapStart = BootData.unmapConfAt b.mapRam b.conf₃ :=
    congrArg (BootData.unmapConfAt · b.conf₃) (AddressSpace.unmapRange_mapRange b.kernel_free)
  have hconf : AddressSpace.InRange b.conf₃ (pages confSize) p → p = b.conf₃ := by
    have : pages confSize = 1 := rfl
    simp only [AddressSpace.InRange]
    omega
  rw [hkernel]
  by_cases hc : AddressSpace.InRange b.conf₃ (pages confSize) p
  · have hram : ¬InRamWindow p := hconf hc ▸ b.conf₃_not_ram
    rw [if_neg hram,b.conf₃_free p hc]
    exact AddressSpace.unmapRange_of_mem hc
  · refine (AddressSpace.unmapRange_of_not hc).trans ?_
    by_cases hram : InRamWindow p
    · rw [if_pos hram]
      exact if_pos hram
    · rw [if_neg hram,BootData.mapRam,AddressSpace.mapRange_of_not hram,BootData.mapEntry,
        BootData.mapConfAt,AddressSpace.mapRange_of_not hc]

/-- The kernel starts with RAM at its physical address and the stub, and nothing else. -/
theorem mapStart_apply {p : ℕ} (hp : p < taskPages) :
    b.mapStart p =
      if InRamWindow p then some (ramPage (p-pageOf ramStart))
      else if InStub b.config p then some (b.stubPage p) else none := by
  rw [b.mapStart_ram,b.mapSigstack_apply hp]
  by_cases hs : p = pageOf b.stubEnd
  · rw [if_pos hs,if_pos ((b.inStub_iff p).mpr (.inr hs)),stubPage,if_pos hs]
  · rw [if_neg hs,stubPage,if_neg hs]

end Boot

end Urvirt
