import Urvirt.Isolation
import Urvirt.Translation
import Urvirt.TrapDelivery

/-!
# How page faults are resolved

A fault that its leaf permits maps exactly the page of the leaf, and a fault that
the walk or the leaf refuses is delivered unchanged. Two cases fall out of this
scheme: a page that is mapped already is not mapped again, and the rights of a leaf
outside RAM are not looked at.
-/

namespace Urvirt

open AddressSpace PageTable Transition

def Prot.permits (prot : Prot) (scause : Word) : Bool :=
  if scause = scauseInstrPf then prot.exec
  else if scause = scauseLoadPf then prot.read
  else if scause = scauseStorePf then prot.write
  else false

def leafProt (e : Entry) : Prot := ⟨e.r,e.w,e.x⟩

def IsFaultCause (scause : Word) : Prop :=
  scause = scauseInstrPf ∨ scause = scauseLoadPf ∨ scause = scauseStorePf

theorem ptePermits_iff {scause : Word} (h : IsFaultCause scause) (pte : Word) :
    ptePermits scause pte ↔ (leafProt pte).permits scause = true := by
  rcases h with rfl | rfl | rfl
  all_goals
    simp [ptePermits,Prot.permits,leafProt,scauseInstrPf,scauseLoadPf,scauseStorePf]

/-- The fault changed one page of the host address space: it now shows the RAM page
of the leaf with the leaf's rights, which include the right asked for. -/
def LeafMapped (m : Machine) (scause stval : Word) (l : Leaf) (m' : Machine) : Prop :=
  ∃ off prot,
    m' = { m with map := Function.update m.map (stval.toNat/4096) (some ⟨.ram off,prot⟩) } ∧
    m.map (stval.toNat/4096) = none ∧
    off.toNat%4096 = 0 ∧ off.toNat < ramSize.toNat ∧
    off.toNat = (l.pa.toNat-ramStart.toNat)/4096*4096 ∧
    prot = leafProt l.pte ∧ prot.permits scause = true

/-- The fault is a trap of the guest and changed no page. -/
structure FaultTrapped (m : Machine) (scause stval : Word) (m' : Machine) : Prop where
  state : m' = enterTrap m scause stval
  map : m'.map = m.map
  sepc : m'.priv.sepc = m.pc
  scause : m'.priv.scause = scause
  stval : m'.priv.stval = stval

theorem faultTrapped_enterTrap (m : Machine) (scause stval : Word) :
    FaultTrapped m scause stval (enterTrap m scause stval) := ⟨rfl,rfl,rfl,rfl,rfl⟩

theorem leafPage_off {va : Word} {l : Leaf} (hpa : l.pa = (getPtePpn l.pte <<< 12) ||| getVaOff va)
    (hram : inRam l.pa) :
    ((getPtePpn l.pte <<< 12)-ramStart).toNat = (l.pa.toNat-ramStart.toNat)/4096*4096 ∧
      ((getPtePpn l.pte <<< 12)-ramStart).toNat < ramSize.toNat := by
  have hs : ramStart.toNat = 0x80000000 := rfl
  have hz : ramSize.toNat = 0x1000000 := rfl
  have he : (ramStart+ramSize).toNat = 0x81000000 := rfl
  have hphys : l.pa.toNat = Entry.ppn l.pte*2^12+offset va := by rw [hpa]; exact toNat_pa va l.pte
  have hoff : offset va < 2^12 := Nat.mod_lt _ (by decide)
  have hlow : 0x80000000 ≤ l.pa.toNat := hram.1
  have hhigh : l.pa.toNat < 0x81000000 := hram.2
  have hsub : ((getPtePpn l.pte <<< 12)-ramStart).toNat = Entry.ppn l.pte*2^12-0x80000000 := by
    rw [BitVec.toNat_sub,toNat_ptePpn,hs]
    omega
  rw [hsub,hs,hz]
  constructor <;> omega

theorem ramAccess_free {m : Machine} {scause stval pte : Word} (hp : ptePermits scause pte)
    (hlt : pageOf stval < taskPages) (hfree : m.map (pageOf stval) = none) :
    ramAccess m scause stval pte =
      .ok { m with map := Function.update m.map (pageOf stval) (some (leafPage pte)) } := by
  rw [ramAccess,if_pos hp,sMmapNoreplace,pageOf_mask,if_neg (Nat.not_le.mpr hlt),mapNew,if_pos hfree]

theorem ramAccess_mapped {m : Machine} {scause stval pte : Word} (hp : ptePermits scause pte)
    (hmapped : m.map (pageOf stval) ≠ none) :
    ramAccess m scause stval pte = .error .mmapFailed := by
  rw [ramAccess,if_pos hp,sMmapNoreplace,pageOf_mask,mapNew,if_neg hmapped,ite_self]

theorem leafPage_eq (pte : Word) :
    leafPage pte = ⟨.ram ((getPtePpn pte <<< 12)-ramStart),leafProt pte⟩ := by
  simp [leafPage,leafProt]

theorem leaf_ne_zero {m : Machine} {va : Word} {l : Leaf}
    (hsatp : getSatpMode m.priv.satp = satpModeSv39) (hw : m.walk va = .leaf l) : l.pte ≠ 0 := by
  intro hz
  have hbare := (walk_leaf_bare hw).mp hz
  rw [hsatp] at hbare
  exact absurd hbare (by decide)

theorem walk_leaf_pa {m : Machine} {va : Word} {l : Leaf}
    (hsatp : getSatpMode m.priv.satp = satpModeSv39) (hw : m.walk va = .leaf l) :
    l.pa = (getPtePpn l.pte <<< 12) ||| getVaOff va := by
  have hbare : getSatpMode m.priv.satp ≠ satpModeBare := by rw [hsatp]; decide
  simp only [Machine.walk,lookupPaInRam,if_neg hbare] at hw
  split_ifs at hw
  exact (walkLevels_leaf hw).2

/-- A page fault that returns has mapped exactly the page of a leaf that permits
it, or, if the walk fails or the leaf refuses it in U-mode, is a trap. -/
theorem fault_resolution_exact {env : Host} {m m' : Machine} {scause stval : Word}
    (hsatp : getSatpMode m.priv.satp = satpModeSv39) (hcause : IsFaultCause scause)
    (hfree : Free m.map env.ramPage (pages ramSize))
    (h : handlePageFault env m scause stval = .ok m') :
    (∀ l, m.walk stval = .leaf l → inRam l.pa → (leafProt l.pte).permits scause = true →
      LeafMapped m scause stval l m') ∧
    (m'.map ≠ m.map → ∃ l, m.walk stval = .leaf l ∧ inRam l.pa ∧
      (leafProt l.pte).permits scause = true) ∧
    (m.walk stval = .fault → FaultTrapped m scause stval m') ∧
    (∀ l, m.walk stval = .leaf l → inRam l.pa → (leafProt l.pte).permits scause = false →
      m.priv.privMode = privU → FaultTrapped m scause stval m') := by
  cases handlePageFault_effect hfree h with
  | noLeaf hw =>
    refine ⟨fun l hl => ?_,fun hne => absurd rfl hne,fun _ => faultTrapped_enterTrap _ _ _,
      fun l hl => ?_⟩
    all_goals simp [hw] at hl
  | @denied l hw _ hram hp _ =>
    rw [ptePermits_iff hcause] at hp
    refine ⟨fun l' hl' _ hp' => ?_,fun hne => absurd rfl hne,fun hf => ?_,
      fun _ _ _ _ _ => faultTrapped_enterTrap _ _ _⟩
    · obtain rfl := leaf_unique hw hl'
      exact absurd hp' hp
    · simp [hw] at hf
  | @mapped l map hw hz hram hp hm =>
    obtain ⟨-,hnone,rfl⟩ := sMmapNoreplace_some hm
    rw [pageOf_mask] at hnone ⊢
    rw [ptePermits_iff hcause] at hp
    obtain ⟨hoff,hlt⟩ := leafPage_off (walk_leaf_pa hsatp hw) hram
    refine ⟨fun l' hl' _ _ => ?_,fun _ => ⟨l,hw,hram,hp⟩,fun hf => ?_,fun l' hl' _ hp' _ => ?_⟩
    · obtain rfl := leaf_unique hw hl'
      refine ⟨_,_,by rw [leafPage_eq]; rfl,hnone,?_,hlt,hoff,rfl,hp⟩
      rw [hoff]
      exact Nat.mul_mod_left _ _
    · simp [hw] at hf
    · obtain rfl := leaf_unique hw hl'
      simp [hp] at hp'
  | @device l _ hw _ hram _ _ hframe =>
    obtain ⟨blockId,buf,ram,block,pc,rfl⟩ := hframe
    refine ⟨fun l' hl' hram' => ?_,fun hne => absurd rfl hne,fun hf => ?_,fun l' hl' hram' => ?_⟩
    · obtain rfl := leaf_unique hw hl'
      exact absurd hram' hram
    · simp [hw] at hf
    · obtain rfl := leaf_unique hw hl'
      exact absurd hram' hram

/-- `csrw sepc, t1; csrw satp, t0; sret; ld t0, 0(t1); sd t0, 0(t1); sd x0, 0(t1)`. -/
def storeKernel : List (BitVec 32) :=
  [0x14131073,0x18029073,0x10200073,0x00033283,0x00533023,0x00033023]

def storeRam : Ram := (boot (smallData storeKernel)).ram

/-- The kernel's page and, behind it, a page with the given leaf. -/
def storeTables (leaf : Word) (ram : Ram) : Ram := poke 0x2008 leaf (sv39Tables 0x200800df ram)

def storePage : Word := 0x80201000

def storeStart (leaf : Word) : List Event :=
  [.guest (storeTables leaf storeRam) (smallRegs kernelStart 0x8000000000080000 kernelStart),
    .signal smallHost .sigill,
    .signal smallHost .sigill,
    .signal smallHost (.sigsegv (kernelStart+8))]

/-- It returns to U-mode, where its page is faulted in again, and goes on to an
instruction with the given `t0` and `t1`. -/
def storeUser (leaf pc t0 t1 : Word) : List Event :=
  storeStart leaf++[.signal smallHost .sigill,.signal smallHost (.sigsegv kernelStart),
    .guest (storeTables leaf storeRam) (smallRegs pc t0 t1)]

/-- The guest's load from its second page maps it. -/
theorem fault_resolution_exact_load : ∃ m m' l,
    Run Step (boot (smallData storeKernel)) (storeUser 0x200c0013 (kernelStart+12) 0 storePage) m ∧
    handlePageFault smallHost m scauseLoadPf storePage = .ok m' ∧
    m.walk storePage = .leaf l ∧ LeafMapped m scauseLoadPf storePage l m' := by
  have hreplays : Replays storeKernel (storeUser 0x200c0013 (kernelStart+12) 0 storePage) := by
    decide +kernel
  have hwalk : (smallAfter storeKernel (storeUser 0x200c0013 (kernelStart+12) 0 storePage)).walk
      storePage = .leaf ⟨0x80300000,0x200c0013⟩ := by decide +kernel
  have hok : (handlePageFault smallHost (smallAfter storeKernel
      (storeUser 0x200c0013 (kernelStart+12) 0 storePage)) scauseLoadPf storePage).isOk = true := by
    decide +kernel
  obtain ⟨m',hm'⟩ := ok_of_isOk hok
  exact ⟨_,m',_,small_run hreplays,hm',hwalk,
    (fault_resolution_exact (by decide +kernel) (.inr (.inl rfl)) (small_free hreplays).ram hm').1
      _ hwalk (by decide) (by decide)⟩

theorem emulate_sigsegv {env : Host} {m : Machine} {a scause : Word}
    (hcause : segvCause env (mapConf env m) a = .ok scause) :
    emulate env (.sigsegv a) m = handlePageFault env (countSegv (mapConf env m)) scause a := by
  simp [emulate,dispatch,handleSegv,hcause,bind,Except.bind]

/-- The handler resolves a permitted fault on a page in user space exactly when the
page is not mapped yet: the page a leaf gave earlier is never replaced. -/
theorem permitted_fault_resolved {b : Boot} {es : List Event} {m : Machine} {env : Host}
    {a scause : Word} {l : Leaf} (h : Run Step (boot b.toBootData) es m)
    (hsatp : getSatpMode m.priv.satp = satpModeSv39) (hfree : FreeChoice m.map env (.sigsegv a))
    (hlt : pageOf a < taskPages) (hconf : pageOf a ≠ env.confPage) (hw : m.walk a = .leaf l)
    (hram : inRam l.pa) (hcause : segvCause env (mapConf env m) a = .ok scause)
    (hp : ptePermits scause l.pte) :
    (∃ m', handler env (.sigsegv a) m = .ok m' ∧ m'.map (pageOf a) = some (leafPage l.pte)) ↔
      m.map (pageOf a) = none := by
  have hout : ¬InRange env.confPage (pages confSize) (pageOf a) := by
    have hone : pages confSize = 1 := rfl
    simp only [InRange]
    omega
  have hmap : (mapConf env m).map (pageOf a) = m.map (pageOf a) := by
    rw [mapConf_map,mapRange_of_not hout]
  have hemu : emulate env (.sigsegv a) m =
      ramAccess (countSegv (mapConf env m)) scause a l.pte := by
    have hpf := handlePageFault_leaf (m:=countSegv (mapConf env m)) scause
      (mapConf_free hfree a rfl) hw (leaf_ne_zero hsatp hw)
    rw [if_pos hram] at hpf
    exact (emulate_sigsegv hcause).trans hpf
  constructor
  · rintro ⟨m',hm',-⟩
    by_contra hne
    obtain ⟨mid,hmid,-⟩ := bind_ok.mp hm'
    rw [hemu,ramAccess_mapped hp (hmap ▸ hne)] at hmid
    cases hmid
  · intro hnone
    obtain ⟨⟨hlegal,hclear⟩,hdue⟩ := run_not_timerDue h
    have hmid := hemu.trans (ramAccess_free hp hlt (hmap.trans hnone))
    have hpend : ¬interruptPending m.priv := fun hpend => hdue ((timerDue_iff hlegal).mpr hpend)
    refine ⟨_,handler_of_quiet hmid hpend hclear,(unmapRange_of_not hout).trans ?_⟩
    exact Function.update_self ..

/-- The guest's page is loaded from, its leaf becomes writable, and the guest goes on
to a store. -/
def upgradeEvents : List Event :=
  storeUser 0x200c0013 (kernelStart+12) 0 storePage++
    [.signal smallHost (.sigsegv storePage),
      .guest (storeTables 0x200c0017 storeRam) (smallRegs (kernelStart+16) 0 storePage)]

/-- The first fault on the page is resolved. -/
theorem permitted_fault_resolved_load : ∃ m m',
    Run Step (boot (smallData storeKernel)) (storeUser 0x200c0013 (kernelStart+12) 0 storePage) m ∧
    handler smallHost (.sigsegv storePage) m = .ok m' ∧
    m'.map (pageOf storePage) = some (leafPage 0x200c0013) := by
  have hreplays : Replays storeKernel (storeUser 0x200c0013 (kernelStart+12) 0 storePage) := by
    decide +kernel
  have hwalk : (smallAfter storeKernel (storeUser 0x200c0013 (kernelStart+12) 0 storePage)).walk
      storePage = .leaf ⟨0x80300000,0x200c0013⟩ := by decide +kernel
  have hcause : segvCause smallHost (mapConf smallHost (smallAfter storeKernel
      (storeUser 0x200c0013 (kernelStart+12) 0 storePage))) storePage = .ok scauseLoadPf := by
    decide +kernel
  have hfree : FreeChoice (smallAfter storeKernel
      (storeUser 0x200c0013 (kernelStart+12) 0 storePage)).map smallHost (.sigsegv storePage) :=
    (small_free hreplays).freeChoice (by decide)
  have hnone : (smallAfter storeKernel
      (storeUser 0x200c0013 (kernelStart+12) 0 storePage)).map (pageOf storePage) = none := by
    decide +kernel
  obtain ⟨m',hm',hmap⟩ := (permitted_fault_resolved (b:=smallBoot storeKernel) (small_run hreplays)
    (by decide +kernel) hfree (by decide) (by decide) hwalk (by decide) hcause (by decide)).mpr hnone
  exact ⟨_,m',small_run hreplays,hm',hmap⟩

/-- The store is permitted by the new leaf, but the page is still mapped without the
right to write, and the emulator stops. -/
theorem upgraded_page_stops : ∃ m,
    Run Step (boot (smallData storeKernel)) upgradeEvents m ∧
    m.walk storePage = .leaf ⟨0x80300000,0x200c0017⟩ ∧
    segvCause smallHost (mapConf smallHost m) storePage = .ok scauseStorePf ∧
    ptePermits scauseStorePf 0x200c0017 ∧
    m.map 0x80201 = some (leafPage 0x200c0013) ∧ (leafPage 0x200c0013).prot.write = false ∧
    FreeChoice m.map smallHost (.sigsegv storePage) ∧
    handler smallHost (.sigsegv storePage) m = .error .mmapFailed := by
  have hreplays : Replays storeKernel upgradeEvents := by decide +kernel
  exact ⟨_,small_run hreplays,by decide +kernel,by decide +kernel,by decide,by decide +kernel,
    by decide,(small_free hreplays).freeChoice (by decide),error_of_haltOf (by decide +kernel)⟩

/-- A store page fault was delivered, the block device did not see the store, and
the store is where `sret` will return to. -/
structure StoreRefused (m : Machine) (a : Word) (mid : Machine) : Prop where
  mode : mid.priv.privMode = privS
  scause : mid.priv.scause = scauseStorePf
  stval : mid.priv.stval = a
  sepc : mid.priv.sepc = m.pc
  blockId : mid.priv.urvbBlockId = m.priv.urvbBlockId
  buf : mid.priv.urvbBuf = m.priv.urvbBuf
  block : mid.block = m.block

/-- In U-mode a store that its leaf does not permit is refused exactly when the
leaf is in RAM. -/
theorem store_refused_iff {env : Host} {m : Machine} {a : Word} {l : Leaf} (hu : InUser m)
    (hfree : FreeChoice m.map env (.sigsegv a))
    (hcause : segvCause env (mapConf env m) a = .ok scauseStorePf) (hw : m.walk a = .leaf l)
    (hro : Entry.w l.pte = false) :
    (∃ mid, emulate env (.sigsegv a) m = .ok mid ∧ StoreRefused m a mid) ↔ inRam l.pa := by
  have hemu : emulate env (.sigsegv a) m =
      if inRam l.pa then ramAccess (countSegv (mapConf env m)) scauseStorePf a l.pte
      else deviceAccess env (countSegv (mapConf env m)) scauseStorePf l.pa :=
    (emulate_sigsegv hcause).trans (handlePageFault_leaf (m:=countSegv (mapConf env m)) scauseStorePf
      (mapConf_free hfree a rfl) hw (leaf_ne_zero hu.2 hw))
  constructor
  · rintro ⟨mid,hmid,href⟩
    by_contra hram
    rw [hemu,if_neg hram] at hmid
    obtain ⟨-,blockId,buf,ram,block,pc,rfl⟩ := deviceAccess_frame hmid
    have hmode : m.priv.privMode = privS := href.mode
    rw [hu.1] at hmode
    exact absurd hmode (by decide)
  · intro hram
    have hp : ¬ptePermits scauseStorePf l.pte := by
      rw [ptePermits_iff (.inr (.inr rfl))]
      simp [Prot.permits,leafProt,hro,scauseInstrPf,scauseLoadPf,scauseStorePf]
    have hns : m.priv.privMode ≠ privS := by rw [hu.1]; decide
    rw [if_pos hram,ramAccess,if_neg hp] at hemu
    exact ⟨_,hemu.trans (if_neg hns),rfl,rfl,rfl,rfl,rfl,rfl,rfl⟩

def storeMachine (leaf : Word) : Machine :=
  smallAfter storeKernel (storeUser leaf (kernelStart+16) 5 (storePage+8))

/-- A page of RAM without the right to write. -/
theorem store_refused_iff_ram : ∃ mid,
    emulate smallHost (.sigsegv (storePage+8)) (storeMachine 0x200c0013) = .ok mid ∧
    StoreRefused (storeMachine 0x200c0013) (storePage+8) mid := by
  have hreplays : Replays storeKernel (storeUser 0x200c0013 (kernelStart+16) 5 (storePage+8)) := by
    decide +kernel
  have hwalk : (storeMachine 0x200c0013).walk (storePage+8) = .leaf ⟨0x80300008,0x200c0013⟩ := by
    decide +kernel
  exact (store_refused_iff (by decide +kernel) ((small_free hreplays).freeChoice (by decide))
    (by decide +kernel) hwalk (by decide)).mpr (by decide)

/-- The page of the block device without the right to write: the store goes through. -/
theorem readonly_device_written :
    Run Step (boot (smallData storeKernel))
      (storeUser 0x4100013 (kernelStart+16) 5 (storePage+8)) (storeMachine 0x4100013) ∧
    InUser (storeMachine 0x4100013) ∧
    segvCause smallHost (mapConf smallHost (storeMachine 0x4100013)) (storePage+8) =
      .ok scauseStorePf ∧
    (storeMachine 0x4100013).walk (storePage+8) = .leaf ⟨0x10400008,0x4100013⟩ ∧
    Entry.w 0x4100013 = false ∧
    ∃ mid, emulate smallHost (.sigsegv (storePage+8)) (storeMachine 0x4100013) = .ok mid ∧
      mid.priv.urvbBlockId = 5 ∧ mid.pc = kernelStart+20 ∧
      ¬StoreRefused (storeMachine 0x4100013) (storePage+8) mid := by
  have hreplays : Replays storeKernel (storeUser 0x4100013 (kernelStart+16) 5 (storePage+8)) := by
    decide +kernel
  have hok : (emulate smallHost (.sigsegv (storePage+8)) (storeMachine 0x4100013)).isOk = true := by
    decide +kernel
  obtain ⟨mid,hmid⟩ := ok_of_isOk hok
  have hend : (emulate smallHost (.sigsegv (storePage+8)) (storeMachine 0x4100013)).map
      (fun mid => (mid.priv.urvbBlockId,mid.pc)) = .ok (5,kernelStart+20) := by decide +kernel
  rw [hmid] at hend
  obtain ⟨hid,hpc⟩ := Prod.mk.inj (Except.ok.inj hend)
  have hold : (storeMachine 0x4100013).priv.urvbBlockId = 0 := by decide +kernel
  refine ⟨small_run hreplays,by decide +kernel,by decide +kernel,by decide +kernel,by decide,
    mid,hmid,hid,hpc,fun h => ?_⟩
  have hsame := h.blockId
  rw [hid,hold] at hsame
  exact absurd hsame (by decide)

end Urvirt
