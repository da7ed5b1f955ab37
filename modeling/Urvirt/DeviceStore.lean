import Urvirt.BlockDevice

/-!
# Emulated device stores

A store to a device register reaches the register or starts a transfer, and the pc
moves on. Nothing else happens in that invocation of the handler, but for the length
of the store, which is read again after the transfer.
-/

namespace Urvirt

open Bitfield Rv64gc Transition Scatter

/-- The handler takes the fault for a store outside RAM and decodes its data. -/
structure StoreFault (env : Host) (m : Machine) (a : Word) (l : Leaf) (data : Word) : Prop where
  free : FreeChoice m.map env (.sigsegv a)
  cause : segvCause env (mapConf env m) a = .ok scauseStorePf
  leaf : m.walk a = .leaf l
  present : l.pte ≠ 0
  device : ¬inRam l.pa
  data : getStoreData env (mapConf env m) = .ok (some data)

section Fault

variable {env : Host} {m m' : Machine} {a data : Word} {l : Leaf}

def faultMachine (env : Host) (m : Machine) : Machine := countSegv (mapConf env m)

theorem StoreFault.emulate (hf : StoreFault env m a l data) :
    emulate env (.sigsegv a) m = deviceStore env (faultMachine env m) l.pa data := by
  have hfree : AddressSpace.Free (faultMachine env m).map env.ramPage (pages ramSize) :=
    mapConf_free hf.free a rfl
  have hwalk : (faultMachine env m).walk a = .leaf l := hf.leaf
  have hdata : getStoreData env (faultMachine env m) = .ok (some data) := hf.data
  rw [emulate_sigsegv hf.cause]
  refine (handlePageFault_leaf scauseStorePf hfree hwalk hf.present).trans ?_
  rw [if_neg hf.device,deviceAccess,if_pos rfl,hdata]
  rfl

theorem StoreFault.handler (hm : GuestLegal m ∧ ¬TimerDue m.priv)
    (hf : StoreFault env m a l data) : handler env (.sigsegv a) m =
      deviceStore env (faultMachine env m) l.pa data >>= fun mid => .ok (unmapConf env mid) := by
  obtain ⟨⟨hlegal,hclear⟩,hdue⟩ := hm
  have hpend : ¬interruptPending m.priv := fun hpend => hdue ((timerDue_iff hlegal).mpr hpend)
  cases hmid : deviceStore env (faultMachine env m) l.pa data with
  | error why => simp [Urvirt.handler,hf.emulate,hmid,bind,Except.bind]
  | ok mid =>
    obtain ⟨blockId,buf,ram,block,pc,rfl⟩ := deviceStore_frame hmid
    exact handler_of_quiet (hf.emulate.trans hmid) hpend hclear

end Fault

section Length

variable {env : Host} {m m' t : Machine} {a : Word} {c : BitVec 8}

def instrLength (c : BitVec 8) : Word := if c &&& 0b11 = 0b11 then 4 else 2

theorem getStoreData_deref8 {data : Option Word} (h : getStoreData env m = .ok data) :
    ∃ c, deref8 env m m.pc = .ok c := by
  obtain ⟨_,hdec,-⟩ := bind_ok.mp h
  obtain ⟨c,hc,-⟩ := bind_ok.mp hdec
  exact ⟨c,hc⟩

/-- An instruction that is classified as a store is a compressed one of quadrant 0 or
2, or one of 32 bits, so bit 0 alone tells its length. -/
theorem store_low_bits (hcause : segvCause env m a = .ok scauseStorePf)
    (hc : deref8 env m m.pc = .ok c) : c &&& 1 ≠ 0 ↔ c &&& 0b11 = 0b11 := by
  have hodd : ∀ c : BitVec 8, c &&& 0b11 = 0b11 → c &&& 1 ≠ 0 := by decide
  refine ⟨fun h1 => ?_,hodd c⟩
  by_contra h3
  have hne : a ≠ m.pc := by
    intro ha
    rw [segvCause,if_pos ha] at hcause
    exact absurd (Except.ok.inj hcause) (by decide)
  rw [segvCause,if_neg hne,hc] at hcause
  obtain ⟨h,hd,hcause⟩ := bind_ok.mp ((if_pos h3).symm.trans hcause)
  have hstore : rvcLooksLikeStore h = true := by
    by_contra hns
    have hok := Except.ok.inj hcause
    rw [if_neg hns] at hok
    split_ifs at hok
    · exact absurd hok (by decide)
    · exact absurd hok (by decide)
  have hquad := ((rvcLooksLikeStore_iff h).mp hstore).1
  have hbyte := hc.symm.trans (deref8_of_deref16 hd)
  cases hbyte
  have hlow := (odd_byte h).mp h1
  rw [field_zero] at hquad hlow
  omega

theorem skipStore_eq (hc : deref8 env t t.pc = .ok c) :
    skipStore env t = .ok (t.setPc (t.pc+(if c &&& 1 ≠ 0 then 4 else 2))) := by
  rw [skipStore,hc]
  rfl

end Length

/-- The device store of `data` at `pa` happened, once, and nothing else did. -/
structure DeviceStoreOnce (env : Host) (m : Machine) (pa data : Word) (m' : Machine) : Prop where
  pc : ∀ c, deref8 env (mapConf env m) m.pc = .ok c → m'.pc = m.pc+instrLength c
  regs : ∀ i, i ≠ 0 → m'.regs i = m.regs i
  priv : m'.priv = { m.priv with
    counterSegv := m.priv.counterSegv+1
    urvbBlockId := if pa = urvirtBlock+urvirtBlockBlockId then data else m.priv.urvbBlockId
    urvbBuf := if pa = urvirtBlock+urvirtBlockBuf then data else m.priv.urvbBuf }
  transfer : if pa = urvirtBlock+urvirtBlockCommand then
      ∃ t, blockCommand env (faultMachine env m) data = .ok t ∧ m'.ram = t.ram ∧ m'.block = t.block
    else m'.ram = m.ram ∧ m'.block = m.block
  register : IsDeviceRegister pa
  map : m'.map = m.map
  traps : m'.traps = m.traps
  output : m'.stdout = m.stdout ∧ m'.settimes = m.settimes

/-- The last byte that a `READ` puts where the first byte of the store is read from
says the same length. -/
def KeepsLength (env : Host) (m : Machine) : Prop :=
  ∀ c o, deref8 env m m.pc = .ok c → m.hostRam m.pc = some o →
    ∀ j < readCount env m, m.place m.priv.urvbBuf j = some o →
      (∀ k, j < k → k < readCount env m → m.place m.priv.urvbBuf k ≠ some o) →
      (m.block.byte (m.blockOffset.toNat+j) &&& 1 ≠ 0 ↔ c &&& 1 ≠ 0)

section Once

variable {env : Host} {m t mid : Machine} {a pa data : Word} {l : Leaf} {c c₁ : BitVec 8} {o : ℕ}

theorem deref8_eq (env : Host) (m : Machine) (a : Word) : deref8 env m a =
    if m.readable a then .ok (match m.hostRam a with | some o => m.ram o | none => env.own a)
    else .error .nestedSegv := by
  rw [deref8,hostByte_eq]
  split_ifs <;> rfl

theorem deref8_hostRam (ram : Ram) (ho : m.hostRam a = some o)
    (hc : deref8 env { m with ram := ram } a = .ok c) : c = ram o := by
  have ho' : ({ m with ram := ram } : Machine).hostRam a = some o := ho
  rw [deref8_eq,ho'] at hc
  split_ifs at hc
  exact (Except.ok.inj hc).symm

theorem deref8_own (ram : Ram) (ho : m.hostRam a = none) :
    deref8 env { m with ram := ram } a = deref8 env m a := by
  have ho' : ({ m with ram := ram } : Machine).hostRam a = none := ho
  rw [deref8_eq,deref8_eq,ho,ho']
  rfl

theorem length_eq_iff (pc : Word) (p q : Prop) [Decidable p] [Decidable q] :
    pc+(if p then 4 else 2) = pc+(if q then 4 else 2) ↔ (p ↔ q) := by
  rw [BitVec.add_right_inj]
  by_cases hp : p <;> by_cases hq : q <;> simp [hp,hq]

theorem keepsLength_iff (ht : blockCommand env m urvirtBlockCmdRead = .ok t)
    (hc : deref8 env m m.pc = .ok c) (hc₁ : deref8 env t t.pc = .ok c₁) :
    KeepsLength env m ↔ (c₁ &&& 1 ≠ 0 ↔ c &&& 1 ≠ 0) := by
  rw [blockCommand_read] at ht
  obtain rfl := storeBytes_scatter ht
  have huniq : ∀ c', deref8 env m m.pc = .ok c' → c' = c := fun c' h' =>
    Except.ok.inj (h'.symm.trans hc)
  cases ho : m.hostRam m.pc with
  | none =>
    have heq : c₁ = c := Except.ok.inj (hc₁.symm.trans ((deref8_own _ ho).trans hc))
    rw [heq]
    simp [KeepsLength,ho]
  | some o =>
    have hbyte := deref8_hostRam m.ram ho hc
    have hbyte₁ := deref8_hostRam _ ho hc₁
    by_cases hex : ∃ j < readCount env m, m.place m.priv.urvbBuf j = some o
    · obtain ⟨j,hj,hp,hlast⟩ := exists_last hex
      have hdata : c₁ = m.block.byte (m.blockOffset.toNat+j) :=
        hbyte₁.trans (scatter_last hj hp hlast)
      rw [hdata]
      constructor
      · intro hk
        exact hk c o hc ho j hj hp hlast
      · intro hiff c' o' hc' ho' k hk hpk hlastk
        rw [ho] at ho'
        cases ho'
        have hkj : k = j := by
          rcases Nat.lt_trichotomy k j with hlt | heq | hgt
          · exact absurd hp (hlastk j hlt hj)
          · exact heq
          · exact absurd hpk (hlast k hgt hk)
        rw [hkj,huniq c' hc']
        exact hiff
    · have hframe : c₁ = c := by
        rw [hbyte₁,hbyte]
        exact scatter_frame fun j hj hp => hex ⟨j,hj,hp⟩
      rw [hframe]
      simp only [iff_self,iff_true]
      intro c' o' _ ho' j hj hp _
      rw [ho] at ho'
      cases ho'
      exact absurd ⟨j,hj,hp⟩ hex

theorem unmapConf_mapConf (h : FreeChoice m.map env (.sigsegv a)) :
    AddressSpace.unmapRange (mapConf env m).map env.confPage (pages confSize) = m.map := by
  rw [mapConf_map]
  exact AddressSpace.unmapRange_mapRange h.conf_free

theorem blockCommand_block (hne : data ≠ urvirtBlockCmdRead) (ht : blockCommand env m data = .ok t) :
    ∃ block, t = { m with block := block } := by
  rw [blockCommand,if_neg hne] at ht
  split_ifs at ht
  cases ht
  unfold sPwrite64
  split_ifs
  · exact ⟨m.block,rfl⟩
  · exact ⟨_,rfl⟩

theorem deref8_write (hne : data ≠ urvirtBlockCmdRead) (ht : blockCommand env m data = .ok t)
    (hc : deref8 env m m.pc = .ok c) (hc₁ : deref8 env t t.pc = .ok c₁) : c₁ = c := by
  obtain ⟨block,rfl⟩ := blockCommand_block hne ht
  have hsame : deref8 env { m with block := block } m.pc = deref8 env m m.pc := rfl
  exact Except.ok.inj (hc₁.symm.trans (hsame.trans hc))

theorem keepsLength_of_disjoint (h : ∀ j < 512, m.place m.priv.urvbBuf j ≠ m.hostRam m.pc) :
    KeepsLength env m := by
  intro c o _ ho j hj hp
  have hlt : j < 512 := Nat.lt_of_lt_of_le hj (readCount_le env m)
  exact absurd (hp.trans ho.symm) (h j hlt)

theorem instrLength_eq (hcause : segvCause env m a = .ok scauseStorePf)
    (hc : deref8 env m m.pc = .ok c) : instrLength c = if c &&& 1 ≠ 0 then 4 else 2 := by
  have hlow := store_low_bits hcause hc
  simp only [instrLength,hlow]

theorem skipStore_pc (hmid : skipStore env t = .ok mid) :
    ∃ c₁, deref8 env t t.pc = .ok c₁ ∧
      mid = t.setPc (t.pc+(if c₁ &&& 1 ≠ 0 then 4 else 2)) := by
  obtain ⟨c₁,hc₁,h⟩ := bind_ok.mp hmid
  exact ⟨c₁,hc₁,(Except.ok.inj h).symm⟩

def storedMachine (env : Host) (m : Machine) (pa data : Word) (ram : Ram) (block : BlockImage) :
    Machine :=
  { faultMachine env m with
    priv := { m.priv with
      counterSegv := m.priv.counterSegv+1
      urvbBlockId := if pa = urvirtBlock+urvirtBlockBlockId then data else m.priv.urvbBlockId
      urvbBuf := if pa = urvirtBlock+urvirtBlockBuf then data else m.priv.urvbBuf }
    ram := ram
    block := block }

/-- What is left to go wrong is the length. -/
theorem storedMachine_once {ram : Ram} {block : BlockImage} (hf : StoreFault env m a l data)
    (hdev : IsDeviceRegister l.pa) (hc : deref8 env (mapConf env m) m.pc = .ok c)
    (htransfer : if l.pa = urvirtBlock+urvirtBlockCommand then
        ∃ t, blockCommand env (faultMachine env m) data = .ok t ∧ ram = t.ram ∧ block = t.block
      else ram = m.ram ∧ block = m.block) :
    DeviceStoreOnce env m l.pa data (unmapConf env
      ((storedMachine env m l.pa data ram block).setPc (m.pc+(if c₁ &&& 1 ≠ 0 then 4 else 2)))) ↔
    (c₁ &&& 1 ≠ 0 ↔ c &&& 1 ≠ 0) := by
  have hpc : ∀ v, (unmapConf env ((storedMachine env m l.pa data ram block).setPc v)).pc = v :=
    fun v => (storedMachine env m l.pa data ram block).setPc_pc v
  constructor
  · intro h
    have hlen := h.pc c hc
    rw [hpc,instrLength_eq hf.cause hc,length_eq_iff] at hlen
    exact hlen
  · intro hiff
    refine ⟨fun c' hc' => ?_,fun i hi => ?_,rfl,htransfer,hdev,?_,rfl,rfl,rfl⟩
    · cases hc.symm.trans hc'
      rw [hpc,instrLength_eq hf.cause hc,length_eq_iff]
      exact hiff
    · exact Function.update_of_ne hi _ _
    · exact unmapConf_mapConf hf.free

theorem register_store_once (hf : StoreFault env m a l data) (hdev : IsDeviceRegister l.pa)
    (hcmd : l.pa ≠ urvirtBlock+urvirtBlockCommand) (hc : deref8 env (mapConf env m) m.pc = .ok c)
    (hmid : skipStore env (storedMachine env m l.pa data m.ram m.block) = .ok mid) :
    DeviceStoreOnce env m l.pa data (unmapConf env mid) := by
  obtain ⟨c₁,hc₁,rfl⟩ := skipStore_pc hmid
  cases hc.symm.trans hc₁
  refine (storedMachine_once hf hdev hc ?_).mpr Iff.rfl
  rw [if_neg hcmd]
  exact ⟨rfl,rfl⟩

end Once

/-- A device store that the handler completes happens once and touches nothing else
exactly when a `READ` does not change the length of the store that starts it. -/
theorem device_store_once_iff {b : BootData} {es : List Event} {env : Host} {m m' : Machine}
    {a data : Word} {l : Leaf} (h : Run Step (boot b) es m) (hf : StoreFault env m a l data)
    (hdone : handler env (.sigsegv a) m = .ok m') : DeviceStoreOnce env m l.pa data m' ↔
      (l.pa = urvirtBlock+urvirtBlockCommand → data = urvirtBlockCmdRead →
        KeepsLength env (faultMachine env m)) := by
  obtain ⟨c,hc⟩ := getStoreData_deref8 hf.data
  rw [hf.handler (run_not_timerDue h)] at hdone
  obtain ⟨mid,hmid,hdone⟩ := bind_ok.mp hdone
  cases hdone
  simp only [deviceStore] at hmid
  split_ifs at hmid with hcmd hid hbuf
  · obtain ⟨t,ht,hmid⟩ := bind_ok.mp hmid
    obtain ⟨c₁,hc₁,rfl⟩ := skipStore_pc hmid
    have hkeeps : (data = urvirtBlockCmdRead → KeepsLength env (faultMachine env m)) ↔
        (c₁ &&& 1 ≠ 0 ↔ c &&& 1 ≠ 0) := by
      by_cases hread : data = urvirtBlockCmdRead
      · subst hread
        rw [← keepsLength_iff ht hc hc₁]
        exact ⟨fun hk => hk rfl,fun hk _ => hk⟩
      · rw [deref8_write hread ht hc hc₁]
        exact ⟨fun _ => Iff.rfl,fun _ he => absurd he hread⟩
    obtain ⟨ram,block,rfl⟩ := blockCommand_ok ht
    have hstored : ({ faultMachine env m with ram := ram, block := block } : Machine) =
        storedMachine env m l.pa data ram block := by
      rw [storedMachine,hcmd,if_neg (by decide),if_neg (by decide)]
      rfl
    rw [hstored]
    refine (storedMachine_once hf (.inl hcmd) hc ?_).trans ?_
    · rw [if_pos hcmd]
      exact ⟨_,ht,rfl,rfl⟩
    · rw [← hkeeps]
      exact ⟨fun hk _ => hk,fun hk => hk hcmd⟩
  · have hstored : ({ faultMachine env m with
        priv := { (faultMachine env m).priv with urvbBlockId := data } } : Machine) =
        storedMachine env m l.pa data m.ram m.block := by
      rw [storedMachine,if_pos hid,hid,if_neg (by decide)]
      rfl
    rw [hstored] at hmid
    have honce := register_store_once hf (.inr (.inl hid)) hcmd hc hmid
    exact iff_of_true honce fun h => absurd h hcmd
  · have hstored : ({ faultMachine env m with
        priv := { (faultMachine env m).priv with urvbBuf := data } } : Machine) =
        storedMachine env m l.pa data m.ram m.block := by
      rw [storedMachine,if_pos hbuf,hbuf,if_neg (by decide)]
      rfl
    rw [hstored] at hmid
    have honce := register_store_once hf (.inr (.inr hbuf)) hcmd hc hmid
    exact iff_of_true honce fun h => absurd h hcmd
  · obtain ⟨_,-,hmid⟩ := bind_ok.mp hmid
    cases hmid

/-- It has written its own page to block 0, names a buffer and is about to store a
command. -/
def diskEvents (buf command : Word) : List Event :=
  storeUser 0x4100017 (kernelStart+16) 0 0++storeTo urvirtBlockBuf kernelStart++
    storeTo urvirtBlockCommand urvirtBlockCmdWrite++storeTo urvirtBlockBuf buf++
    [beforeStore urvirtBlockCommand command]

def diskMachine (buf command : Word) : Machine := smallAfter storeKernel (diskEvents buf command)

theorem diskMachine_storeFault {buf command : Word}
    (h : Replays storeKernel (diskEvents buf command))
    (hcause : segvCause smallHost (mapConf smallHost (diskMachine buf command)) storePage =
      .ok scauseStorePf)
    (hwalk : (diskMachine buf command).walk storePage = .leaf ⟨urvirtBlock,0x4100017⟩)
    (hdata : getStoreData smallHost (mapConf smallHost (diskMachine buf command)) =
      .ok (some command)) :
    StoreFault smallHost (diskMachine buf command) storePage ⟨urvirtBlock,0x4100017⟩ command where
  free := (small_free h).freeChoice (by decide)
  cause := hcause
  leaf := hwalk
  present := by decide
  device := by decide
  data := hdata

theorem disk_handler {buf command : Word}
    (h : Replays storeKernel (diskEvents buf command++[diskSignal])) :
    handler smallHost (.sigsegv storePage) (diskMachine buf command) =
      .ok (smallAfter storeKernel (diskEvents buf command++[diskSignal])) := small_signal h

/-- A `READ` into a buffer behind the guest's code happens once. -/
theorem device_store_once_iff_read : ∃ m',
    Run Step (boot (smallData storeKernel)) (diskEvents (kernelStart+64) 1)
      (diskMachine (kernelStart+64) 1) ∧
    handler smallHost (.sigsegv storePage) (diskMachine (kernelStart+64) 1) = .ok m' ∧
    DeviceStoreOnce smallHost (diskMachine (kernelStart+64) 1) urvirtBlock 1 m' := by
  have hreplays : Replays storeKernel (diskEvents (kernelStart+64) 1++[diskSignal]) := by
    decide +kernel
  have hf := diskMachine_storeFault hreplays.left (by decide +kernel) (by decide +kernel)
    (by decide +kernel)
  have hplace : ∀ j < 512,
      (faultMachine smallHost (diskMachine (kernelStart+64) 1)).place
        (faultMachine smallHost (diskMachine (kernelStart+64) 1)).priv.urvbBuf j ≠
      (faultMachine smallHost (diskMachine (kernelStart+64) 1)).hostRam
        (faultMachine smallHost (diskMachine (kernelStart+64) 1)).pc := by
    decide +kernel
  have hrun : Run Step (boot (smallData storeKernel)) (diskEvents (kernelStart+64) 1)
      (diskMachine (kernelStart+64) 1) := small_run hreplays.left
  have hhandler := disk_handler hreplays
  have honce := (device_store_once_iff hrun hf hhandler).mpr
  have hkeeps : KeepsLength smallHost (faultMachine smallHost (diskMachine (kernelStart+64) 1)) :=
    keepsLength_of_disjoint hplace
  exact ⟨_,hrun,hhandler,honce fun _ _ => hkeeps⟩

/-- A `READ` that puts an even byte on the store that starts it moves the pc by two. -/
theorem read_over_store : ∃ m',
    Run Step (boot (smallData storeKernel)) (diskEvents (kernelStart+15) 1)
      (diskMachine (kernelStart+15) 1) ∧
    StoreFault smallHost (diskMachine (kernelStart+15) 1) storePage ⟨urvirtBlock,0x4100017⟩ 1 ∧
    handler smallHost (.sigsegv storePage) (diskMachine (kernelStart+15) 1) = .ok m' ∧
    deref32 smallHost (mapConf smallHost (diskMachine (kernelStart+15) 1)) (kernelStart+16) =
      .ok 0x00533023 ∧
    m'.pc = kernelStart+18 ∧
    ¬DeviceStoreOnce smallHost (diskMachine (kernelStart+15) 1) urvirtBlock 1 m' := by
  have hreplays : Replays storeKernel (diskEvents (kernelStart+15) 1++[diskSignal]) := by
    decide +kernel
  have hf := diskMachine_storeFault hreplays.left (by decide +kernel) (by decide +kernel)
    (by decide +kernel)
  have hbyte : deref8 smallHost (mapConf smallHost (diskMachine (kernelStart+15) 1))
      (diskMachine (kernelStart+15) 1).pc = .ok 0x23 := by decide +kernel
  have hpc : (smallAfter storeKernel (diskEvents (kernelStart+15) 1++[diskSignal])).pc =
      kernelStart+18 := by decide +kernel
  have hstart : (diskMachine (kernelStart+15) 1).pc = kernelStart+16 := by decide +kernel
  refine ⟨_,small_run hreplays.left,hf,disk_handler hreplays,by decide +kernel,hpc,fun h => ?_⟩
  have hlen := h.pc _ hbyte
  rw [hpc,hstart] at hlen
  exact absurd hlen (by decide)

end Urvirt
