import Urvirt.DeviceStore

/-!
# Block transfers and the guest's buffer

The guest names its buffer by a virtual address. The device takes the address for one
of the host, so a transfer is right when the host map already shows the guest's pages.
-/

namespace Urvirt

open Bitfield Rv64gc Transition Scatter PageTable

/-- The offset in RAM that the guest's tables give an address. -/
def Machine.guestRam (m : Machine) (va : Word) : Option ℕ :=
  match m.walk va with
  | .leaf l => if inRam l.pa then some (l.pa.toNat-ramStart.toNat) else none
  | _ => none

theorem inRam_iff (pa : Word) : inRam pa ↔ 0x80000000 ≤ pa.toNat ∧ pa.toNat < 0x81000000 := by
  rw [inRam,BitVec.le_def,BitVec.lt_def]
  rfl

/-- The address of a byte of a buffer, which may run over the end of the address space. -/
theorem toNat_bufferByte (buf : Word) {j : ℕ} (hj : j < 512) :
    (buf+BitVec.ofNat 64 j).toNat = (buf.toNat+j)%2^64 := by
  rw [BitVec.toNat_add,BitVec.toNat_ofNat,Nat.mod_eq_of_lt (by omega : j < 2^64)]

section Buffer

variable {m : Machine} {va buf : Word} {o : ℕ} {g : ℕ → ℕ}

theorem guestRam_offset (hsatp : getSatpMode m.priv.satp = satpModeSv39)
    (h : m.guestRam va = some o) : o%4096 = va.toNat%4096 := by
  simp only [Machine.guestRam] at h
  cases hw : m.walk va with
  | halt why => simp [hw] at h
  | fault => simp [hw] at h
  | leaf l =>
    simp only [hw] at h
    split_ifs at h with hram
    have ho := Option.some.inj h
    have hpa := toNat_pa va l.pte
    rw [← walk_leaf_pa hsatp hw,physical,offset] at hpa
    have hlow := BitVec.le_def.mp hram.1
    have hstart : ramStart.toNat = 0x80000000 := rfl
    omega

theorem guestRam_injective (hsatp : getSatpMode m.priv.satp = satpModeSv39)
    (hg : ∀ j < 512, m.guestRam (buf+BitVec.ofNat 64 j) = some (g j)) :
    ∀ j < 512, ∀ k < 512, g j = g k → j = k := by
  intro j hj k hk hjk
  have hoff : ∀ i < 512, g i%4096 = (buf.toNat+i)%4096 := by
    intro i hi
    have hadd := toNat_bufferByte buf hi
    have ho := guestRam_offset hsatp (hg i hi)
    omega
  have hj' := hoff j hj
  have hk' := hoff k hk
  omega

theorem walk_leaf_samePage {va' : Word} {l : Leaf} (hsatp : getSatpMode m.priv.satp = satpModeSv39)
    (hpage : va'.toNat/2^12 = va.toNat/2^12) (hw : m.walk va = .leaf l) :
    m.walk va' = .leaf ⟨(getPtePpn l.pte <<< 12) ||| getVaOff va',l.pte⟩ := by
  have htable : tableWalk m.priv.satp m.ram va' = tableWalk m.priv.satp m.ram va :=
    walk_samePage hpage _ _ _
  have hcanon : signExtended va' ↔ signExtended va := by
    rw [signExtended_iff,signExtended_iff]
    exact canonical_samePage hpage (by decide)
  rw [Machine.walk,lookupPaInRam_eq hsatp] at hw ⊢
  rw [htable]
  split_ifs at hw with hva
  rw [if_pos (hcanon.mpr hva)]
  rcases emulated_leaf hw with ho | ho
  · rw [ho]
    rfl
  · rw [ho]
    rfl

theorem guestRam_piece (hsatp : getSatpMode m.priv.satp = satpModeSv39)
    (hfit : buf.toNat%4096+512 ≤ 4096) (h : m.guestRam buf = some o) :
    ∀ j < 512, m.guestRam (buf+BitVec.ofNat 64 j) = some (o+j) := by
  intro j hj
  have hlt := buf.isLt
  have hadd : (buf+BitVec.ofNat 64 j).toNat = buf.toNat+j := by
    rw [toNat_bufferByte buf hj,Nat.mod_eq_of_lt (by omega)]
  simp only [Machine.guestRam] at h ⊢
  cases hw : m.walk buf with
  | halt why => simp [hw] at h
  | fault => simp [hw] at h
  | leaf l =>
    have hpage : (buf+BitVec.ofNat 64 j).toNat/2^12 = buf.toNat/2^12 := by
      rw [hadd]
      omega
    have hpa := toNat_pa buf l.pte
    have hpa' := toNat_pa (buf+BitVec.ofNat 64 j) l.pte
    rw [← walk_leaf_pa hsatp hw] at hpa
    simp only [physical,offset,hadd] at hpa hpa'
    simp only [hw] at h
    simp only [walk_leaf_samePage hsatp hpage hw]
    split_ifs at h with hram
    have ho := Option.some.inj h
    rw [inRam_iff] at hram
    rw [if_pos (by rw [inRam_iff]; omega)]
    refine congrArg some ?_
    have hstart : ramStart.toNat = 0x80000000 := rfl
    omega

end Buffer

def Machine.withImage (m : Machine) (byte : ℕ → BitVec 8) : Machine :=
  { m with block := ⟨m.block.size,byte⟩ }

/-- The block is in the buffer, whose bytes the guest has at `g`, and nowhere else. -/
structure BlockRead (g : ℕ → ℕ) (m m' : Machine) : Prop where
  block : m'.block = m.block
  buffer : ∀ j < 512, m'.ram (g j) = m.block.byte (512*m.priv.urvbBlockId.toNat+j)
  rest : ∀ o, (∀ j < 512, g j ≠ o) → m'.ram o = m.ram o

/-- The buffer is in the block and nowhere else. -/
structure BlockWritten (g : ℕ → ℕ) (m m' : Machine) : Prop where
  ram : m'.ram = m.ram
  size : m'.block.size = m.block.size
  block : ∀ j < 512, m'.block.byte (512*m.priv.urvbBlockId.toNat+j) = m.ram (g j)
  rest : ∀ i, ¬InBlock m.priv.urvbBlockId i → m'.block.byte i = m.block.byte i

/-- The handler completes the store, with this outcome and nothing else changed. -/
def Completes (env : Host) (a : Word) (P : Machine → Machine → Prop) (m : Machine) : Prop :=
  ∃ m', handler env (.sigsegv a) m = .ok m' ∧ P m m' ∧ (m'.pc = m.pc+2 ∨ m'.pc = m.pc+4) ∧
    m'.priv = { m.priv with counterSegv := m.priv.counterSegv+1 } ∧ m'.map = m.map ∧
    ∀ i, i ≠ 0 → m'.regs i = m.regs i

/-- The block lies inside the image; sizes of files are below 2^63. -/
structure BlockInside (m : Machine) : Prop where
  inside : 512*m.priv.urvbBlockId.toNat+512 ≤ m.block.size
  size : m.block.size < 2^63

section Command

variable {env : Host} {m t : Machine} {a data : Word} {l : Leaf} {g : ℕ → ℕ}
  {P : Machine → Machine → Prop}

theorem BlockInside.offset (h : BlockInside m) :
    m.blockOffset.toNat = 512*m.priv.urvbBlockId.toNat ∧ m.blockOffset.msb = false := by
  have h₁ := h.inside
  have h₂ := h.size
  exact blockOffset_of_lt (by omega)

theorem StoreFault.withImage (hf : StoreFault env m a l data) (byte : ℕ → BitVec 8) :
    StoreFault env (m.withImage byte) a l data := { hf with }

theorem command_handler (hm : GuestLegal m ∧ ¬TimerDue m.priv) (hf : StoreFault env m a l data)
    (hpa : l.pa = urvirtBlock+urvirtBlockCommand) : handler env (.sigsegv a) m =
      (blockCommand env (faultMachine env m) data >>= skipStore env) >>= fun mid =>
        .ok (unmapConf env mid) := by
  rw [hf.handler hm,deviceStore,if_pos hpa]

theorem StoreFault.skip (hf : StoreFault env m a l data)
    (ht : blockCommand env (faultMachine env m) data = .ok t) :
    ∃ v, skipStore env t = .ok (t.setPc v) ∧ (v = m.pc+2 ∨ v = m.pc+4) := by
  obtain ⟨c,hc⟩ := getStoreData_deref8 hf.data
  have hread : (mapConf env m).readable (mapConf env m).pc = true := by
    by_contra hno
    rw [deref8_not_readable env (Bool.eq_false_of_not_eq_true hno)] at hc
    cases hc
  obtain ⟨ram,block,hteq⟩ := blockCommand_ok ht
  have hread' : t.readable t.pc = true := by
    rw [hteq]
    exact hread
  have hpc : t.pc = m.pc := by
    rw [hteq]
    rfl
  obtain ⟨c₁,hc₁⟩ := deref8_readable env hread'
  refine ⟨_,skipStore_eq hc₁,?_⟩
  rw [hpc]
  split_ifs
  · exact .inr rfl
  · exact .inl rfl

theorem completes_iff (hm : GuestLegal m ∧ ¬TimerDue m.priv) (hf : StoreFault env m a l data)
    (hpa : l.pa = urvirtBlock+urvirtBlockCommand)
    (hP : ∀ t v, P m (unmapConf env (t.setPc v)) ↔ P m t) :
    Completes env a P m ↔ ∃ t, blockCommand env (faultMachine env m) data = .ok t ∧ P m t := by
  have hhandler := command_handler hm hf hpa
  constructor
  · rintro ⟨m',hm',hp,-⟩
    rw [hhandler] at hm'
    obtain ⟨mid,hmid,hm'⟩ := bind_ok.mp hm'
    obtain ⟨t,ht,hmid⟩ := bind_ok.mp hmid
    obtain ⟨c₁,-,rfl⟩ := skipStore_pc hmid
    cases hm'
    exact ⟨t,ht,(hP _ _).mp hp⟩
  · rintro ⟨t,ht,hp⟩
    obtain ⟨v,hskip,hv⟩ := hf.skip ht
    have hok : handler env (.sigsegv a) m = .ok (unmapConf env (t.setPc v)) := by
      rw [hhandler,ht]
      exact bind_ok.mpr ⟨_,hskip,rfl⟩
    have hend : (unmapConf env (t.setPc v)).pc = v := t.setPc_pc v
    obtain ⟨ram,block,hteq⟩ := blockCommand_ok ht
    refine ⟨_,hok,(hP _ _).mpr hp,?_,?_,?_,fun i hi => ?_⟩
    · rw [hend]
      exact hv
    · rw [hteq]
      rfl
    · rw [hteq]
      exact unmapConf_mapConf hf.free
    · rw [hteq]
      exact Function.update_of_ne hi _ _

/-- The command has this outcome whatever the image holds. -/
def CommandAll (env : Host) (data : Word) (P : Machine → Machine → Prop) (m : Machine) : Prop :=
  ∀ byte, ∃ t, blockCommand env (faultMachine env (m.withImage byte)) data = .ok t ∧
    P (m.withImage byte) t

theorem read_ram {byte : ℕ → BitVec 8}
    (ht : blockCommand env (faultMachine env (m.withImage byte)) urvirtBlockCmdRead = .ok t) :
    t.ram = scatter ((mapConf env m).place m.priv.urvbBuf)
      (fun j => byte (m.blockOffset.toNat+j)) m.ram (readCount env (mapConf env m)) := by
  rw [blockCommand_read] at ht
  rw [storeBytes_scatter ht]
  rfl

/-- Two images that differ in one byte show where that byte goes. -/
theorem place_of_readAll (hin : BlockInside m) (h : CommandAll env urvirtBlockCmdRead (BlockRead g) m)
    {i : ℕ} (hi : i < 512) : i < readCount env (mapConf env m) ∧
      (mapConf env m).place m.priv.urvbBuf i = some (g i) := by
  have hoff := hin.offset.1
  let byte : ℕ → BitVec 8 := fun k => if k = m.blockOffset.toNat+i then 1 else 0
  obtain ⟨t₀,ht₀,hp₀⟩ := h fun _ => 0
  obtain ⟨t₁,ht₁,hp₁⟩ := h byte
  have h₀ : t₀.ram (g i) = 0 := hp₀.buffer i hi
  have h₁ : t₁.ram (g i) = 1 := by
    refine (hp₁.buffer i hi).trans (if_pos ?_)
    exact congrArg (·+i) hoff.symm
  rw [read_ram ht₀] at h₀
  rw [read_ram ht₁] at h₁
  by_contra hno
  have hsame : scatter ((mapConf env m).place m.priv.urvbBuf) (fun _ => 0) m.ram
      (readCount env (mapConf env m)) (g i) = scatter ((mapConf env m).place m.priv.urvbBuf)
      (fun j => byte (m.blockOffset.toNat+j)) m.ram (readCount env (mapConf env m)) (g i) := by
    refine scatter_congr fun j hj hpj => (if_neg fun he => hno ?_).symm
    obtain rfl : j = i := Nat.add_left_cancel he
    exact ⟨hj,hpj⟩
  rw [h₀,h₁] at hsame
  exact absurd hsame (by decide)

theorem readAll_iff (hin : BlockInside m) (hinj : ∀ j < 512, ∀ k < 512, g j = g k → j = k) :
    CommandAll env urvirtBlockCmdRead (BlockRead g) m ↔ ∀ j < 512,
      (mapConf env m).writable (m.priv.urvbBuf+BitVec.ofNat 64 j) = true ∧
        (mapConf env m).place m.priv.urvbBuf j = some (g j) := by
  obtain ⟨hoff,hmsb⟩ := hin.offset
  have hsize : m.blockOffset.toNat+512 ≤ m.block.size := by
    rw [hoff]
    exact hin.inside
  have hcount := readCount_eq_iff (m:=mapConf env m) env hmsb hsize
  constructor
  · intro h
    have hle := readCount_le env (mapConf env m)
    have hlt := (place_of_readAll hin h (by decide : 511 < 512)).1
    have hwrite := hcount.mp (by omega)
    exact fun j hj => ⟨hwrite j hj,(place_of_readAll hin h hj).2⟩
  · intro h byte
    have hfull : readCount env (faultMachine env (m.withImage byte)) = 512 :=
      hcount.mpr fun j hj => (h j hj).1
    obtain ⟨t,ht,hbuf,hrest,hteq⟩ := read_done (m:=faultMachine env (m.withImage byte)) hfull hinj
      fun j hj => (h j hj).2
    refine ⟨t,ht,?_,fun j hj => (hbuf j hj).trans ?_,hrest⟩
    · rw [hteq]
      rfl
    · exact congrArg (fun k => byte (k+j)) hoff

theorem write_byte (hin : BlockInside m) {byte : ℕ → BitVec 8}
    (ht : blockCommand env (faultMachine env (m.withImage byte)) urvirtBlockCmdWrite = .ok t)
    {j : ℕ} : t.block.byte (512*m.priv.urvbBlockId.toNat+j) =
      if j < writeCount env (mapConf env m) then
        ((mapConf env m).hostByte env (m.priv.urvbBuf+BitVec.ofNat 64 j)).getD 0
      else byte (512*m.priv.urvbBlockId.toNat+j) := by
  obtain ⟨hoff,hmsb⟩ := hin.offset
  rw [blockCommand_write (m:=faultMachine env (m.withImage byte)) env hmsb] at ht
  cases ht
  have hoff' : (faultMachine env (m.withImage byte)).blockOffset.toNat =
      512*m.priv.urvbBlockId.toNat := hoff
  simp only [BlockImage.overwrite,hoff',Nat.le_add_right,true_and,Nat.add_lt_add_iff_left,
    Nat.add_sub_cancel_left]
  rfl

/-- An image that differs from the buffer in every byte of the block shows that the
transfer is complete and what it copies. -/
theorem hostByte_of_writeAll (hin : BlockInside m)
    (h : CommandAll env urvirtBlockCmdWrite (BlockWritten g) m) {j : ℕ} (hj : j < 512) :
    (mapConf env m).hostByte env (m.priv.urvbBuf+BitVec.ofNat 64 j) = some (m.ram (g j)) := by
  obtain ⟨t,ht,hp⟩ := h fun k => ~~~m.ram (g (k-512*m.priv.urvbBlockId.toNat))
  have hbyte : ∀ j < 512, j < writeCount env (mapConf env m) ∧
      ((mapConf env m).hostByte env (m.priv.urvbBuf+BitVec.ofNat 64 j)).getD 0 = m.ram (g j) := by
    intro j hj
    have hj' := (write_byte hin ht).symm.trans (hp.block j hj)
    split_ifs at hj' with hlt
    · exact ⟨hlt,hj'⟩
    · rw [Nat.add_sub_cancel_left] at hj'
      have hbit := congrArg (fun x => BitVec.getLsbD x 0) hj'
      simp [Machine.withImage] at hbit
  have hle := writeCount_le env (mapConf env m)
  have hlast := (hbyte 511 (by omega)).1
  have hread := (writeCount_eq_iff env (mapConf env m)).mp (Nat.le_antisymm hle hlast)
  obtain ⟨v,hv⟩ := Option.isSome_iff_exists.mp (hread j hj)
  have hj' := (hbyte j hj).2
  have hv' : (mapConf env m).hostByte env (m.priv.urvbBuf+BitVec.ofNat 64 j) = some v := hv
  rw [hv'] at hj' ⊢
  exact congrArg some hj'

theorem writeAll_iff (hin : BlockInside m) :
    CommandAll env urvirtBlockCmdWrite (BlockWritten g) m ↔ ∀ j < 512,
      (mapConf env m).hostByte env (m.priv.urvbBuf+BitVec.ofNat 64 j) = some (m.ram (g j)) := by
  obtain ⟨hoff,hmsb⟩ := hin.offset
  constructor
  · exact fun h j hj => hostByte_of_writeAll hin h hj
  · intro h byte
    have hfull : writeCount env (mapConf env m) = 512 := by
      refine (writeCount_eq_iff env (mapConf env m)).mpr fun j hj => ?_
      have hj' : (mapConf env m).hostByte env ((mapConf env m).priv.urvbBuf+BitVec.ofNat 64 j) =
          some (m.ram (g j)) := h j hj
      rw [hj']
      rfl
    have ht := blockCommand_write (m:=faultMachine env (m.withImage byte)) env hmsb
    have hn : writeCount env (faultMachine env (m.withImage byte)) = 512 := hfull
    have hoff' : (faultMachine env (m.withImage byte)).blockOffset.toNat =
        512*m.priv.urvbBlockId.toNat := hoff
    refine ⟨_,ht,rfl,?_,fun j hj => ?_,fun i hi => ?_⟩
    · have hinside := hin.inside
      rw [hn,hoff']
      simp only [BlockImage.overwrite]
      rw [if_neg (by omega)]
      exact max_eq_left hinside
    · refine (write_byte hin ht).trans ?_
      rw [hfull,if_pos hj,h j hj]
      rfl
    · rw [hn,hoff']
      exact if_neg hi

end Command

/-- A command on a block of the image and a buffer in RAM transfers between the block
and what the guest takes for its buffer, whatever they hold and with nothing else
changed, exactly when the host map shows every byte of the buffer: writable and at the
guest's place for a `READ`, and with the guest's value for a `WRITE`. -/
theorem block_transfer_iff {b : BootData} {es : List Event} {env : Host} {m : Machine}
    {a data : Word} {l : Leaf} {g : ℕ → ℕ} (h : Run Step (boot b) es m)
    (hsatp : getSatpMode m.priv.satp = satpModeSv39) (hf : StoreFault env m a l data)
    (hpa : l.pa = urvirtBlock+urvirtBlockCommand) (hin : BlockInside m)
    (hg : ∀ j < 512, m.guestRam (m.priv.urvbBuf+BitVec.ofNat 64 j) = some (g j)) :
    (data = urvirtBlockCmdRead →
      ((∀ byte, Completes env a (BlockRead g) (m.withImage byte)) ↔ ∀ j < 512,
        (mapConf env m).writable (m.priv.urvbBuf+BitVec.ofNat 64 j) = true ∧
          (mapConf env m).hostRam (m.priv.urvbBuf+BitVec.ofNat 64 j) = some (g j))) ∧
    (data = urvirtBlockCmdWrite →
      ((∀ byte, Completes env a (BlockWritten g) (m.withImage byte)) ↔ ∀ j < 512,
        (mapConf env m).hostByte env (m.priv.urvbBuf+BitVec.ofNat 64 j) = some (m.ram (g j)))) := by
  have hm := run_not_timerDue h
  have hinj := guestRam_injective hsatp hg
  constructor
  · rintro rfl
    refine Iff.trans ?_ (readAll_iff hin hinj)
    refine forall_congr' fun byte => completes_iff hm (hf.withImage byte) hpa fun t v => ?_
    exact ⟨fun hp => { hp with },fun hp => { hp with }⟩
  · rintro rfl
    refine Iff.trans ?_ (writeAll_iff hin)
    refine forall_congr' fun byte => completes_iff hm (hf.withImage byte) hpa fun t v => ?_
    exact ⟨fun hp => { hp with },fun hp => { hp with }⟩

theorem not_completes_read {env : Host} {m m' : Machine} {a : Word} {g : ℕ → ℕ} {o : ℕ}
    (hhandler : handler env (.sigsegv a) m = .ok m') (hg : g 0 = o)
    (hne : m'.ram o ≠ m.block.byte (512*m.priv.urvbBlockId.toNat)) :
    ¬Completes env a (BlockRead g) m := by
  rintro ⟨m₁,hm₁,hp,-⟩
  obtain rfl := Except.ok.inj (hhandler.symm.trans hm₁)
  have hbyte := hp.buffer 0 (by decide)
  rw [hg] at hbyte
  exact hne hbyte

theorem diskMachine_inside {buf command : Word}
    (hsize : (diskMachine buf command).block.size = 512)
    (hid : (diskMachine buf command).priv.urvbBlockId = 0) : BlockInside (diskMachine buf command) := by
  constructor
  · rw [hid,hsize]
    decide
  · rw [hsize]
    decide

theorem diskMachine_buffer {buf command : Word} {o : ℕ}
    (hsatp : getSatpMode (diskMachine buf command).priv.satp = satpModeSv39)
    (hbuf : (diskMachine buf command).priv.urvbBuf = buf) (hfit : buf.toNat%4096+512 ≤ 4096)
    (h : (diskMachine buf command).guestRam buf = some o) : ∀ j < 512,
      (diskMachine buf command).guestRam
        ((diskMachine buf command).priv.urvbBuf+BitVec.ofNat 64 j) = some (o+j) := by
  rw [hbuf]
  exact guestRam_piece hsatp hfit h

/-- The small guest reads block 0 into the page it runs in. -/
theorem block_transfer_iff_mapped :
    Run Step (boot (smallData storeKernel)) (diskEvents kernelStart 1) (diskMachine kernelStart 1) ∧
    ∀ byte, Completes smallHost storePage (BlockRead fun j => 0x200000+j)
      ((diskMachine kernelStart 1).withImage byte) := by
  have hreplays : Replays storeKernel (diskEvents kernelStart 1) := by decide +kernel
  have hrun : Run Step (boot (smallData storeKernel)) (diskEvents kernelStart 1)
      (diskMachine kernelStart 1) := small_run hreplays
  have hf := diskMachine_storeFault hreplays (by decide +kernel) (by decide +kernel)
    (by decide +kernel)
  have hin : BlockInside (diskMachine kernelStart 1) :=
    diskMachine_inside (by decide +kernel) (by decide +kernel)
  have hsatp : getSatpMode (diskMachine kernelStart 1).priv.satp = satpModeSv39 := by
    decide +kernel
  have hbuf : (diskMachine kernelStart 1).priv.urvbBuf = kernelStart := by decide +kernel
  have hguest : (diskMachine kernelStart 1).guestRam kernelStart = some 0x200000 := by
    decide +kernel
  have hg := diskMachine_buffer hsatp hbuf (by decide) hguest
  have hshown : ∀ j < 512,
      (mapConf smallHost (diskMachine kernelStart 1)).writable
        ((diskMachine kernelStart 1).priv.urvbBuf+BitVec.ofNat 64 j) = true ∧
      (mapConf smallHost (diskMachine kernelStart 1)).hostRam
        ((diskMachine kernelStart 1).priv.urvbBuf+BitVec.ofNat 64 j) = some (0x200000+j) := by
    decide +kernel
  have hiff := (block_transfer_iff hrun hsatp hf (by decide) hin hg).1 (by decide)
  exact ⟨hrun,hiff.mpr hshown⟩

/-- A page that the guest's tables map, for reading and writing in U-mode. -/
def diskPage : Word := 0x80202000

/-- A `READ` into a page that has not been touched since the last flush is lost, and
the guest goes on behind the store. -/
theorem read_lost : ∃ m',
    Run Step (boot (smallData storeKernel)) (diskEvents diskPage 1) (diskMachine diskPage 1) ∧
    StoreFault smallHost (diskMachine diskPage 1) storePage ⟨urvirtBlock,0x4100017⟩ 1 ∧
    BlockInside (diskMachine diskPage 1) ∧
    (diskMachine diskPage 1).walk diskPage = .leaf ⟨0x80300000,0x200c00d7⟩ ∧
    (∀ j < 512, (diskMachine diskPage 1).guestRam
      ((diskMachine diskPage 1).priv.urvbBuf+BitVec.ofNat 64 j) = some (0x300000+j)) ∧
    handler smallHost (.sigsegv storePage) (diskMachine diskPage 1) = .ok m' ∧
    m'.pc = kernelStart+20 ∧ (diskMachine diskPage 1).block.byte 0 = 0x73 ∧ m'.ram 0x300000 = 0 ∧
    ¬Completes smallHost storePage (BlockRead fun j => 0x300000+j) (diskMachine diskPage 1) := by
  have hreplays : Replays storeKernel (diskEvents diskPage 1++[diskSignal]) := by decide +kernel
  have hf := diskMachine_storeFault hreplays.left (by decide +kernel) (by decide +kernel)
    (by decide +kernel)
  have hin : BlockInside (diskMachine diskPage 1) :=
    diskMachine_inside (by decide +kernel) (by decide +kernel)
  have hguest : (diskMachine diskPage 1).guestRam diskPage = some 0x300000 := by decide +kernel
  have hg := diskMachine_buffer (by decide +kernel) (by decide +kernel) (by decide) hguest
  have hhandler := disk_handler hreplays
  have hblock : (diskMachine diskPage 1).block.byte 0 = 0x73 := by decide +kernel
  have hid : (diskMachine diskPage 1).priv.urvbBlockId = 0#64 := by decide +kernel
  have hram : (smallAfter storeKernel (diskEvents diskPage 1++[diskSignal])).ram 0x300000 = 0 := by
    decide +kernel
  have hrun : Run Step (boot (smallData storeKernel)) (diskEvents diskPage 1)
      (diskMachine diskPage 1) := small_run hreplays.left
  have hwalk : (diskMachine diskPage 1).walk diskPage = .leaf ⟨0x80300000,0x200c00d7⟩ := by
    decide +kernel
  have hpc : (smallAfter storeKernel (diskEvents diskPage 1++[diskSignal])).pc =
      kernelStart+20 := by decide +kernel
  have hlost : (smallAfter storeKernel (diskEvents diskPage 1++[diskSignal])).ram 0x300000 ≠
      (diskMachine diskPage 1).block.byte
        (512*(diskMachine diskPage 1).priv.urvbBlockId.toNat) := by
    rw [hid,BitVec.toNat_zero,Nat.mul_zero,hram,hblock]
    decide
  have hnot : ¬Completes smallHost storePage (BlockRead fun j => 0x300000+j)
      (diskMachine diskPage 1) :=
    not_completes_read (g:=fun j => 0x300000+j) hhandler (Nat.add_zero _) hlost
  exact ⟨smallAfter storeKernel (diskEvents diskPage 1++[diskSignal]),hrun,hf,hin,hwalk,hg,
    hhandler,hpc,hblock,hram,hnot⟩

end Urvirt
