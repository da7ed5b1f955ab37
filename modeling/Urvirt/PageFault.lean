import Urvirt.PageWalker

/-!
# Page faults and the block device

The second half of `urvirt-stub/riscv-priv.c`: `handle_page_fault` maps the page,
delivers the fault to the guest or emulates a store to the block device. Block
transfers go through the host address space and stop early where the buffer is not
accessible.
-/

namespace Urvirt

def urvirtBlock : Word := 0x10400000
def urvirtBlockCommand : Word := 0
def urvirtBlockBlockId : Word := 8
def urvirtBlockBuf : Word := 16
def urvirtBlockCmdRead : Word := 1
def urvirtBlockCmdWrite : Word := 2
def urvirtBlockSize : Word := 512

/-- How many of the first `n` indices satisfy `p` before one does not. -/
def leading (p : ℕ → Bool) (n : ℕ) : ℕ := ((List.range n).takeWhile p).length

/-- How much a transfer of `n` bytes copies when `p` says which bytes are accessible. -/
def transferred (env : Host) (p : ℕ → Bool) (n : ℕ) : ℕ :=
  if leading p n = n then n else min env.shortCount (leading p n)

def Machine.writable (m : Machine) (a : Word) : Bool :=
  match m.map (pageOf a) with
  | none => false
  | some page => page.prot.write

def storeByte (m : Machine) (a : Word) (v : BitVec 8) : Except Halt Machine :=
  match m.map (pageOf a) with
  | none => .ok m
  | some page =>
    match page.back with
    | .ram off => .ok { m with ram := Function.update m.ram (off.toNat+a.toNat%4096) v }
    | _ => .error .clobbered

def storeBytes (m : Machine) (buf : Word) (data : ℕ → BitVec 8) : ℕ → Except Halt Machine
  | 0 => .ok m
  | n+1 => do
    let m ← storeBytes m buf data n
    storeByte m (buf+BitVec.ofNat 64 n) (data n)

/-- `pread64(BLOCK_FD, buf, count, offset)`; the offset is signed. -/
def sPread64 (env : Host) (m : Machine) (buf count offset : Word) : Except Halt Machine :=
  if offset.msb then .ok m
  else
    let avail := min count.toNat (m.block.size-offset.toNat)
    let n := transferred env (fun i => m.writable (buf+BitVec.ofNat 64 i)) avail
    storeBytes m buf (fun i => m.block.byte (offset.toNat+i)) n

/-- `pwrite64(BLOCK_FD, buf, count, offset)`; writing past the end extends the image. -/
def sPwrite64 (env : Host) (m : Machine) (buf count offset : Word) : Machine :=
  if offset.msb then m
  else
    let n := transferred env (fun i => (m.hostByte env (buf+BitVec.ofNat 64 i)).isSome) count.toNat
    { m with
      block :=
        { size := if n = 0 then m.block.size else max m.block.size (offset.toNat+n)
          byte := fun i =>
            if offset.toNat ≤ i ∧ i < offset.toNat+n then
              (m.hostByte env (buf+BitVec.ofNat 64 (i-offset.toNat))).getD 0
            else m.block.byte i } }

/-- The result of `decode_sd`; `none` where the function ends without a `return`.
The length test `(*pc) & 0b11 == 0b11` is a test of bit 0. -/
def decodeSd (env : Host) (m : Machine) (pc : Word) : Except Halt (Option ℤ) := do
  let c ← deref8 env m pc
  if c &&& 1 ≠ 0 then
    let instr ← deref32 env m pc
    if insOpcode instr = opcodeStore then
      if insFunct3 instr = 0b011 then .ok (some (insRs2 instr).toNat) else .ok (some (-1))
    else .ok none
  else
    let instr ← deref16 env m pc
    let op := instr &&& 0b11
    let funct3 := instr >>> 13
    if op = 0b00 ∧ funct3 = 0b111 then .ok (some (((instr >>> 2) &&& 0b111) ||| 8).toNat)
    else if op = 0b10 ∧ funct3 = 0b011 then .ok (some ((instr >>> 2) &&& 0b11111).toNat)
    else .ok (some (-1))

/-- `none` when the instruction is not a doubleword store. -/
def getStoreData (env : Host) (m : Machine) : Except Halt (Option Word) := do
  match ← decodeSd env m m.pc with
  | none => .ok env.strayStore
  | some rs2 => if 0 ≤ rs2 then .ok (some (m.regs (Fin.ofNat 32 rs2.toNat))) else .ok none

/-- The pc moves over the store; again only bit 0 of the instruction is tested. -/
def skipStore (env : Host) (m : Machine) : Except Halt Machine := do
  let c ← deref8 env m m.pc
  .ok (m.setPc (m.pc+(if c &&& 1 ≠ 0 then 4 else 2)))

def blockCommand (env : Host) (m : Machine) (data : Word) : Except Halt Machine :=
  if data = urvirtBlockCmdRead then
    sPread64 env m m.priv.urvbBuf urvirtBlockSize (urvirtBlockSize*m.priv.urvbBlockId)
  else if data = urvirtBlockCmdWrite then
    .ok (sPwrite64 env m m.priv.urvbBuf urvirtBlockSize (urvirtBlockSize*m.priv.urvbBlockId))
  else .error .blockCommand

def deviceStore (env : Host) (m : Machine) (pa data : Word) : Except Halt Machine :=
  if pa = urvirtBlock+urvirtBlockCommand then do
    let m ← blockCommand env m data
    skipStore env m
  else if pa = urvirtBlock+urvirtBlockBlockId then
    skipStore env { m with priv := { m.priv with urvbBlockId := data } }
  else if pa = urvirtBlock+urvirtBlockBuf then
    skipStore env { m with priv := { m.priv with urvbBuf := data } }
  else do
    let _ ← decodeSd env m m.pc
    .error .cannotHandleAccess

/-- Accesses outside RAM: only stores to the block device are emulated. -/
def deviceAccess (env : Host) (m : Machine) (scause pa : Word) : Except Halt Machine :=
  if scause = scauseStorePf then do
    match ← getStoreData env m with
    | none => .error .mmioStoreData
    | some data => deviceStore env m pa data
  else do
    let _ ← decodeSd env m m.pc
    .error .cannotHandleAccess

def ptePermits (scause pte : Word) : Prop :=
  ¬((scause = scauseInstrPf ∧ pteHas pte pteX = false) ∨
    (scause = scauseLoadPf ∧ pteHas pte pteR = false) ∨
    (scause = scauseStorePf ∧ pteHas pte pteW = false))

instance (scause pte : Word) : Decidable (ptePermits scause pte) :=
  inferInstanceAs (Decidable (¬_))

def leafPage (pte : Word) : HostPage :=
  ⟨.ram ((getPtePpn pte <<< 12)-ramStart),
    ⟨pteHas pte pteR,pteHas pte pteW,pteHas pte pteX⟩⟩

def ramAccess (m : Machine) (scause stval pte : Word) : Except Halt Machine :=
  if ptePermits scause pte then
    match sMmapNoreplace m.map (stval &&& ~~~0xfff) (leafPage pte) with
    | none => .error .mmapFailed
    | some map => .ok { m with map := map }
  else if m.priv.privMode = privS then .error .deniedInSMode
  else .ok (enterTrap m scause stval)

def handlePageFault (env : Host) (m : Machine) (scause stval : Word) : Except Halt Machine := do
  let (m,found) ← lookupPa env m stval
  match found with
  | none => .ok (enterTrap m scause stval)
  | some l =>
    if l.pte = 0 then .error .translationOff
    else if inRam l.pa then ramAccess m scause stval l.pte
    else deviceAccess env m scause l.pa

theorem handlePageFault_fault {env : Host} {m : Machine} {stval : Word} (scause : Word)
    (hfree : AddressSpace.Free m.map env.ramPage (pages ramSize)) (hw : m.walk stval = .fault) :
    handlePageFault env m scause stval = .ok (enterTrap m scause stval) := by
  have hwin : ramWindow env m.map = m.map := AddressSpace.unmapRange_mapRange hfree
  simp [handlePageFault,lookupPa,hw,hwin,bind,Except.bind]

theorem handlePageFault_leaf {env : Host} {m : Machine} {stval : Word} {l : Leaf} (scause : Word)
    (hfree : AddressSpace.Free m.map env.ramPage (pages ramSize)) (hw : m.walk stval = .leaf l)
    (hz : l.pte ≠ 0) : handlePageFault env m scause stval =
      if inRam l.pa then ramAccess m scause stval l.pte else deviceAccess env m scause l.pa := by
  have hwin : ramWindow env m.map = m.map := AddressSpace.unmapRange_mapRange hfree
  simp only [handlePageFault,lookupPa,hw,hwin,bind,Except.bind]
  exact if_neg hz

theorem storeBytes_ok {buf : Word} {data : ℕ → BitVec 8} {n : ℕ} {m m' : Machine}
    (h : storeBytes m buf data n = .ok m') : ∃ ram, m' = { m with ram := ram } := by
  induction n generalizing m' with
  | zero => cases h; exact ⟨m.ram,rfl⟩
  | succ n ih =>
    obtain ⟨m₁,h₁,h⟩ := bind_ok.mp h
    obtain ⟨ram,rfl⟩ := ih h₁
    simp only [storeByte] at h
    split at h
    · cases h; exact ⟨ram,rfl⟩
    · split at h
      · cases h; exact ⟨_,rfl⟩
      · cases h

theorem blockCommand_ok {env : Host} {m m' : Machine} {data : Word}
    (h : blockCommand env m data = .ok m') :
    ∃ ram block, m' = { m with ram := ram, block := block } := by
  simp only [blockCommand] at h
  split_ifs at h
  · unfold sPread64 at h
    split_ifs at h
    · cases h; exact ⟨m.ram,m.block,rfl⟩
    · obtain ⟨ram,rfl⟩ := storeBytes_ok h
      exact ⟨ram,m.block,rfl⟩
  · cases h
    unfold sPwrite64
    split_ifs
    · exact ⟨m.ram,m.block,rfl⟩
    · exact ⟨m.ram,_,rfl⟩

theorem skipStore_ok {env : Host} {m m' : Machine} (h : skipStore env m = .ok m') :
    ∃ pc, m' = m.setPc pc := by
  obtain ⟨c,-,h⟩ := bind_ok.mp h
  cases h
  exact ⟨_,rfl⟩

/-- An emulated device store changes the device, guest memory and the pc only. -/
def DeviceFrame (m m' : Machine) : Prop :=
  ∃ blockId buf ram block pc,
    m' = { m with
      priv := { m.priv with urvbBlockId := blockId, urvbBuf := buf }
      ram := ram
      block := block }.setPc pc

theorem deviceStore_frame {env : Host} {m m' : Machine} {pa data : Word}
    (h : deviceStore env m pa data = .ok m') : DeviceFrame m m' := by
  simp only [deviceStore] at h
  split_ifs at h
  · obtain ⟨m₁,h₁,h⟩ := bind_ok.mp h
    obtain ⟨ram,block,rfl⟩ := blockCommand_ok h₁
    obtain ⟨pc,rfl⟩ := skipStore_ok h
    exact ⟨m.priv.urvbBlockId,m.priv.urvbBuf,ram,block,pc,rfl⟩
  · obtain ⟨pc,rfl⟩ := skipStore_ok h
    exact ⟨data,m.priv.urvbBuf,m.ram,m.block,pc,rfl⟩
  · obtain ⟨pc,rfl⟩ := skipStore_ok h
    exact ⟨m.priv.urvbBlockId,data,m.ram,m.block,pc,rfl⟩
  · obtain ⟨_,-,h⟩ := bind_ok.mp h
    cases h

theorem deviceAccess_frame {env : Host} {m m' : Machine} {scause pa : Word}
    (h : deviceAccess env m scause pa = .ok m') : scause = scauseStorePf ∧ DeviceFrame m m' := by
  simp only [deviceAccess] at h
  split_ifs at h with hs
  · obtain ⟨data,-,h⟩ := bind_ok.mp h
    cases data with
    | none => cases h
    | some data => exact ⟨hs,deviceStore_frame h⟩
  · obtain ⟨_,-,h⟩ := bind_ok.mp h
    cases h

inductive FaultEffect (env : Host) (m : Machine) (scause stval : Word) : Machine → Prop
  | noLeaf : m.walk stval = .fault → FaultEffect env m scause stval (enterTrap m scause stval)
  | denied {l : Leaf} : m.walk stval = .leaf l → l.pte ≠ 0 → inRam l.pa →
      ¬ptePermits scause l.pte → m.priv.privMode ≠ privS →
      FaultEffect env m scause stval (enterTrap m scause stval)
  | mapped {l : Leaf} {map : HostMap} : m.walk stval = .leaf l → l.pte ≠ 0 → inRam l.pa →
      ptePermits scause l.pte →
      sMmapNoreplace m.map (stval &&& ~~~0xfff) (leafPage l.pte) = some map →
      FaultEffect env m scause stval { m with map := map }
  | device {l : Leaf} {m' : Machine} : m.walk stval = .leaf l → l.pte ≠ 0 → ¬inRam l.pa →
      scause = scauseStorePf → deviceAccess env m scause l.pa = .ok m' → DeviceFrame m m' →
      FaultEffect env m scause stval m'

theorem handlePageFault_effect {env : Host} {m m' : Machine} {scause stval : Word}
    (hfree : AddressSpace.Free m.map env.ramPage (pages ramSize))
    (h : handlePageFault env m scause stval = .ok m') : FaultEffect env m scause stval m' := by
  cases hw : m.walk stval with
  | halt why => simp [handlePageFault,lookupPa,hw,bind,Except.bind] at h
  | fault =>
    rw [handlePageFault_fault scause hfree hw] at h
    cases h
    exact .noLeaf hw
  | leaf l =>
    by_cases hz : l.pte = 0
    · simp [handlePageFault,lookupPa,hw,hz,bind,Except.bind] at h
    · rw [handlePageFault_leaf scause hfree hw hz] at h
      split_ifs at h with hram
      · simp only [ramAccess] at h
        split_ifs at h with hp hs
        · cases hm : sMmapNoreplace m.map (stval &&& ~~~0xfff) (leafPage l.pte) with
          | none => rw [hm] at h; cases h
          | some map => rw [hm] at h; cases h; exact .mapped hw hz hram hp hm
        · cases h; exact .denied hw hz hram hp hs
      · obtain ⟨hs,hframe⟩ := deviceAccess_frame h
        exact .device hw hz hram hs h hframe

end Urvirt
