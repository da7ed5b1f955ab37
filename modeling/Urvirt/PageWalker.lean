import Urvirt.RiscvPriv

/-!
# The page-table walker

`lookup_pa_in_ram` and `lookup_pa` of `urvirt-stub/riscv-priv.c`. The walker also
reports the offsets it loads from, which the source leaves implicit.
-/

namespace Urvirt

/-- `*(uint64_t *)(ram + off)`. -/
def loadEntry (ram : Ram) (off : Word) : Word :=
  ram (off.toNat+7) ++ ram (off.toNat+6) ++ ram (off.toNat+5) ++ ram (off.toNat+4) ++
    ram (off.toNat+3) ++ ram (off.toNat+2) ++ ram (off.toNat+1) ++ ram off.toNat

def pteHas (entry flag : Word) : Bool := getPteFlags entry &&& flag ≠ 0

/-- What `*pa` and `*pte` hold after a successful walk. -/
structure Leaf where
  pa : Word
  pte : Word
  deriving DecidableEq

inductive WalkResult
  | halt (why : Halt)
  | fault
  | leaf (l : Leaf)
  deriving DecidableEq

structure Walk where
  loads : List Word
  result : WalkResult

def inRam (pa : Word) : Prop := ramStart ≤ pa ∧ pa < ramStart+ramSize

instance (pa : Word) : Decidable (inRam pa) := inferInstanceAs (Decidable (_ ∧ _))

inductive WalkStep
  | done (r : WalkResult)
  | next (ptAddr : Word)
  deriving DecidableEq

/-- The body of the loop once the entry is loaded; `inner` is `level < 2`. -/
def walkEntry (va entry : Word) (inner : Bool) : WalkStep :=
  if pteHas entry pteV = false then .done .fault
  else if pteHas entry pteR = false ∧ pteHas entry pteW = true then .done .fault
  else if inner then
    if pteHas entry pteR ∨ pteHas entry pteW ∨ pteHas entry pteX then .done (.halt .largePage)
    else .next (getPtePpn entry <<< 12)
  else if pteHas entry pteW = true ∧ pteHas entry pteR = false then .done .fault
  else .done (.leaf ⟨(getPtePpn entry <<< 12) ||| getVaOff va,entry⟩)

def entryOff (ptAddr vpn : Word) : Word := ptAddr-ramStart+vpn*8

/-- The loop of the walker over the VPN fields it still has to use. -/
def walkLevels (ram : Ram) (va : Word) : List Word → Word → Walk
  | [], _ => ⟨[],.fault⟩
  | vpn :: rest, ptAddr =>
    if ptAddr < ramStart ∨ ramStart+ramSize ≤ ptAddr then ⟨[],.halt .ptAddressOutOfRange⟩
    else match walkEntry va (loadEntry ram (entryOff ptAddr vpn)) !rest.isEmpty with
      | .done r => ⟨[entryOff ptAddr vpn],r⟩
      | .next ptAddr' =>
        let w := walkLevels ram va rest ptAddr'
        ⟨entryOff ptAddr vpn :: w.loads,w.result⟩

/-- `va_signed == (va_signed << (63 - 39) >> (63 - 39))`, an arithmetic shift. -/
def signExtended (va : Word) : Prop := va = (va <<< (63-39)).sshiftRight (63-39)

instance (va : Word) : Decidable (signExtended va) := inferInstanceAs (Decidable (_ = _))

/-- A zero `pte` marks bare mode. -/
def lookupPaInRam (satp : Word) (ram : Ram) (va : Word) : Walk :=
  if getSatpMode satp = satpModeBare then ⟨[],.leaf ⟨va,0⟩⟩
  else if ¬signExtended va then ⟨[],.fault⟩
  else walkLevels ram va [getVaPpn0 va,getVaPpn1 va,getVaPpn2 va] (getSatpPpn satp <<< 12)

def Machine.walk (m : Machine) (va : Word) : WalkResult := (lookupPaInRam m.priv.satp m.ram va).result

/-- The address space after RAM was mapped at a place of Linux's choice and unmapped again. -/
def ramWindow (env : Host) (map : HostMap) : HostMap :=
  AddressSpace.unmapRange (AddressSpace.mapRange map env.ramPage (pages ramSize) ramPage)
    env.ramPage (pages ramSize)

def lookupPa (env : Host) (m : Machine) (va : Word) : Except Halt (Machine × Option Leaf) :=
  match m.walk va with
  | .halt why => .error why
  | .fault => .ok ({ m with map := ramWindow env m.map },none)
  | .leaf l => .ok ({ m with map := ramWindow env m.map },some l)

theorem walkEntry_leaf {va entry : Word} {inner : Bool} {l : Leaf}
    (h : walkEntry va entry inner = .done (.leaf l)) :
    pteHas l.pte pteV = true ∧ l.pa = (getPtePpn l.pte <<< 12) ||| getVaOff va := by
  simp only [walkEntry] at h
  split_ifs at h with hv
  all_goals simp only [WalkStep.done.injEq,WalkResult.leaf.injEq,reduceCtorEq] at h
  subst h
  exact ⟨by simpa using hv,rfl⟩

/-- A leaf of a table walk is valid, so it is never mistaken for bare mode. -/
theorem walkLevels_leaf {ram : Ram} {va ptAddr : Word} {vpns : List Word} {l : Leaf}
    (h : (walkLevels ram va vpns ptAddr).result = .leaf l) :
    pteHas l.pte pteV = true ∧ l.pa = (getPtePpn l.pte <<< 12) ||| getVaOff va := by
  induction vpns generalizing ptAddr with
  | nil => cases h
  | cons vpn rest ih =>
    rw [walkLevels] at h
    split_ifs at h
    cases he : walkEntry va (loadEntry ram (entryOff ptAddr vpn)) !rest.isEmpty with
    | done r => rw [he] at h; cases h; exact walkEntry_leaf he
    | next ptAddr' => rw [he] at h; exact ih h

theorem ne_zero_of_pteHas {pte : Word} (h : pteHas pte pteV = true) : pte ≠ 0 := by
  rintro rfl
  exact absurd h (by decide)

theorem leaf_unique {m : Machine} {va : Word} {l l' : Leaf} (h : m.walk va = .leaf l)
    (h' : m.walk va = .leaf l') : l' = l := by
  rw [h] at h'
  exact (WalkResult.leaf.inj h').symm

theorem walk_leaf_bare {m : Machine} {va : Word} {l : Leaf} (h : m.walk va = .leaf l) :
    l.pte = 0 ↔ getSatpMode m.priv.satp = satpModeBare := by
  simp only [Machine.walk,lookupPaInRam] at h
  split_ifs at h with hb
  · cases h; exact ⟨fun _ => hb,fun _ => rfl⟩
  · exact ⟨fun h0 => absurd h0 (ne_zero_of_pteHas (walkLevels_leaf h).1),fun h0 => absurd h0 hb⟩

end Urvirt
