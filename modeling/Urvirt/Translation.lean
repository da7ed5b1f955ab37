import Urvirt.PageTable
import Urvirt.Replay

/-!
# The page-table walker against the translation algorithm

The walker of `lookup_pa_in_ram` is compared with the walk of the specification
over the tables in RAM. It ends as the specification does, except that it stops at
tables outside RAM and at large pages, and takes a pointer in a table of the last
level for a leaf.
-/

namespace Urvirt

open Bitfield PageTable

theorem pteHas_bit (e : Word) {k : ℕ} (hk : k < 8) : pteHas e (1#64 <<< k) = e.getLsbD k := by
  have hget : (getPteFlags e).getLsbD k = e.getLsbD k := by
    rw [getPteFlags,getLsbD_get (by decide)]
    simp [hk]
  have hne : (1#64 <<< k) ≠ 0#64 := by
    intro h
    have hb := congrArg (BitVec.getLsbD · k) h
    simp [Nat.lt_trans hk (by decide : 8 < 64)] at hb
  rw [pteHas,← BitVec.twoPow_eq,BitVec.and_twoPow,hget]
  cases e.getLsbD k with
  | false => simp
  | true => simpa [BitVec.twoPow_eq] using hne

@[simp] theorem pteHas_v (e : Word) : pteHas e pteV = Entry.v e := pteHas_bit e (by decide)
@[simp] theorem pteHas_r (e : Word) : pteHas e pteR = Entry.r e := pteHas_bit e (by decide)
@[simp] theorem pteHas_w (e : Word) : pteHas e pteW = Entry.w e := pteHas_bit e (by decide)
@[simp] theorem pteHas_x (e : Word) : pteHas e pteX = Entry.x e := pteHas_bit e (by decide)

/-- The shifts of the walker lose nothing: a page number with an offset in the page
fits a word. -/
theorem page_shift {x : Word} (va : Word) (hx : x.toNat < 2^44) :
    (x <<< 12).toNat = x.toNat*2^12 ∧
      ((x <<< 12) ||| getVaOff va).toNat = x.toNat*2^12+va.toNat%2^12 := by
  have hoff : (getVaOff va).toNat = va.toNat%2^12 := by
    rw [getVaOff,toNat_get (by decide),pow_zero,Nat.div_one]
  have hlt : va.toNat%2^12 < 2^12 := Nat.mod_lt _ (by decide)
  have hshift : (x <<< 12).toNat = x.toNat*2^12 := by
    rw [BitVec.toNat_shiftLeft,Nat.shiftLeft_eq]
    exact Nat.mod_eq_of_lt (by omega)
  refine ⟨hshift,?_⟩
  rw [BitVec.toNat_or,hshift,hoff,Nat.mul_comm,Nat.two_pow_add_eq_or_of_lt hlt]

theorem toNat_ppn_lt (start : ℕ) (data : Word) : (Bitfield.get start 44 data).toNat < 2^44 := by
  rw [toNat_get (by decide)]
  exact Nat.mod_lt _ (by decide)

theorem toNat_ptePpn (e : Word) : (getPtePpn e <<< 12).toNat = Entry.ppn e*2^12 := by
  have hget : (getPtePpn e).toNat = Entry.ppn e := toNat_get (by decide) e
  rw [← hget]
  exact (page_shift 0 (toNat_ppn_lt 10 e)).1

def satpPpn (satp : Word) : ℕ := satp.toNat%2^44

theorem toNat_satpPpn (satp : Word) : (getSatpPpn satp <<< 12).toNat = satpPpn satp*2^12 := by
  have hget : (getSatpPpn satp).toNat = satpPpn satp := by
    rw [getSatpPpn,toNat_get (by decide),pow_zero,Nat.div_one,satpPpn]
  rw [← hget]
  exact (page_shift 0 (toNat_ppn_lt 0 satp)).1

theorem toNat_pa (va e : Word) :
    ((getPtePpn e <<< 12) ||| getVaOff va).toNat = physical va e := by
  have hget : (getPtePpn e).toNat = Entry.ppn e := toNat_get (by decide) e
  rw [physical,offset,← hget]
  exact (page_shift va (toNat_ppn_lt 10 e)).2

/-- Physical memory as the specification sees it: the doublewords of RAM. -/
def ramMem (ram : Ram) (p : ℕ) : Option Entry :=
  if ramStart.toNat ≤ p ∧ p < ramStart.toNat+ramSize.toNat then
    some (loadEntry ram (BitVec.ofNat 64 (p-ramStart.toNat)))
  else none

/-- The walk of the specification over the tables in RAM. -/
def tableWalk (satp : Word) (ram : Ram) (va : Word) : Outcome :=
  walk (ramMem ram) va 2 (satpPpn satp*2^12)

/-- What the walker makes of the outcome of the specification. -/
def emulated (va : Word) : Outcome → WalkResult
  | .outside => .halt .ptAddressOutOfRange
  | .invalid => .fault
  | .pointer e => .leaf ⟨(getPtePpn e <<< 12) ||| getVaOff va,e⟩
  | .leaf 0 e => .leaf ⟨(getPtePpn e <<< 12) ||| getVaOff va,e⟩
  | .leaf (_+1) _ => .halt .largePage

theorem emulated_fault {va : Word} {o : Outcome} : emulated va o = .fault ↔ o = .invalid := by
  cases o with
  | leaf level e => cases level <;> simp [emulated]
  | _ => simp [emulated]

theorem emulated_halt {va : Word} {o : Outcome} {why : Halt} (h : emulated va o = .halt why) :
    (o = .outside ∧ why = .ptAddressOutOfRange) ∨
      ∃ level e, o = .leaf (level+1) e ∧ why = .largePage := by
  cases o with
  | outside => cases h; exact .inl ⟨rfl,rfl⟩
  | invalid => cases h
  | pointer e => cases h
  | leaf level e =>
    cases level with
    | zero => cases h
    | succ level => cases h; exact .inr ⟨level,e,rfl,rfl⟩

theorem emulated_leaf {va : Word} {o : Outcome} {l : Leaf} (h : emulated va o = .leaf l) :
    o = .leaf 0 l.pte ∨ o = .pointer l.pte := by
  cases o with
  | outside => cases h
  | invalid => cases h
  | pointer e => cases h; exact .inr rfl
  | leaf level e =>
    cases level with
    | zero => cases h; exact .inl rfl
    | succ level => cases h

/-- The fields of the address that the levels from `level` down use, in the
walker's order. -/
def vpnFields (va : Word) : ℕ → List Word
  | 0 => [Bitfield.get 12 9 va]
  | level+1 => Bitfield.get (12+9*(level+1)) 9 va :: vpnFields va level

theorem vpnFields_two (va : Word) : vpnFields va 2 = [getVaPpn0 va,getVaPpn1 va,getVaPpn2 va] := rfl

theorem vpnFields_isEmpty (va : Word) (level : ℕ) : (vpnFields va level).isEmpty = false := by
  cases level <;> rfl

section Simulation

variable (ram : Ram) (va : Word)

theorem walkEntry_inner (e : Word) : walkEntry va e true =
    if Entry.invalid e then .done .fault
    else if Entry.isLeaf e then .done (.halt .largePage) else .next (getPtePpn e <<< 12) := by
  by_cases hv : Entry.v e <;> by_cases hr : Entry.r e <;> by_cases hw : Entry.w e <;>
    simp [walkEntry,Entry.invalid,Entry.isLeaf,hv,hr,hw]

theorem walkEntry_last (e : Word) : walkEntry va e false =
    if Entry.invalid e then .done .fault
    else .done (.leaf ⟨(getPtePpn e <<< 12) ||| getVaOff va,e⟩) := by
  by_cases hv : Entry.v e <;> by_cases hr : Entry.r e <;> by_cases hw : Entry.w e <;>
    simp [walkEntry,Entry.invalid,hv,hr,hw]

def TableInRam (ptAddr : Word) : Prop := ¬(ptAddr < ramStart ∨ ramStart+ramSize ≤ ptAddr)

theorem tableInRam_iff (ptAddr : Word) : TableInRam ptAddr ↔
    ramStart.toNat ≤ ptAddr.toNat ∧ ptAddr.toNat < ramStart.toNat+ramSize.toNat := by
  have hs : ramStart.toNat = 0x80000000 := rfl
  have hz : ramSize.toNat = 0x1000000 := rfl
  have he : (ramStart+ramSize).toNat = 0x81000000 := rfl
  simp only [TableInRam,BitVec.lt_def,BitVec.le_def,hs,hz,he]
  omega

theorem toNat_entryOff {ptAddr : Word} (level : ℕ) (hin : TableInRam ptAddr) :
    (entryOff ptAddr (Bitfield.get (12+9*level) 9 va)).toNat =
      ptAddr.toNat-ramStart.toNat+8*vpn va level := by
  have hv : (Bitfield.get (12+9*level) 9 va).toNat = vpn va level := toNat_get (by decide) va
  have hlt : vpn va level < 512 := Nat.mod_lt _ (by decide)
  have hs : ramStart.toNat = 0x80000000 := rfl
  have hz : ramSize.toNat = 0x1000000 := rfl
  have h8 : (8 : Word).toNat = 8 := rfl
  obtain ⟨hlow,hhigh⟩ := (tableInRam_iff ptAddr).mp hin
  simp only [hs,hz] at hlow hhigh
  simp only [entryOff,BitVec.toNat_add,BitVec.toNat_sub,BitVec.toNat_mul,hs,hv,h8]
  omega

theorem ramMem_entry {ptAddr : Word} (level : ℕ) (halign : ptAddr.toNat%2^12 = 0) :
    ramMem ram (ptAddr.toNat+8*vpn va level) =
      if ptAddr < ramStart ∨ ramStart+ramSize ≤ ptAddr then none
      else some (loadEntry ram (entryOff ptAddr (Bitfield.get (12+9*level) 9 va))) := by
  have hlt : vpn va level < 512 := Nat.mod_lt _ (by decide)
  have hs : ramStart.toNat = 0x80000000 := rfl
  have hz : ramSize.toNat = 0x1000000 := rfl
  by_cases hout : ptAddr < ramStart ∨ ramStart+ramSize ≤ ptAddr
  · have hn := mt (tableInRam_iff ptAddr).mpr (not_not.mpr hout)
    rw [if_pos hout,ramMem,if_neg (by omega)]
  · have hin := (tableInRam_iff ptAddr).mp hout
    have hoff : BitVec.ofNat 64 (ptAddr.toNat+8*vpn va level-ramStart.toNat) =
        entryOff ptAddr (Bitfield.get (12+9*level) 9 va) := by
      apply BitVec.eq_of_toNat_eq
      rw [toNat_entryOff va level hout,BitVec.toNat_ofNat]
      omega
    rw [if_neg hout,ramMem,if_pos (by omega),hoff]

theorem next_aligned (e : Word) : (getPtePpn e <<< 12).toNat%2^12 = 0 := by
  rw [toNat_ptePpn]
  exact Nat.mul_mod_left _ _

/-- Level by level, the walker does what the specification does. -/
theorem walkLevels_eq {level : ℕ} {ptAddr : Word} (halign : ptAddr.toNat%2^12 = 0) :
    (walkLevels ram va (vpnFields va level) ptAddr).result =
      emulated va (walk (ramMem ram) va level ptAddr.toNat) := by
  induction level generalizing ptAddr with
  | zero =>
    rw [walk,visit,ramMem_entry ram va 0 halign,vpnFields,walkLevels]
    split_ifs with hout
    · rfl
    · generalize loadEntry ram (entryOff ptAddr (Bitfield.get 12 9 va)) = e
      rw [List.isEmpty_nil,Bool.not_true,walkEntry_last]
      by_cases hv : Entry.invalid e
      · simp [hv,emulated]
      · by_cases hl : Entry.isLeaf e <;> simp [hv,hl,emulated]
  | succ level ih =>
    rw [walk,visit,ramMem_entry ram va (level+1) halign,vpnFields,walkLevels]
    split_ifs with hout
    · rfl
    · generalize loadEntry ram (entryOff ptAddr (Bitfield.get (12+9*(level+1)) 9 va)) = e
      rw [vpnFields_isEmpty,Bool.not_false,walkEntry_inner]
      by_cases hv : Entry.invalid e
      · simp [hv,emulated]
      · by_cases hl : Entry.isLeaf e
        · simp [hv,hl,emulated]
        · have hnext := ih (next_aligned e)
          rw [toNat_ptePpn] at hnext
          simpa [hv,hl] using hnext

theorem entryOff_inRam {ptAddr : Word} (level : ℕ) (halign : ptAddr.toNat%2^12 = 0)
    (hin : TableInRam ptAddr) :
    (entryOff ptAddr (Bitfield.get (12+9*level) 9 va)).toNat%8 = 0 ∧
      (entryOff ptAddr (Bitfield.get (12+9*level) 9 va)).toNat+8 ≤ ramSize.toNat := by
  have hlt : vpn va level < 512 := Nat.mod_lt _ (by decide)
  have hs : ramStart.toNat = 0x80000000 := rfl
  have hz : ramSize.toNat = 0x1000000 := rfl
  have hrange := (tableInRam_iff ptAddr).mp hin
  rw [toNat_entryOff va level hin]
  omega

/-- One load for each level at most, each within RAM. -/
theorem walkLevels_loads {level : ℕ} {ptAddr : Word} (halign : ptAddr.toNat%2^12 = 0) :
    (walkLevels ram va (vpnFields va level) ptAddr).loads.length ≤ level+1 ∧
    ∀ o ∈ (walkLevels ram va (vpnFields va level) ptAddr).loads,
      o.toNat%8 = 0 ∧ o.toNat+8 ≤ ramSize.toNat := by
  induction level generalizing ptAddr with
  | zero =>
    rw [vpnFields,walkLevels,List.isEmpty_nil,Bool.not_true,walkEntry_last]
    split_ifs with hout
    · simp
    · simpa using entryOff_inRam va 0 halign hout
    · simpa using entryOff_inRam va 0 halign hout
  | succ level ih =>
    rw [vpnFields,walkLevels,vpnFields_isEmpty,Bool.not_false,walkEntry_inner]
    split_ifs with hout
    · simp
    · simpa using entryOff_inRam va (level+1) halign hout
    · simpa using entryOff_inRam va (level+1) halign hout
    · obtain ⟨hlen,hall⟩ := ih (next_aligned (loadEntry ram
        (entryOff ptAddr (Bitfield.get (12+9*(level+1)) 9 va))))
      refine ⟨Nat.succ_le_succ hlen,fun o ho => ?_⟩
      rcases List.mem_cons.mp ho with rfl | ho
      · exact entryOff_inRam va (level+1) halign hout
      · exact hall o ho

end Simulation

/-- The sign-extension test lets through the addresses of 40 bits. -/
theorem signExtended_iff (va : Word) : signExtended va ↔ Canonical 40 va := by
  have hbit : ∀ i, i < 64 → ((va <<< (63-39)).sshiftRight (63-39)).getLsbD i =
      if i < 40 then va.getLsbD i else va.getLsbD 39 := by
    intro i hi
    rw [BitVec.getLsbD_sshiftRight,BitVec.msb_eq_getLsbD_last,BitVec.getLsbD_shiftLeft,
      BitVec.getLsbD_shiftLeft]
    by_cases h : i < 40
    · have h₁ : 24+i < 64 := by omega
      simp [h,h₁,hi]
    · have h₁ : ¬24+i < 64 := by omega
      simp [h,h₁,hi]
  constructor
  · intro h i hi h40
    have hi' := hbit i hi
    rw [← h,if_neg (Nat.not_lt.mpr h40)] at hi'
    exact hi'
  · intro h
    apply BitVec.eq_of_getLsbD_eq
    intro i hi
    rw [hbit i hi]
    split_ifs with h40
    · rfl
    · exact h i hi (Nat.le_of_not_lt h40)

theorem root_aligned (satp : Word) : (getSatpPpn satp <<< 12).toNat%2^12 = 0 := by
  rw [toNat_satpPpn]
  exact Nat.mul_mod_left _ _

theorem lookupPaInRam_sv39 {satp : Word} (hsatp : getSatpMode satp = satpModeSv39) (ram : Ram)
    (va : Word) : lookupPaInRam satp ram va =
      if signExtended va then walkLevels ram va (vpnFields va 2) (getSatpPpn satp <<< 12)
      else ⟨[],.fault⟩ := by
  have hbare : getSatpMode satp ≠ satpModeBare := by rw [hsatp]; decide
  rw [lookupPaInRam,if_neg hbare,vpnFields_two]
  by_cases hva : signExtended va
  · rw [if_neg (not_not.mpr hva),if_pos hva]
  · rw [if_pos hva,if_neg hva]

theorem lookupPaInRam_eq {satp : Word} (hsatp : getSatpMode satp = satpModeSv39) (ram : Ram)
    (va : Word) : (lookupPaInRam satp ram va).result =
      if signExtended va then emulated va (tableWalk satp ram va) else .fault := by
  rw [lookupPaInRam_sv39 hsatp]
  split_ifs
  · rw [walkLevels_eq ram va (root_aligned satp),toNat_satpPpn,tableWalk]
  · rfl

theorem canonical_signExtended {va : Word} (h : Canonical 39 va) : signExtended va := by
  rw [signExtended_iff]
  intro i hi h40
  exact (h i hi (by omega)).trans (h 39 (by decide) (by decide)).symm

/-- The walker stops for two reasons only. -/
theorem walk_halt {m : Machine} {va : Word} {why : Halt}
    (hsatp : getSatpMode m.priv.satp = satpModeSv39) (h : m.walk va = .halt why) :
    why = .ptAddressOutOfRange ∨ why = .largePage := by
  rw [Machine.walk,lookupPaInRam_eq hsatp] at h
  split_ifs at h
  obtain ⟨-,rfl⟩ | ⟨_,_,-,rfl⟩ := emulated_halt h
  · exact .inl rfl
  · exact .inr rfl

/-- The walker makes at most three loads, each of a doubleword of RAM, and no address
it computes overflows, whatever the tables hold. -/
theorem walker_reads_ram (ram : Ram) {satp : Word} (va : Word)
    (hsatp : getSatpMode satp = satpModeSv39) :
    (lookupPaInRam satp ram va).loads.length ≤ 3 ∧
    (∀ o ∈ (lookupPaInRam satp ram va).loads, o.toNat%8 = 0 ∧ o.toNat+8 ≤ ramSize.toNat) ∧
    (getSatpPpn satp <<< 12).toNat = (getSatpPpn satp).toNat*2^12 ∧
    (∀ entry, (getPtePpn entry <<< 12).toNat = (getPtePpn entry).toNat*2^12) ∧
    (∀ entry, ((getPtePpn entry <<< 12) ||| getVaOff va).toNat =
      (getPtePpn entry).toNat*2^12+va.toNat%2^12) := by
  have hloads : (lookupPaInRam satp ram va).loads.length ≤ 3 ∧
      ∀ o ∈ (lookupPaInRam satp ram va).loads, o.toNat%8 = 0 ∧ o.toNat+8 ≤ ramSize.toNat := by
    rw [lookupPaInRam_sv39 hsatp]
    split_ifs
    · exact walkLevels_loads ram va (root_aligned satp)
    · simp
  exact ⟨hloads.1,hloads.2,(page_shift va (toNat_ppn_lt 0 satp)).1,
    fun entry => (page_shift va (toNat_ppn_lt 10 entry)).1,
    fun entry => (page_shift va (toNat_ppn_lt 10 entry)).2⟩

/-- Every entry of every table points to the last page of RAM. -/
def lastTable : Ram := fun i =>
  if i%8 = 0 then 0x01 else if i%8 = 1 then 0xfc else if i%8 = 2 then 0x3f else if i%8 = 3 then 0x20
  else 0

/-- The last entry of the last page of RAM is loaded three times. -/
theorem walker_reads_ram_last :
    (lookupPaInRam 0x8000000000080fff lastTable 0xffffffffffffffff).loads =
      [0xfffff8,0xfffff8,0xfffff8] ∧
    ∀ o ∈ (lookupPaInRam 0x8000000000080fff lastTable 0xffffffffffffffff).loads,
      o.toNat%8 = 0 ∧ o.toNat+8 ≤ ramSize.toNat :=
  ⟨by decide +kernel,(walker_reads_ram _ _ (by decide)).2.1⟩

/-- The walker finds every translation to a small page and reports every invalid
entry; it stops only at a table outside RAM or at a large page. -/
theorem lookupPaInRam_refines (ram : Ram) {satp va : Word}
    (hsatp : getSatpMode satp = satpModeSv39) (hva : Canonical 39 va) :
    (∀ e, tableWalk satp ram va = .leaf 0 e → ∃ l, (lookupPaInRam satp ram va).result = .leaf l ∧
      l.pa.toNat = e.ppn*2^12+va.toNat%2^12 ∧ l.pte = e ∧ l.pte ≠ 0) ∧
    (tableWalk satp ram va = .invalid → (lookupPaInRam satp ram va).result = .fault) ∧
    (∀ why, (lookupPaInRam satp ram va).result = .halt why → tableWalk satp ram va = .outside ∨
      ∃ level e, 0 < level ∧ level ≤ 2 ∧ tableWalk satp ram va = .leaf level e) := by
  rw [lookupPaInRam_eq hsatp,if_pos (canonical_signExtended hva)]
  refine ⟨fun e he => ?_,fun hinv => ?_,fun why hhalt => ?_⟩
  · rw [he]
    exact ⟨_,rfl,toNat_pa va e,rfl,Entry.ne_zero (walk_leaf he).1⟩
  · exact emulated_fault.mpr hinv
  · obtain ⟨ho,-⟩ | ⟨level,e,ho,-⟩ := emulated_halt hhalt
    · exact .inl ho
    · exact .inr ⟨level+1,e,Nat.succ_pos level,(walk_leaf ho).2.2,ho⟩

/-- Tables that map the kernel's page with the given leaf, walked from the start of RAM. -/
theorem lookupPaInRam_refines_kernel :
    tableWalk 0x8000000000080000 (sv39Tables 0x200800cf fun _ => 0) kernelStart =
      .leaf 0 0x200800cf ∧
    ∃ l, (lookupPaInRam 0x8000000000080000 (sv39Tables 0x200800cf fun _ => 0) kernelStart).result =
      .leaf l ∧ l.pa.toNat = 0x80200000 ∧ l.pte = 0x200800cf := by
  have hwalk : tableWalk 0x8000000000080000 (sv39Tables 0x200800cf fun _ => 0) kernelStart =
      .leaf 0 0x200800cf := by decide +kernel
  obtain ⟨l,hl,hpa,hpte,-⟩ :=
    (lookupPaInRam_refines (sv39Tables 0x200800cf fun _ => 0) (by decide) (by decide +kernel)).1 _ hwalk
  exact ⟨hwalk,l,hl,hpa,hpte⟩

def DeliversFault (m : Machine) (va : Word) : Prop :=
  m.walk va = .fault ∧ ∀ env scause, AddressSpace.Free m.map env.ramPage (pages ramSize) →
    handlePageFault env m scause va = .ok (enterTrap m scause va)

theorem deliversFault_iff {m : Machine} {va : Word} : DeliversFault m va ↔ m.walk va = .fault :=
  ⟨fun h => h.1,fun h => ⟨h,fun _ scause hfree => handlePageFault_fault scause hfree h⟩⟩

/-- A successful walk reports a valid leaf, and a pointer in a table of the last
level is a page fault. -/
def EndsInLeaf (m : Machine) (va : Word) : Prop :=
  (∀ l, m.walk va = .leaf l → Entry.v l.pte = true ∧
    (Entry.r l.pte = true ∨ Entry.x l.pte = true) ∧
    ¬(Entry.w l.pte = true ∧ Entry.r l.pte = false)) ∧
  (∀ e, tableWalk m.priv.satp m.ram va = .pointer e → DeliversFault m va)

theorem Machine.walk_eq {m : Machine} {va : Word} (hsatp : getSatpMode m.priv.satp = satpModeSv39)
    (hva : Canonical 39 va) : m.walk va = emulated va (tableWalk m.priv.satp m.ram va) := by
  rw [Machine.walk,lookupPaInRam_eq hsatp,if_pos (canonical_signExtended hva)]

theorem endsInLeaf_iff {m : Machine} {va : Word} (hsatp : getSatpMode m.priv.satp = satpModeSv39)
    (hva : Canonical 39 va) :
    EndsInLeaf m va ↔ ∀ e, tableWalk m.priv.satp m.ram va ≠ .pointer e := by
  have hw := Machine.walk_eq hsatp hva
  constructor
  · intro h e he
    have hfault := (h.2 e he).1
    rw [hw,he] at hfault
    cases hfault
  · intro h
    refine ⟨fun l hl => ?_,fun e he => absurd he (h e)⟩
    rw [hw] at hl
    have ho := (emulated_leaf hl).resolve_right (h l.pte)
    obtain ⟨hinv,hleaf,-⟩ := walk_leaf ho
    have hv : Entry.v l.pte = true ∧ (Entry.r l.pte = false → Entry.w l.pte = false) := by
      simpa [Entry.invalid] using hinv
    have hrx : Entry.r l.pte = true ∨ Entry.x l.pte = true := by simpa [Entry.isLeaf] using hleaf
    exact ⟨hv.1,hrx,fun h => by simp [hv.2 h.2] at h⟩

def tableMachine (ram : Ram) : Machine :=
  { boot (smallData []) with
    ram := ram
    priv := { (boot (smallData [])).priv with satp := 0x8000000000080000 } }

theorem endsInLeaf_iff_kernel :
    EndsInLeaf (tableMachine (sv39Tables 0x200800cf fun _ => 0)) kernelStart := by
  have hwalk : tableWalk 0x8000000000080000 (sv39Tables 0x200800cf fun _ => 0) kernelStart =
      .leaf 0 0x200800cf := by decide +kernel
  refine (endsInLeaf_iff (by decide) (by decide +kernel)).mpr fun e he => ?_
  have hne := hwalk.symm.trans he
  cases hne

/-- With the flags of a pointer in the last table the walk succeeds, and the kernel's
own page stops the emulator. -/
theorem pointer_taken_for_leaf :
    tableWalk 0x8000000000080000 (sv39Tables 0x20080001 fun _ => 0) kernelStart =
      .pointer 0x20080001 ∧
    (tableMachine (sv39Tables 0x20080001 fun _ => 0)).walk kernelStart =
      .leaf ⟨0x80200000,0x20080001⟩ ∧
    ¬EndsInLeaf (tableMachine (sv39Tables 0x20080001 fun _ => 0)) kernelStart ∧
    (∃ env, AddressSpace.Free (tableMachine (sv39Tables 0x20080001 fun _ => 0)).map env.ramPage
      (pages ramSize) ∧
      handlePageFault env (tableMachine (sv39Tables 0x20080001 fun _ => 0)) scauseInstrPf kernelStart =
        .error .deniedInSMode) := by
  have hwalk : tableWalk 0x8000000000080000 (sv39Tables 0x20080001 fun _ => 0) kernelStart =
      .pointer 0x20080001 := by decide +kernel
  have hleaf : (tableMachine (sv39Tables 0x20080001 fun _ => 0)).walk kernelStart =
      .leaf ⟨0x80200000,0x20080001⟩ := by decide +kernel
  refine ⟨hwalk,hleaf,fun h => absurd (h.1 _ hleaf).2.1 (by decide),smallHost,
    (smallPlaces_free []).ram,error_of_haltOf (by decide +kernel)⟩

/-- Only canonical addresses translate; the others fault. -/
def TranslatesCanonically (m : Machine) (va : Word) : Prop :=
  (∀ l, m.walk va = .leaf l → Canonical 39 va) ∧ (¬Canonical 39 va → DeliversFault m va)

/-- Bits 63 to 39 are all equal, but differ from bit 38. -/
def InGap (va : Word) : Prop := Canonical 40 va ∧ va.getLsbD 39 ≠ va.getLsbD 38

theorem inGap_iff (va : Word) : InGap va ↔ signExtended va ∧ ¬Canonical 39 va := by
  rw [signExtended_iff]
  constructor
  · rintro ⟨h40,hne⟩
    exact ⟨h40,fun h => hne (h 39 (by decide) (by decide))⟩
  · rintro ⟨h40,hn⟩
    refine ⟨h40,fun heq => hn fun i hi h39 => ?_⟩
    rcases Nat.eq_or_lt_of_le h39 with rfl | hlt
    · exact heq
    · exact (h40 i hi hlt).trans heq

theorem translatesCanonically_iff {m : Machine} (va : Word)
    (hsatp : getSatpMode m.priv.satp = satpModeSv39) :
    TranslatesCanonically m va ↔ ¬InGap va ∨ tableWalk m.priv.satp m.ram va = .invalid := by
  have hw : m.walk va = if signExtended va then emulated va (tableWalk m.priv.satp m.ram va)
      else .fault := lookupPaInRam_eq hsatp m.ram va
  rw [inGap_iff]
  by_cases hva : Canonical 39 va
  · have hvoid : TranslatesCanonically m va := ⟨fun _ _ => hva,fun h => absurd hva h⟩
    exact ⟨fun _ => .inl fun h => h.2 hva,fun _ => hvoid⟩
  · have hgap : TranslatesCanonically m va ↔ m.walk va = .fault := by
      constructor
      · exact fun h => (h.2 hva).1
      · exact fun h => ⟨fun l hl => (by simp [h] at hl),fun _ => deliversFault_iff.mpr h⟩
    rw [hgap,hw]
    by_cases hext : signExtended va
    · rw [if_pos hext,emulated_fault]
      simp [hext,hva]
    · simp [hext]

/-- Under translation exactly the addresses of the gap can be translated though
they are not canonical; whether they are is up to the tables. -/
theorem only_canonical_translate (va : Word) :
    (∀ m, getSatpMode m.priv.satp = satpModeSv39 →
      (TranslatesCanonically m va ↔ ¬InGap va ∨ tableWalk m.priv.satp m.ram va = .invalid)) ∧
    ((∀ m, getSatpMode m.priv.satp = satpModeSv39 → TranslatesCanonically m va) ↔ ¬InGap va) := by
  refine ⟨fun m hsatp => translatesCanonically_iff va hsatp,fun h hgap => ?_,
    fun hgap m hsatp => (translatesCanonically_iff va hsatp).mpr (.inl hgap)⟩
  -- RAM full of ones holds a large page in every entry of every table
  have hsatp : getSatpMode (tableMachine fun _ => 0xff).priv.satp = satpModeSv39 := by decide
  rcases (translatesCanonically_iff va hsatp).mp (h _ hsatp) with hn | hinv
  · exact hn hgap
  · have hload : ∀ off, loadEntry (fun _ => 0xff) off = 0xffffffffffffffff := by
      intro off
      simp only [loadEntry]
      decide
    have hwalk : tableWalk 0x8000000000080000 (fun _ => 0xff) va = .leaf 2 0xffffffffffffffff := by
      have halign : ramStart.toNat%2^12 = 0 := by decide
      have hmem := ramMem_entry (fun _ => 0xff) va 2 halign
      rw [if_neg (by decide),hload] at hmem
      have hroot : satpPpn 0x8000000000080000*2^12 = ramStart.toNat := by decide
      rw [tableWalk,hroot,walk,visit,hmem]
      rfl
    have hne := hwalk.symm.trans hinv
    cases hne

/-- The guest's tables map an address just above the lower half, under the same
indices as its mirror image in the upper half. -/
def gapTables (ram : Ram) : Ram :=
  poke 0x810 0x20000401 (poke 0x1008 0x20000801 (poke 0x2000 0x200800cf ram))

/-- The small guest's tables have nothing for an address in the gap. -/
theorem only_canonical_translate_invalid :
    InGap 0x4080200000 ∧
    TranslatesCanonically (tableMachine (sv39Tables 0x200800cf fun _ => 0)) 0x4080200000 := by
  have hgap : Canonical 40 0x4080200000 := by decide +kernel
  exact ⟨⟨hgap,by decide⟩,((only_canonical_translate _).1 _ (by decide)).mpr (.inr (by decide +kernel))⟩

/-- Bit 38 is set and the bits above it are clear, but the address translates. -/
theorem gap_address_translates :
    ¬Canonical 39 0x4080200000 ∧
    (tableMachine (gapTables fun _ => 0)).walk 0x4080200000 = .leaf ⟨0x80200000,0x200800cf⟩ ∧
    (tableMachine (gapTables fun _ => 0)).walk 0xffffffc080200000 = .leaf ⟨0x80200000,0x200800cf⟩ ∧
    ¬TranslatesCanonically (tableMachine (gapTables fun _ => 0)) 0x4080200000 := by
  have hn : ¬Canonical 39 0x4080200000 := by decide +kernel
  have hleaf : (tableMachine (gapTables fun _ => 0)).walk 0x4080200000 =
      .leaf ⟨0x80200000,0x200800cf⟩ := by decide +kernel
  exact ⟨hn,hleaf,by decide +kernel,fun h => hn (h.1 _ hleaf)⟩

end Urvirt
