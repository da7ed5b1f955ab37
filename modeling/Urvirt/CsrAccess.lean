import Urvirt.InstructionDecoding
import Urvirt.Zicsr

/-!
# CSR access

The CSRs of the emulated hart as one set of registers, with the rule by which each
makes a value legal. `read_csr` and `write_csr` are its accesses, and
`handle_priv_instr` executes the instructions of Zicsr over it.
-/

namespace Urvirt

open Bitfield Rv64gc Transition

theorem mergeMasked_self (mask v : Word) : mergeMasked mask v v = v := merge_self v mask

theorem setSatpAsid_of_zero {v : Word} (h : getSatpAsid v = 0) : setSatpAsid v 0 = v := by
  rw [← h]
  exact set_get (by decide) v

inductive Csr
  | sstatus | sie | stvec | sscratch | sepc | scause | stval | sip | satp
  deriving DecidableEq

namespace Csr

def number : Csr → BitVec 32
  | sstatus => csrSstatus
  | sie => csrSie
  | stvec => csrStvec
  | sscratch => csrSscratch
  | sepc => csrSepc
  | scause => csrScause
  | stval => csrStval
  | sip => csrSip
  | satp => csrSatp

def value (priv : PrivState) : Csr → Word
  | sstatus => priv.sstatus
  | sie => priv.sie
  | stvec => priv.stvec
  | sscratch => priv.sscratch
  | sepc => priv.sepc
  | scause => priv.scause
  | stval => priv.stval
  | sip => priv.sip
  | satp => priv.satp

def put (priv : PrivState) (v : Word) : Csr → PrivState
  | sstatus => { priv with sstatus := v }
  | sie => { priv with sie := v }
  | stvec => { priv with stvec := v }
  | sscratch => { priv with sscratch := v }
  | sepc => { priv with sepc := v }
  | scause => { priv with scause := v }
  | stval => { priv with stval := v }
  | sip => { priv with sip := v }
  | satp => { priv with satp := v }

def SatpSupported (v : Word) : Prop := getSatpMode v = satpModeSv39 ∨ getSatpMode v = satpModeBare

instance (v : Word) : Decidable (SatpSupported v) := inferInstanceAs (Decidable (_ ∨ _))

/-- What is left of a value that is written over `old`. -/
def legal (old v : Word) : Csr → Word
  | sstatus => mergeMasked sstatusWritableMask old v
  | sie | sip => mergeMasked sixWritableMask old v
  | stvec => sanitizeStvec v
  | satp => if SatpSupported v then setSatpAsid v 0 else old
  | _ => v

/-- Only an accepted write of `satp` asks for a flush. -/
def write (priv : PrivState) (v : Word) (c : Csr) : PrivState :=
  if c = satp ∧ SatpSupported v then
    { c.put priv (c.legal (c.value priv) v) with shouldClearVm := true }
  else c.put priv (c.legal (c.value priv) v)

def all : List Csr := [sstatus,sie,stvec,sscratch,sepc,scause,stval,sip,satp]

def ofNumber (csr : BitVec 32) : Option Csr := all.find? fun c => c.number = csr

theorem mem_all (c : Csr) : c ∈ all := by cases c <;> decide

theorem ofNumber_number (c : Csr) : ofNumber c.number = some c := by cases c <;> decide

theorem ofNumber_eq_some {csr : BitVec 32} {c : Csr} (h : ofNumber csr = some c) : c.number = csr := by
  simpa using List.find?_some h

theorem ofNumber_eq_none {csr : BitVec 32} : ofNumber csr = none ↔ ∀ c : Csr, c.number ≠ csr := by
  simp only [ofNumber,List.find?_eq_none,decide_eq_true_eq]
  exact ⟨fun h c => h c (mem_all c),fun h c _ => h c⟩

@[simp] theorem put_value (priv : PrivState) (c : Csr) : c.put priv (c.value priv) = priv := by
  cases c <;> rfl

end Csr

section Access

variable {priv : PrivState} {csr : BitVec 32}

theorem readCsr_number (priv : PrivState) (c : Csr) : readCsr priv c.number = .ok (c.value priv) := by
  cases c <;> rfl

theorem writeCsr_number (priv : PrivState) (c : Csr) (v : Word) :
    writeCsr priv c.number v = .ok (c.write priv v) := by
  cases c with
  | satp =>
    by_cases h : Csr.SatpSupported v
    · have hw : writeCsr priv csrSatp v =
          .ok { priv with satp := setSatpAsid v 0, shouldClearVm := true } := if_pos h
      simp [Csr.number,hw,Csr.write,Csr.legal,Csr.put,h]
    · have hw : writeCsr priv csrSatp v = .ok priv := if_neg h
      simp [Csr.number,hw,Csr.write,Csr.legal,Csr.put,Csr.value,h]
  | _ => rfl

theorem access_unimplemented (priv : PrivState) (h : Csr.ofNumber csr = none) (v : Word) :
    readCsr priv csr = .error .unimplementedCsrRead ∧
      writeCsr priv csr v = .error .unimplementedCsrWrite := by
  have hne := Csr.ofNumber_eq_none.mp h
  have h₁ := (hne .sstatus).symm
  have h₂ := (hne .sie).symm
  have h₃ := (hne .stvec).symm
  have h₄ := (hne .sscratch).symm
  have h₅ := (hne .sepc).symm
  have h₆ := (hne .scause).symm
  have h₇ := (hne .stval).symm
  have h₈ := (hne .sip).symm
  have h₉ := (hne .satp).symm
  simp only [Csr.number] at h₁ h₂ h₃ h₄ h₅ h₆ h₇ h₈ h₉
  constructor
  · simp only [readCsr,if_neg h₁,if_neg h₂,if_neg h₃,if_neg h₄,if_neg h₅,if_neg h₆,if_neg h₇,
      if_neg h₈,if_neg h₉]
  · simp only [writeCsr,if_neg h₁,if_neg h₂,if_neg h₃,if_neg h₄,if_neg h₅,if_neg h₆,if_neg h₇,
      if_neg h₈,if_neg h₉]

end Access

theorem Csr.legal_value {priv : PrivState} (h : Legal priv) (c : Csr) :
    c.legal (c.value priv) (c.value priv) = c.value priv := by
  cases c with
  | sstatus => exact mergeMasked_self _ _
  | sie => exact mergeMasked_self _ _
  | sip => exact mergeMasked_self _ _
  | stvec => exact if_pos h.stvec
  | satp => exact (if_pos h.satp_mode.symm).trans (setSatpAsid_of_zero h.satp_asid)
  | _ => rfl

theorem Csr.write_value {priv : PrivState} (h : Legal priv) (c : Csr) :
    c.write priv (c.value priv) =
      if c = .satp then { priv with shouldClearVm := true } else priv := by
  have hsatp : c = .satp → Csr.SatpSupported (c.value priv) := by
    rintro rfl
    exact h.satp_mode.symm
  simp only [Csr.write,Csr.legal_value h c,put_value]
  by_cases hc : c = .satp
  · rw [if_pos ⟨hc,hsatp hc⟩,if_pos hc]
  · rw [if_neg fun hw => hc hw.1,if_neg hc]

/-- Any CSR of the state can be saved and restored, and what can be written to it
reads back as a value that is written as it is. -/
structure Restorable (priv : PrivState) : Prop where
  restore : ∀ csr old, readCsr priv csr = .ok old → ∃ priv', writeCsr priv csr old = .ok priv' ∧
    (priv' = priv ∨ csr = csrSatp ∧ priv' = { priv with shouldClearVm := true })
  idempotent : ∀ csr v priv', writeCsr priv csr v = .ok priv' →
    ∃ old priv'', readCsr priv' csr = .ok old ∧ writeCsr priv' csr old = .ok priv'' ∧
      ∀ csr', readCsr priv'' csr' = readCsr priv' csr'

theorem readCsr_ok {priv : PrivState} {csr : BitVec 32} {old : Word}
    (h : readCsr priv csr = .ok old) : ∃ c : Csr, csr = c.number ∧ old = c.value priv := by
  cases hc : Csr.ofNumber csr with
  | none =>
    rw [(access_unimplemented _ hc 0).1] at h
    cases h
  | some c =>
    obtain rfl := Csr.ofNumber_eq_some hc
    rw [readCsr_number] at h
    exact ⟨c,rfl,(Except.ok.inj h).symm⟩

theorem restore_csr {priv : PrivState} (h : Legal priv) {csr : BitVec 32} {old : Word}
    (hr : readCsr priv csr = .ok old) : ∃ priv', writeCsr priv csr old = .ok priv' ∧
      (priv' = priv ∨ csr = csrSatp ∧ priv' = { priv with shouldClearVm := true }) := by
  obtain ⟨c,rfl,rfl⟩ := readCsr_ok hr
  refine ⟨_,writeCsr_number priv c _,?_⟩
  rw [Csr.write_value h]
  split_ifs with hc
  · subst hc
    exact .inr ⟨rfl,rfl⟩
  · exact .inl rfl

theorem readCsr_shouldClearVm (priv : PrivState) (b : Bool) (csr : BitVec 32) :
    readCsr { priv with shouldClearVm := b } csr = readCsr priv csr := rfl

theorem Legal.restorable {priv : PrivState} (h : Legal priv) : Restorable priv where
  restore _ _ := restore_csr h
  idempotent csr v priv' hw := by
    have hread : ∃ old, readCsr priv' csr = .ok old := by
      cases writeCsr_effect hw with
      | satp hn _ => subst hn; exact ⟨_,rfl⟩
      | satpIgnored hn _ => subst hn; exact ⟨_,rfl⟩
      | _ hn => subst hn; exact ⟨_,rfl⟩
    obtain ⟨old,hr⟩ := hread
    obtain ⟨priv'',hw',rfl | ⟨-,rfl⟩⟩ := restore_csr (h.writeCsr hw) hr
    · exact ⟨old,_,hr,hw',fun _ => rfl⟩
    · exact ⟨old,_,hr,hw',readCsr_shouldClearVm priv' true⟩

/-- In every state a run reaches, a CSR that is read and written back stays the same,
and a written value is legal once and for all. -/
theorem csrs_restorable {b : BootData} {es : List Event} {m : Machine}
    (h : Run Step (boot b) es m) : Restorable m.priv :=
  (run_legal h).1.restorable

/-- The small guest in U-mode under Sv39 has `satp` to save. -/
theorem csrs_restorable_user : ∃ m,
    Run Step (boot (smallData sv39Kernel)) (sv39Events 0x2008001f) m ∧
    readCsr m.priv csrSatp = .ok 0x8000000000080000 ∧ Restorable m.priv := by
  have hreplays : Replays sv39Kernel (sv39Events 0x2008001f) := by decide +kernel
  have hrun := small_run hreplays
  have hsatp : (smallAfter sv39Kernel (sv39Events 0x2008001f)).priv.satp = 0x8000000000080000 := by
    decide +kernel
  exact ⟨_,hrun,congrArg Except.ok hsatp,csrs_restorable hrun⟩

section Fields

variable {w : BitVec 32}

theorem get_eq_field {start width : ℕ} (h : width ≤ 32) (w : BitVec 32) :
    Bitfield.get start width w = BitVec.ofNat 32 (field start width w) := by
  rw [field,← toNat_get h,BitVec.ofNat_toNat,BitVec.setWidth_eq]

theorem field_lt (start width : ℕ) (w : BitVec 32) : field start width w < 2^width :=
  Nat.mod_lt _ (Nat.two_pow_pos width)

theorem insRd_toNat : (insRd w).toNat = field 7 5 w := toNat_get (by decide) w

theorem insRs1_toNat : (insRs1 w).toNat = field 15 5 w := toNat_get (by decide) w

theorem insCsr_eq : insCsr w = BitVec.ofNat 32 (field 20 12 w) := get_eq_field (by decide) w

theorem csrOp_iff (v : BitVec 32) : insFunct3 w &&& csrOpMask = v ↔ field 12 3 w%4 = v.toNat := by
  have hmask : csrOpMask.toNat = 2^2-1 := rfl
  have hf : (insFunct3 w).toNat = field 12 3 w := toNat_get (by decide) w
  rw [and_eq_iff hmask,hf]
  rfl

theorem csrUseUimm_iff : insFunct3 w &&& csrUseUimm ≠ 0 ↔ 4 ≤ field 12 3 w := by
  have hall : ∀ f < 8, (BitVec.ofNat 32 f &&& csrUseUimm ≠ 0 ↔ 4 ≤ f) := by decide
  rw [insFunct3,get_eq_field (by decide)]
  exact hall _ (field_lt 12 3 w)

theorem insRd_eq_zero : insRd w = 0 ↔ field 7 5 w = 0 := by
  rw [← BitVec.toNat_inj,insRd_toNat]
  rfl

theorem insRs1_eq_zero : insRs1 w = 0 ↔ field 15 5 w = 0 := by
  rw [← BitVec.toNat_inj,insRs1_toNat]
  rfl

theorem regIx_rs1 : regIx (insRs1 w) = Fin.ofNat 32 (field 15 5 w) := by rw [regIx,insRs1_toNat]

end Fields

def csrFile : Zicsr.CsrFile PrivState 64 where
  read n priv := (Csr.ofNumber (BitVec.ofNat 32 n)).map (Csr.value priv)
  write n v priv :=
    match Csr.ofNumber (BitVec.ofNat 32 n) with
    | none => priv
    | some c => c.write priv v

section Refinement

variable {m : Machine} {w : BitVec 32} {c : Csr} {op : Zicsr.Op}

def instrOf (op : Zicsr.Op) (w : BitVec 32) : Zicsr.Instr :=
  ⟨op,decide (4 ≤ field 12 3 w),field 7 5 w,field 15 5 w,field 20 12 w⟩

theorem decode_of_op (h : Zicsr.Op.ofFunct3 (field 12 3 w) = some op) :
    Zicsr.decode w = some (instrOf op w) := by
  rw [Zicsr.decode,h]
  rfl

theorem csrWriteValue_eq (m : Machine) (op : Zicsr.Op) (w : BitVec 32) :
    csrWriteValue m.regs w = (instrOf op w).src (archReg m.regs) := by
  have himm : (insRs1 w).setWidth 64 = BitVec.ofNat 64 (field 15 5 w) := by
    rw [← insRs1_toNat,BitVec.ofNat_toNat]
  have hread : (instrOf op w).src (archReg m.regs) = if 4 ≤ field 12 3 w then
      BitVec.ofNat 64 (field 15 5 w) else archReg m.regs (field 15 5 w) := by
    by_cases h : field 15 5 w = 0 <;> simp [Zicsr.Instr.src,instrOf,archReg,h]
  rw [hread]
  simp only [csrWriteValue,csrUseUimm_iff,insRs1_eq_zero,himm,regIx_rs1,archReg]

theorem csrWillWrite_iff : csrWillWrite m.regs w = true ↔ field 15 5 w ≠ 0 := by
  have himm : (insRs1 w).setWidth 64 ≠ (0 : Word) ↔ field 15 5 w ≠ 0 := by
    have hlt : (insRs1 w).toNat < 2^64 := Nat.lt_trans (insRs1 w).isLt (by decide)
    rw [← insRs1_toNat,Ne,← BitVec.toNat_inj,BitVec.toNat_setWidth,Nat.mod_eq_of_lt hlt]
    rfl
  simp only [csrWillWrite,csrWriteValue,csrUseUimm_iff]
  split_ifs with h
  · simpa using himm
  · simpa using not_congr insRs1_eq_zero

def rdRegs (regs : Regs) (w : BitVec 32) (old : Word) : Regs :=
  if insRd w ≠ 0 then Function.update regs (regIx (insRd w)) old else regs

theorem rdRegs_apply (regs : Regs) (old : Word) (r : Fin 32) :
    rdRegs regs w old r = if r.val = field 7 5 w ∧ r ≠ 0 then old else regs r := by
  have hlt : field 7 5 w < 32 := field_lt 7 5 w
  have hix : r = regIx (insRd w) ↔ r.val = field 7 5 w := by
    rw [regIx,insRd_toNat,Fin.ext_iff,Fin.val_ofNat,Nat.mod_eq_of_lt hlt]
  have hzero : r = 0 ↔ r.val = 0 := Fin.ext_iff
  simp only [rdRegs,Ne,insRd_eq_zero]
  by_cases h₁ : field 7 5 w = 0
  · rw [if_neg (not_not.mpr h₁),if_neg]
    rintro ⟨hr,hne⟩
    exact hne (hzero.mpr (hr.trans h₁))
  · rw [if_pos h₁,Function.update_apply]
    by_cases h₂ : r.val = field 7 5 w
    · have hne : ¬r = 0 := fun hr => h₁ (h₂ ▸ hzero.mp hr)
      rw [if_pos (hix.mpr h₂),if_pos ⟨h₂,hne⟩]
    · rw [if_neg fun hr => h₂ (hix.mp hr),if_neg fun hr => h₂ hr.1]

theorem csrReadRd_number (m : Machine) (c : Csr) (w : BitVec 32) :
    csrReadRd m c.number (insRd w) = .ok { m with regs := rdRegs m.regs w (c.value m.priv) } := by
  simp only [csrReadRd,rdRegs,readCsr_number]
  split_ifs <;> rfl

theorem csrReadWrite_number (m : Machine) (c : Csr) (w : BitVec 32) (v : Word) :
    csrReadWrite m c.number (insRd w) v =
      .ok { m with priv := c.write m.priv v, regs := rdRegs m.regs w (c.value m.priv) } := by
  simp only [csrReadWrite,csrReadRd_number,bind,Except.bind,writeCsr_number]

theorem csrModify_number (m : Machine) (c : Csr) (w : BitVec 32) (willWrite : Bool)
    (combine : Word → Word) : csrModify m c.number (insRd w) willWrite combine =
      .ok { m with
        priv := if willWrite then c.write m.priv (combine (c.value m.priv)) else m.priv
        regs := rdRegs m.regs w (c.value m.priv) } := by
  simp only [csrModify,writeCsrIf,readCsr_number,writeCsr_number,bind,Except.bind]
  cases willWrite <;> simp only [rdRegs,Machine.setReg] <;> split_ifs <;> rfl

theorem csrInstr_number (m : Machine) (hc : insCsr w = c.number)
    (hop : Zicsr.Op.ofFunct3 (field 12 3 w) = some op) : csrInstr m w = .ok { m with
      priv := if (instrOf op w).Writes then
        c.write m.priv (op.combine (c.value m.priv) ((instrOf op w).src (archReg m.regs))) else m.priv
      regs := rdRegs m.regs w (c.value m.priv) } := by
  have hcode := Zicsr.ofFunct3_eq_some.mp hop
  rw [← csrWriteValue_eq m op w]
  simp only [csrInstr,csrOp_iff,hcode,hc,csrReadWrite_number,csrModify_number,csrWillWrite_iff]
  cases op with
  | rw =>
    have hwrites : (instrOf .rw w).Writes := .inl rfl
    rw [if_pos hwrites]
    rfl
  | rs =>
    have hwrites : (instrOf .rs w).Writes ↔ field 15 5 w ≠ 0 := by simp [Zicsr.Instr.Writes,instrOf]
    simp only [hwrites]
    rfl
  | rc =>
    have hwrites : (instrOf .rc w).Writes ↔ field 15 5 w ≠ 0 := by simp [Zicsr.Instr.Writes,instrOf]
    simp only [hwrites]
    rfl

/-- A CSR instruction whose CSR does not exist stops at its first access. -/
theorem csrInstr_unimplemented (m : Machine) (hc : Csr.ofNumber (insCsr w) = none) :
    ∃ why, csrInstr m w = .error why := by
  have hread := fun priv => (access_unimplemented priv hc 0).1
  have hwrite := fun priv v => (access_unimplemented priv hc v).2
  simp only [csrInstr,csrReadWrite,csrReadRd,csrModify,hread,hwrite,bind,Except.bind,Except.map]
  split_ifs <;> exact ⟨_,rfl⟩

/-- The instruction stops before it has done anything: where `csrrw` sets its
destination first, that has not happened. -/
structure HaltsUnchanged (m : Machine) (w : BitVec 32) : Prop where
  halts : ∃ why, handlePrivInstr m w = .error why
  unchanged : insFunct3 w &&& csrOpMask = csrOpRw →
    ∀ m₁, csrReadRd m (insCsr w) (insRd w) = .ok m₁ → m₁ = m

theorem handlePrivInstr_csr (m : Machine) (hsys : field 0 7 w = 0b1110011) (hf3 : field 12 3 w ≠ 0) :
    handlePrivInstr m w = csrInstr m w >>= fun m₁ => .ok (m₁.setPc (m₁.pc+4)) := by
  have hop : insOpcode w = opcodeSystem := (get_eq_iff (by decide)).mpr hsys
  have hne : insFunct3 w ≠ funct3NotCsr := fun h => hf3 ((get_eq_iff (by decide)).mp h)
  simp only [handlePrivInstr,if_pos hop,if_neg hne]

theorem haltsUnchanged_of_error (m : Machine) (hsys : field 0 7 w = 0b1110011)
    (hf3 : field 12 3 w ≠ 0) (h : ∃ why, csrInstr m w = .error why)
    (hrd : insFunct3 w &&& csrOpMask = csrOpRw →
      ∀ m₁, csrReadRd m (insCsr w) (insRd w) = .ok m₁ → m₁ = m) : HaltsUnchanged m w := by
  obtain ⟨why,hwhy⟩ := h
  refine ⟨⟨why,?_⟩,hrd⟩
  rw [handlePrivInstr_csr m hsys hf3,hwhy]
  rfl

theorem setPc_rdRegs (m : Machine) (priv : PrivState) (old : Word) :
    ({ m with priv := priv, regs := rdRegs m.regs w old } : Machine).setPc
      (({ m with priv := priv, regs := rdRegs m.regs w old } : Machine).pc+4) =
    { m with
      priv := priv
      regs := fun r => if r = 0 then m.pc+4 else (instrOf op w).setRd old (archReg m.regs) r } := by
  have hpc : rdRegs m.regs w old 0 = m.pc := (rdRegs_apply m.regs old 0).trans (if_neg fun h => h.2 rfl)
  have hregs : Function.update (rdRegs m.regs w old) 0 (m.pc+4) =
      fun r : Fin 32 =>
        if r = 0 then m.pc+4 else (instrOf op w).setRd old (archReg m.regs) r := by
    funext r
    by_cases hr : r = 0
    · rw [hr,Function.update_self,if_pos rfl]
    · have hv : r.val ≠ 0 := fun h => hr (Fin.ext h)
      have harch : archReg m.regs r = m.regs r := by simp [archReg,hv]
      rw [Function.update_of_ne hr,if_neg hr,rdRegs_apply,Zicsr.Instr.setRd,harch]
      simp only [instrOf,Ne,hr,hv]
  simp only [Machine.setPc,Machine.setReg,Machine.pc]
  rw [hpc,hregs]
  rfl

def csrStep (m : Machine) (w : BitVec 32) : Option ((ℕ → Word) × PrivState) :=
  Zicsr.step csrFile w (archReg m.regs) m.priv

theorem csrFile_read_eq_none {priv : PrivState} :
    csrFile.read (field 20 12 w) priv = none ↔ Csr.ofNumber (insCsr w) = none := by
  rw [csrFile,Option.map_eq_none_iff,insCsr_eq]

theorem csrStep_number (hc : insCsr w = c.number)
    (hop : Zicsr.Op.ofFunct3 (field 12 3 w) = some op) : csrStep m w = some
      ((instrOf op w).setRd (c.value m.priv) (archReg m.regs),
        if (instrOf op w).Writes then
          c.write m.priv (op.combine (c.value m.priv) ((instrOf op w).src (archReg m.regs)))
        else m.priv) := by
  have hn : Csr.ofNumber (BitVec.ofNat 32 (field 20 12 w)) = some c := by
    rw [← insCsr_eq,hc,Csr.ofNumber_number]
  have hcsr : (instrOf op w).csr = field 20 12 w := rfl
  simp only [csrStep,Zicsr.step,decode_of_op hop,Option.bind_some,Zicsr.exec,csrFile,hcsr,hn,
    Option.map_some]
  rfl

theorem ofNumber_insCsr : Csr.ofNumber (insCsr w) = none ↔ ∀ c : Csr, c.number.toNat ≠ field 20 12 w := by
  have hw : (insCsr w).toNat = field 20 12 w := toNat_get (by decide) w
  simp only [Csr.ofNumber_eq_none,← hw,Ne,BitVec.toNat_inj]

end Refinement

/-- A CSR instruction has the effect that the specification gives it, or, where there
is no such instruction or CSR, stops the emulator with nothing done. -/
theorem csr_instr_refines (m : Machine) {w : BitVec 32} (hsys : field 0 7 w = 0b1110011)
    (hf3 : field 12 3 w ≠ 0) :
    (match csrStep m w with
      | none => HaltsUnchanged m w
      | some (x,priv) => handlePrivInstr m w = .ok { m with
          priv := priv
          regs := fun r => if r = 0 then m.pc+4 else x r }) ∧
    (csrStep m w = none ↔ field 12 3 w = 0b100 ∨ ∀ c : Csr, c.number.toNat ≠ field 20 12 w) := by
  have hlt : field 12 3 w < 8 := field_lt 12 3 w
  have hnone : csrStep m w = none ↔ field 12 3 w%4 = 0 ∨ Csr.ofNumber (insCsr w) = none := by
    rw [csrStep,Zicsr.step_eq_none,csrFile_read_eq_none]
  refine ⟨?_,?_⟩
  · cases hc : Csr.ofNumber (insCsr w) with
    | none =>
      rw [hnone.mpr (.inr hc)]
      refine haltsUnchanged_of_error m hsys hf3 (csrInstr_unimplemented m hc) fun _ m₁ h => ?_
      simp only [csrReadRd,(access_unimplemented _ hc 0).1] at h
      split_ifs at h
      · cases h
      · exact (Except.ok.inj h).symm
    | some c =>
      have hcsr := (Csr.ofNumber_eq_some hc).symm
      cases hop : Zicsr.Op.ofFunct3 (field 12 3 w) with
      | none =>
        have hzero := Zicsr.ofFunct3_eq_none.mp hop
        rw [hnone.mpr (.inl hzero)]
        have hcode : csrOpRw.toNat = 1 ∧ csrOpRs.toNat = 2 ∧ csrOpRc.toNat = 3 := by decide
        have hcsrInstr : csrInstr m w = .error .invalidCsrOperation := by
          simp only [csrInstr,csrOp_iff,hzero,hcode]
          rfl
        refine haltsUnchanged_of_error m hsys hf3 ⟨_,hcsrInstr⟩ fun hrw => ?_
        rw [csrOp_iff,hzero,hcode.1] at hrw
        cases hrw
      | some op =>
        rw [csrStep_number hcsr hop]
        refine (handlePrivInstr_csr m hsys hf3).trans ?_
        rw [csrInstr_number m hcsr hop]
        exact congrArg Except.ok (setPc_rdRegs m _ _)
  · rw [hnone,ofNumber_insCsr]
    have hmod : field 12 3 w%4 = 0 ↔ field 12 3 w = 4 := by omega
    rw [hmod]

def swapMachine : Machine := { boot (smallData []) with regs := smallRegs kernelStart 7 0 }

/-- `csrrw t0, sscratch, t0` swaps the two. -/
theorem csr_instr_refines_swap : handlePrivInstr swapMachine 0x140292f3 = .ok { swapMachine with
    priv := { swapMachine.priv with sscratch := 7 }
    regs := smallRegs (kernelStart+4) 0 0 } := by
  have hspec := (csr_instr_refines swapMachine (w:=0x140292f3) (by decide) (by decide)).1
  have hcsr : insCsr 0x140292f3 = Csr.sscratch.number := by decide
  have hop : Zicsr.Op.ofFunct3 (field 12 3 (0x140292f3 : BitVec 32)) = some .rw := by decide
  have hstep := csrStep_number (m:=swapMachine) hcsr hop
  rw [hstep] at hspec
  have hregs : (fun r : Fin 32 => if r = 0 then swapMachine.pc+4 else
      (instrOf .rw 0x140292f3).setRd (Csr.value swapMachine.priv .sscratch)
        (archReg swapMachine.regs) r) = smallRegs (kernelStart+4) 0 0 := by
    funext r
    revert r
    decide
  rw [← hregs]
  exact hspec

end Urvirt
