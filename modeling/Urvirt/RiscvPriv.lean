import Urvirt.Machine

/-!
# Privileged architecture

CSR access, the privileged instructions and trap entry of
`urvirt-stub/riscv-priv.c`, each with what it can do to the machine.
-/

namespace Urvirt

def sanitizeStvec (stvec : Word) : Word :=
  let mode := stvec &&& stvecModeMask
  if mode = stvecDirect ∨ mode = stvecVectored then stvec else stvec &&& ~~~stvecModeMask

/-- The fields it does not mention keep the contents of the config page. -/
def initializePriv (priv : PrivState) : PrivState :=
  { priv with
    privMode := privS, sscratch := 0, stvec := 0, sepc := 0, scause := 0, satp := 0,
    sip := 0, sie := 0,
    sstatus := setSstatusSd (setSstatusXs (setSstatusFs 0 sstatusXsDirty) sstatusXsDirty) 1,
    counterIll := 0, counterSegv := 0, counterSret := 0, counterUecall := 0,
    counterSecall := 0 }

def readCsr (priv : PrivState) (csr : BitVec 32) : Except Halt Word :=
  if csr = csrSscratch then .ok priv.sscratch
  else if csr = csrStvec then .ok priv.stvec
  else if csr = csrSepc then .ok priv.sepc
  else if csr = csrSstatus then .ok priv.sstatus
  else if csr = csrSie then .ok priv.sie
  else if csr = csrSip then .ok priv.sip
  else if csr = csrScause then .ok priv.scause
  else if csr = csrStval then .ok priv.stval
  else if csr = csrSatp then .ok priv.satp
  else .error .unimplementedCsrRead

def mergeMasked (mask old value : Word) : Word := (value &&& mask) ||| (old &&& ~~~mask)

def writeCsr (priv : PrivState) (csr : BitVec 32) (value : Word) : Except Halt PrivState :=
  if csr = csrSscratch then .ok { priv with sscratch := value }
  else if csr = csrStvec then .ok { priv with stvec := sanitizeStvec value }
  else if csr = csrSepc then .ok { priv with sepc := value }
  else if csr = csrSstatus then
    .ok { priv with sstatus := mergeMasked sstatusWritableMask priv.sstatus value }
  else if csr = csrSie then .ok { priv with sie := mergeMasked sixWritableMask priv.sie value }
  else if csr = csrSip then .ok { priv with sip := mergeMasked sixWritableMask priv.sip value }
  else if csr = csrScause then .ok { priv with scause := value }
  else if csr = csrStval then .ok { priv with stval := value }
  else if csr = csrSatp then
    if getSatpMode value = satpModeSv39 ∨ getSatpMode value = satpModeBare then
      .ok { priv with satp := setSatpAsid value 0, shouldClearVm := true }
    else .ok priv
  else .error .unimplementedCsrWrite

def sretStatus (sstatus : Word) : Word :=
  setSstatusSpp (setSstatusSpie (setSstatusSie sstatus (getSstatusSpie sstatus)) 1) 0

def sret (m : Machine) : Machine :=
  { m.setPc m.priv.sepc with
    priv := { m.priv with
      counterSret := m.priv.counterSret+1
      sstatus := sretStatus m.priv.sstatus
      privMode := if getSstatusSpp m.priv.sstatus = sstatusSppU then privU else privS
      shouldClearVm :=
        if getSstatusSpp m.priv.sstatus = sstatusSppU then true else m.priv.shouldClearVm } }

/-- The operand of a CSR instruction; `x0` reads as zero, not as the pc in slot 0. -/
def csrWriteValue (regs : Regs) (instr : BitVec 32) : Word :=
  if insFunct3 instr &&& csrUseUimm ≠ 0 then (insRs1 instr).setWidth 64
  else if insRs1 instr = 0 then 0 else regs (regIx (insRs1 instr))

def csrWillWrite (regs : Regs) (instr : BitVec 32) : Bool :=
  if insFunct3 instr &&& csrUseUimm ≠ 0 then csrWriteValue regs instr ≠ 0 else insRs1 instr ≠ 0

/-- `regs[rd] = read_csr(...)`, done only for a destination other than `x0`. -/
def csrReadRd (m : Machine) (csr rd : BitVec 32) : Except Halt Machine :=
  if rd ≠ 0 then (readCsr m.priv csr).map (m.setReg (regIx rd)) else .ok m

def csrReadWrite (m : Machine) (csr rd : BitVec 32) (value : Word) : Except Halt Machine := do
  let m ← csrReadRd m csr rd
  let priv ← writeCsr m.priv csr value
  .ok { m with priv := priv }

def writeCsrIf (willWrite : Bool) (priv : PrivState) (csr : BitVec 32) (value : Word) :
    Except Halt PrivState :=
  if willWrite then writeCsr priv csr value else .ok priv

/-- `csrrs` and `csrrc` differ only in how they combine the old value. -/
def csrModify (m : Machine) (csr rd : BitVec 32) (willWrite : Bool) (combine : Word → Word) :
    Except Halt Machine := do
  let orig ← readCsr m.priv csr
  let priv ← writeCsrIf willWrite m.priv csr (combine orig)
  .ok (if rd ≠ 0 then { m with priv := priv }.setReg (regIx rd) orig else { m with priv := priv })

def csrInstr (m : Machine) (instr : BitVec 32) : Except Halt Machine :=
  if insFunct3 instr &&& csrOpMask = csrOpRw then
    csrReadWrite m (insCsr instr) (insRd instr) (csrWriteValue m.regs instr)
  else if insFunct3 instr &&& csrOpMask = csrOpRs then
    csrModify m (insCsr instr) (insRd instr) (csrWillWrite m.regs instr)
      (· ||| csrWriteValue m.regs instr)
  else if insFunct3 instr &&& csrOpMask = csrOpRc then
    csrModify m (insCsr instr) (insRd instr) (csrWillWrite m.regs instr)
      (· &&& ~~~csrWriteValue m.regs instr)
  else .error .invalidCsrOperation

def isSfenceVma (instr : BitVec 32) : Prop :=
  insFunct7 instr = funct7SfenceVma ∧ insRd instr = 0

def isWfi (instr : BitVec 32) : Prop :=
  insFunct7 instr = funct7Wfi ∧ insRs2 instr = rs2Wfi ∧ insRs1 instr = 0 ∧ insRd instr = 0

def isSret (instr : BitVec 32) : Prop :=
  insFunct7 instr = funct7Sret ∧ insRs2 instr = rs2Sret ∧ insRs1 instr = 0 ∧ insRd instr = 0

instance (instr : BitVec 32) : Decidable (isSfenceVma instr) :=
  inferInstanceAs (Decidable (_ ∧ _))
instance (instr : BitVec 32) : Decidable (isWfi instr) :=
  inferInstanceAs (Decidable (_ ∧ _))
instance (instr : BitVec 32) : Decidable (isSret instr) :=
  inferInstanceAs (Decidable (_ ∧ _))

def handlePrivInstr (m : Machine) (instr : BitVec 32) : Except Halt Machine :=
  if insOpcode instr = opcodeSystem then
    if insFunct3 instr = funct3NotCsr then
      if isSfenceVma instr then
        .ok { m.setPc (m.pc+4) with priv := { m.priv with shouldClearVm := true } }
      else if isWfi instr then .ok (m.setPc (m.pc+4))
      else if isSret instr then .ok (sret m)
      else .error .invalidNonCsr
    else do
      let m ← csrInstr m instr
      .ok (m.setPc (m.pc+4))
  else .error .notSystem

def trapTarget (priv : PrivState) (scause : Word) : Word :=
  let base := priv.stvec &&& ~~~stvecModeMask
  let mode := priv.stvec &&& stvecModeMask
  if mode = stvecDirect ∨ scause &&& scauseIsInt = 0 then base else base+scause*4

def trapStatus (mode sstatus : Word) : Word :=
  let sstatus := setSstatusSpp sstatus (if mode = privS then sstatusSppS else sstatusSppU)
  setSstatusSie (setSstatusSpie sstatus (getSstatusSie sstatus)) 0

def enterTrap (m : Machine) (scause stval : Word) : Machine :=
  { m.setPc (trapTarget m.priv scause) with
    priv := { m.priv with
      sepc := m.pc
      scause := scause
      stval := stval
      privMode := privS
      sstatus := trapStatus m.priv.privMode m.priv.sstatus
      shouldClearVm := true }
    traps := ⟨m.pc,m.priv.privMode,getSstatusSie m.priv.sstatus,scause,stval⟩ :: m.traps }

section Status

open Bitfield

variable (mode sstatus : Word)

theorem isFlag_spp : IsFlag (if mode = privS then sstatusSppS else sstatusSppU) :=
  isFlag_ite isFlag_one isFlag_zero

theorem trapStatus_sie : getSstatusSie (trapStatus mode sstatus) = 0 :=
  get_set_same (by decide) _ isFlag_zero

theorem trapStatus_spie : getSstatusSpie (trapStatus mode sstatus) = getSstatusSie sstatus := by
  let s₁ := setSstatusSpp sstatus (if mode = privS then sstatusSppS else sstatusSppU)
  calc getSstatusSpie (trapStatus mode sstatus)
      = getSstatusSpie (setSstatusSpie s₁ (getSstatusSie s₁)) :=
        get_set_ne (by decide) (by decide) _ isFlag_zero
    _ = getSstatusSie s₁ := get_set_same (by decide) _ (isFlag_get (by decide) _ _)
    _ = getSstatusSie sstatus := get_set_ne (by decide) (by decide) _ (isFlag_spp mode)

theorem trapStatus_spp :
    getSstatusSpp (trapStatus mode sstatus) = if mode = privS then sstatusSppS else sstatusSppU := by
  let s₁ := setSstatusSpp sstatus (if mode = privS then sstatusSppS else sstatusSppU)
  calc getSstatusSpp (trapStatus mode sstatus)
      = getSstatusSpp (setSstatusSpie s₁ (getSstatusSie s₁)) :=
        get_set_ne (by decide) (by decide) _ isFlag_zero
    _ = getSstatusSpp s₁ := get_set_ne (by decide) (by decide) _ (isFlag_get (by decide) _ _)
    _ = _ := get_set_same (by decide) _ (isFlag_spp mode)

theorem sretStatus_sie : getSstatusSie (sretStatus sstatus) = getSstatusSpie sstatus := by
  let s₁ := setSstatusSie sstatus (getSstatusSpie sstatus)
  calc getSstatusSie (sretStatus sstatus)
      = getSstatusSie (setSstatusSpie s₁ 1) := get_set_ne (by decide) (by decide) _ isFlag_zero
    _ = getSstatusSie s₁ := get_set_ne (by decide) (by decide) _ isFlag_one
    _ = getSstatusSpie sstatus := get_set_same (by decide) _ (isFlag_get (by decide) _ _)

end Status

@[simp] theorem sret_pc (m : Machine) : (sret m).pc = m.priv.sepc := m.setPc_pc _

theorem sret_privMode (m : Machine) : (sret m).priv.privMode =
    if getSstatusSpp m.priv.sstatus = sstatusSppU then privU else privS := rfl

@[simp] theorem enterTrap_pc (m : Machine) (scause stval : Word) :
    (enterTrap m scause stval).pc = trapTarget m.priv scause := m.setPc_pc _

inductive CsrEffect (priv : PrivState) (csr : BitVec 32) (value : Word) : PrivState → Prop
  | sscratch : csr = csrSscratch → CsrEffect priv csr value { priv with sscratch := value }
  | stvec : csr = csrStvec → CsrEffect priv csr value { priv with stvec := sanitizeStvec value }
  | sepc : csr = csrSepc → CsrEffect priv csr value { priv with sepc := value }
  | sstatus : csr = csrSstatus →
      CsrEffect priv csr value { priv with sstatus := mergeMasked sstatusWritableMask priv.sstatus value }
  | sie : csr = csrSie →
      CsrEffect priv csr value { priv with sie := mergeMasked sixWritableMask priv.sie value }
  | sip : csr = csrSip →
      CsrEffect priv csr value { priv with sip := mergeMasked sixWritableMask priv.sip value }
  | scause : csr = csrScause → CsrEffect priv csr value { priv with scause := value }
  | stval : csr = csrStval → CsrEffect priv csr value { priv with stval := value }
  | satp : csr = csrSatp →
      (getSatpMode value = satpModeSv39 ∨ getSatpMode value = satpModeBare) →
      CsrEffect priv csr value { priv with satp := setSatpAsid value 0, shouldClearVm := true }
  | satpIgnored : csr = csrSatp →
      ¬(getSatpMode value = satpModeSv39 ∨ getSatpMode value = satpModeBare) →
      CsrEffect priv csr value priv

theorem writeCsr_effect {priv priv' : PrivState} {csr : BitVec 32} {value : Word}
    (h : writeCsr priv csr value = .ok priv') : CsrEffect priv csr value priv' := by
  simp only [writeCsr] at h
  by_cases h₀ : csr = csrSscratch
  · rw [if_pos h₀] at h; cases h; exact .sscratch h₀
  rw [if_neg h₀] at h
  by_cases h₁ : csr = csrStvec
  · rw [if_pos h₁] at h; cases h; exact .stvec h₁
  rw [if_neg h₁] at h
  by_cases h₂ : csr = csrSepc
  · rw [if_pos h₂] at h; cases h; exact .sepc h₂
  rw [if_neg h₂] at h
  by_cases h₃ : csr = csrSstatus
  · rw [if_pos h₃] at h; cases h; exact .sstatus h₃
  rw [if_neg h₃] at h
  by_cases h₄ : csr = csrSie
  · rw [if_pos h₄] at h; cases h; exact .sie h₄
  rw [if_neg h₄] at h
  by_cases h₅ : csr = csrSip
  · rw [if_pos h₅] at h; cases h; exact .sip h₅
  rw [if_neg h₅] at h
  by_cases h₆ : csr = csrScause
  · rw [if_pos h₆] at h; cases h; exact .scause h₆
  rw [if_neg h₆] at h
  by_cases h₇ : csr = csrStval
  · rw [if_pos h₇] at h; cases h; exact .stval h₇
  rw [if_neg h₇] at h
  by_cases h₈ : csr = csrSatp
  · rw [if_pos h₈] at h
    by_cases hmode : getSatpMode value = satpModeSv39 ∨ getSatpMode value = satpModeBare
    · rw [if_pos hmode] at h; cases h; exact .satp h₈ hmode
    · rw [if_neg hmode] at h; cases h; exact .satpIgnored h₈ hmode
  · rw [if_neg h₈] at h; cases h

theorem csrReadRd_ok {m m' : Machine} {csr rd : BitVec 32} (h : csrReadRd m csr rd = .ok m') :
    ∃ regs, m' = { m with regs := regs } := by
  simp only [csrReadRd] at h
  split_ifs at h
  · cases hr : readCsr m.priv csr with
    | error e => simp [hr,Except.map] at h
    | ok old => rw [hr] at h; cases h; exact ⟨_,rfl⟩
  · cases h; exact ⟨m.regs,rfl⟩

theorem csrReadWrite_ok {m m' : Machine} {csr rd : BitVec 32} {value : Word}
    (h : csrReadWrite m csr rd value = .ok m') :
    ∃ priv regs, m' = { m with priv := priv, regs := regs } ∧
      writeCsr m.priv csr value = .ok priv := by
  obtain ⟨m₁,h₁,h⟩ := bind_ok.mp h
  obtain ⟨priv,hw,h⟩ := bind_ok.mp h
  cases h
  obtain ⟨regs,rfl⟩ := csrReadRd_ok h₁
  exact ⟨priv,regs,rfl,hw⟩

theorem csrModify_ok {m m' : Machine} {csr rd : BitVec 32} {willWrite : Bool}
    {combine : Word → Word} (h : csrModify m csr rd willWrite combine = .ok m') :
    ∃ priv regs, m' = { m with priv := priv, regs := regs } ∧
      (willWrite = false ∧ priv = m.priv ∨ willWrite = true ∧
        ∃ orig, readCsr m.priv csr = .ok orig ∧
          writeCsr m.priv csr (combine orig) = .ok priv) := by
  obtain ⟨orig,hr,h⟩ := bind_ok.mp h
  obtain ⟨priv,hw,h⟩ := bind_ok.mp h
  have hm : ∃ regs, m' = { m with priv := priv, regs := regs } := by
    split_ifs at h <;> cases h <;> exact ⟨_,rfl⟩
  obtain ⟨regs,rfl⟩ := hm
  refine ⟨priv,regs,rfl,?_⟩
  simp only [writeCsrIf] at hw
  split_ifs at hw with hww
  · exact .inr ⟨hww,orig,hr,hw⟩
  · exact .inl ⟨by simpa using hww,(Except.ok.inj hw).symm⟩

theorem readCsr_of_writeCsr {priv priv' : PrivState} {csr : BitVec 32} {value : Word}
    (h : writeCsr priv csr value = .ok priv') : ∃ orig, readCsr priv csr = .ok orig := by
  cases writeCsr_effect h with
  | satp hn _ => subst hn; exact ⟨_,rfl⟩
  | satpIgnored hn _ => subst hn; exact ⟨_,rfl⟩
  | _ hn => subst hn; exact ⟨_,rfl⟩

def csrWrites (regs : Regs) (instr : BitVec 32) : Prop :=
  insFunct3 instr &&& csrOpMask = csrOpRw ∨ csrWillWrite regs instr = true

instance (regs : Regs) (instr : BitVec 32) : Decidable (csrWrites regs instr) :=
  inferInstanceAs (Decidable (_ ∨ _))

def csrNewValue (regs : Regs) (instr : BitVec 32) (orig : Word) : Word :=
  if insFunct3 instr &&& csrOpMask = csrOpRw then csrWriteValue regs instr
  else if insFunct3 instr &&& csrOpMask = csrOpRs then orig ||| csrWriteValue regs instr
  else orig &&& ~~~csrWriteValue regs instr

theorem csrInstr_ok {m m' : Machine} {instr : BitVec 32} (h : csrInstr m instr = .ok m') :
    ∃ priv regs, m' = { m with priv := priv, regs := regs } ∧
      (¬csrWrites m.regs instr ∧ priv = m.priv ∨ csrWrites m.regs instr ∧
        ∃ orig, readCsr m.priv (insCsr instr) = .ok orig ∧
          writeCsr m.priv (insCsr instr) (csrNewValue m.regs instr orig) = .ok priv) := by
  simp only [csrInstr] at h
  split_ifs at h with hrw hrs hrc
  · obtain ⟨priv,regs,rfl,hw⟩ := csrReadWrite_ok h
    obtain ⟨orig,hr⟩ := readCsr_of_writeCsr hw
    refine ⟨priv,regs,rfl,.inr ⟨.inl hrw,orig,hr,?_⟩⟩
    rw [csrNewValue,if_pos hrw]
    exact hw
  · obtain ⟨priv,regs,rfl,⟨hno,hp⟩ | ⟨hww,orig,hr,hw⟩⟩ := csrModify_ok h
    · exact ⟨priv,regs,rfl,.inl ⟨by simp [csrWrites,hrw,hno],hp⟩⟩
    · refine ⟨priv,regs,rfl,.inr ⟨.inr hww,orig,hr,?_⟩⟩
      rw [csrNewValue,if_neg hrw,if_pos hrs]
      exact hw
  · obtain ⟨priv,regs,rfl,⟨hno,hp⟩ | ⟨hww,orig,hr,hw⟩⟩ := csrModify_ok h
    · exact ⟨priv,regs,rfl,.inl ⟨by simp [csrWrites,hrw,hno],hp⟩⟩
    · refine ⟨priv,regs,rfl,.inr ⟨.inr hww,orig,hr,?_⟩⟩
      rw [csrNewValue,if_neg hrw,if_neg hrs]
      exact hw

inductive PrivEffect (m : Machine) (instr : BitVec 32) : Machine → Prop
  | sfenceVma : insFunct3 instr = funct3NotCsr → isSfenceVma instr →
      PrivEffect m instr { m.setPc (m.pc+4) with priv := { m.priv with shouldClearVm := true } }
  | wfi : insFunct3 instr = funct3NotCsr → isWfi instr → PrivEffect m instr (m.setPc (m.pc+4))
  | sret : insFunct3 instr = funct3NotCsr → isSret instr → PrivEffect m instr (sret m)
  | csrRead {regs : Regs} : insFunct3 instr ≠ funct3NotCsr → ¬csrWrites m.regs instr →
      PrivEffect m instr { m with regs := regs }
  | csrWrite {orig : Word} {priv : PrivState} {regs : Regs} : insFunct3 instr ≠ funct3NotCsr →
      csrWrites m.regs instr → readCsr m.priv (insCsr instr) = .ok orig →
      writeCsr m.priv (insCsr instr) (csrNewValue m.regs instr orig) = .ok priv →
      PrivEffect m instr { m with priv := priv, regs := regs }

theorem handlePrivInstr_effect {m m' : Machine} {instr : BitVec 32}
    (h : handlePrivInstr m instr = .ok m') : PrivEffect m instr m' := by
  simp only [handlePrivInstr] at h
  split_ifs at h with hop hf3 hsf hwfi hsret
  · cases h; exact .sfenceVma hf3 hsf
  · cases h; exact .wfi hf3 hwfi
  · cases h; exact .sret hf3 hsret
  · obtain ⟨m₁,h₁,h⟩ := bind_ok.mp h
    cases h
    obtain ⟨priv,regs,rfl,⟨hno,hpriv⟩ | ⟨hwr,orig,hr,hw⟩⟩ := csrInstr_ok h₁
    · subst hpriv; exact .csrRead hf3 hno
    · exact .csrWrite hf3 hwr hr hw

end Urvirt
