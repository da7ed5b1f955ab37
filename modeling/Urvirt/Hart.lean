import Urvirt.BlockDevice
import Urvirt.MemoryProgram
import Urvirt.TrapEntry

/-!
# The hart

A RISC-V hart with supervisor and user mode, Sv39, a timer, a console and the block
device, for any unprivileged instruction set. An instruction acts on the integer
registers, on memory and on a further state `σ` (the floating-point registers, a
reservation), and it may have several outcomes. Translations may be cached until the
next fence, so the hart can use any that its tables have held since. No hardware sets
the A and D bits, there are no ASIDs, `sip` cannot be written, `sstatus` shows FS and
XS as dirty and no UXL, and a fault leaves no trace of its instruction.
-/

namespace Urvirt

open PageTable Rv64gc MemoryProgram Scatter

inductive Kind
  | fetch | load | store
  deriving DecidableEq

def Kind.cause : Kind → Word
  | fetch => 12
  | load => 13
  | store => 15

def Prot.allows (prot : Prot) : Kind → Bool
  | .fetch => prot.exec
  | .load => prot.read
  | .store => prot.write

variable {σ : Type}

/-- What an instruction does in user mode. Slot 0 of the registers is the pc. -/
inductive Behaviour (σ : Type)
  | ecall
  | illegal
  | run (p : Prog Kind Word (BitVec 8) (σ × Regs))

abbrev Isa (σ : Type) := σ → Regs → Instr → Behaviour σ → Prop

theorem field_append {n k : ℕ} (x : BitVec k) (y : BitVec n) {width : ℕ} (h : width ≤ n) :
    field 0 width (x ++ y) = field 0 width y := by
  have hy : (x ++ y).setWidth n = y := by
    apply BitVec.eq_of_getLsbD_eq
    intro i hi
    simp [BitVec.getLsbD_append,hi]
  rw [← field_setWidth (by omega : 0+width ≤ n) (x ++ y),hy]

def fetch (pc : Word) : Prog Kind Word (BitVec 8) Instr :=
  .read .fetch pc fun b₀ => .read .fetch (pc+1) fun b₁ =>
    if long : field 0 2 b₀ = 3 then
      .read .fetch (pc+2) fun b₂ => .read .fetch (pc+3) fun b₃ =>
        .done (.word (b₃ ++ b₂ ++ b₁ ++ b₀) ((field_append _ b₀ (by decide)).trans long))
    else .done (.half (b₁ ++ b₀) fun h => long ((field_append b₁ b₀ (by decide)).symm.trans h))

def Instr.length : Instr → Word
  | .half _ _ => 2
  | .word _ _ => 4

/-- The access that an instruction comes to, all before it being translated. -/
inductive Demands {C : Type} [DecidableEq C] (isa : Isa σ) (tr : Kind → Word → C → Prop)
    (mem : C → BitVec 8) (x : σ) (regs : Regs) (k : Kind) (a : Word) : Prop
  | fetch : Wants tr (fetch (regs 0)) mem k a → Demands isa tr mem x regs k a
  | data {i : Instr} {p : Prog Kind Word (BitVec 8) (σ × Regs)} :
      Finishes tr (fetch (regs 0)) mem i mem → isa x regs i (.run p) → Wants tr p mem k a →
      Demands isa tr mem x regs k a

theorem Demands.mono {C : Type} [DecidableEq C] {isa : Isa σ} {tr tr' : Kind → Word → C → Prop}
    {mem : C → BitVec 8} {x : σ} {regs : Regs} {k : Kind} {a : Word}
    (htr : ∀ k a c, tr k a c → tr' k a c) (h : Demands isa tr mem x regs k a) :
    Demands isa tr' mem x regs k a := by
  cases h with
  | fetch hw => exact .fetch (hw.mono htr)
  | data hi hisa hw => exact .data (hi.mono htr) hisa (hw.mono htr)

/-- The first thing that it does is to store at the address. -/
def StoresFirst {α : Type} (p : Prog Kind Word (BitVec 8) α) (a : Word) : Prop :=
  ∃ v next, p = .write .store a v next

structure Mapping where
  frame : ℕ
  entry : Entry

/-- `timecmp` is the deadline that the firmware was last given, `clock` the time that
was last looked at. -/
structure Hart (σ : Type) where
  user : Bool
  csr : Csr → Word
  regs : Regs
  ext : σ
  ram : Ram
  disk : BlockImage
  blockId : Word
  buf : Word
  console : List (BitVec 8)
  clock : Word
  timecmp : Option Word
  tlb : ℕ → Mapping → Prop

namespace Hart

def Bare (satp : Word) : Prop := satp.toNat/2^60 = 0

/-- What the tables say of the page of an address. -/
def found (satp : Word) (ram : Ram) (va : Word) : Option Mapping :=
  if Canonical 39 va then
    match tableWalk satp ram va with
    | .leaf level e => if Misaligned level e then none else some ⟨frame va level e,e⟩
    | _ => none
  else none

variable (h : Hart σ)

def pc : Word := h.regs 0

/-- The entry gives the access: R, W and X by its kind, with MXR also X for a load, U by
the mode, where SUM lets the supervisor in, and A and D as they have to be. -/
def Grants (k : Kind) (e : Entry) : Prop :=
  ((leafProt e).allows k = true ∨
    k = .load ∧ (h.csr .sstatus).getLsbD 19 = true ∧ e.x = true) ∧
  (e.u = h.user ∨ h.user = false ∧ (h.csr .sstatus).getLsbD 18 = true ∧ k ≠ .fetch) ∧
  e.a = true ∧ (k = .store → e.d = true)

/-- The tables refuse the access. A table outside RAM would be no page fault. -/
def Refuses (k : Kind) (va : Word) : Prop :=
  ¬Bare (h.csr .satp) ∧ (¬Canonical 39 va ∨ tableWalk (h.csr .satp) h.ram va ≠ .outside ∧
    ∀ t, found (h.csr .satp) h.ram va = some t → ¬h.Grants k t.entry)

/-- The physical addresses that an access may go to. -/
inductive Address (k : Kind) (va : Word) : ℕ → Prop
  | bare : Bare (h.csr .satp) → Address k va va.toNat
  | mapped {t : Mapping} : ¬Bare (h.csr .satp) → h.tlb (va.toNat/4096) t → h.Grants k t.entry →
      Address k va (t.frame*4096+va.toNat%4096)

/-- The access goes to this byte of RAM. -/
def Cell (k : Kind) (va : Word) (o : ℕ) : Prop :=
  h.Address k va (ramStart.toNat+o) ∧ o < ramSize.toNat

/-- The translations in the tables may be cached from now on. -/
def refill : Hart σ :=
  { h with
    tlb := fun p t => h.tlb p t ∨ ¬Bare (h.csr .satp) ∧
      ∃ va, va.toNat/4096 = p ∧ found (h.csr .satp) h.ram va = some t }

def setReg (r : Fin 32) (v : Word) : Hart σ := { h with regs := Function.update h.regs r v }

def setCsr (c : Csr) (v : Word) : Hart σ := { h with csr := Function.update h.csr c v }

def withBit (w : Word) (i : ℕ) (b : Bool) : Word :=
  if b then w ||| BitVec.twoPow 64 i else w &&& ~~~BitVec.twoPow 64 i

theorem getLsbD_bit {i j : ℕ} (hj : j < 64) : (BitVec.twoPow 64 i).getLsbD j = decide (j = i) := by
  rw [BitVec.getLsbD_twoPow]
  by_cases hji : j = i
  · simp [hji ▸ hj,hji]
  · simp [hji,eq_comm (a:=i)]

theorem getLsbD_withBit (w : Word) {i j : ℕ} (hj : j < 64) (b : Bool) :
    (withBit w i b).getLsbD j = if j = i then b else w.getLsbD j := by
  cases b with
  | false =>
    rw [withBit,if_neg Bool.false_ne_true,BitVec.getLsbD_and,BitVec.getLsbD_not,getLsbD_bit hj]
    by_cases hji : j = i <;> simp [hj,hji]
  | true =>
    rw [withBit,if_pos rfl,BitVec.getLsbD_or,getLsbD_bit hj]
    by_cases hji : j = i <;> simp [hji]

/-- SIE moves to SPIE and the mode to SPP. -/
def trapStatus : Word :=
  let status := h.csr .sstatus
  withBit (withBit (withBit status 1 false) 5 (status.getLsbD 1)) 8 !h.user

def trap (epc cause tval : Word) : Hart σ :=
  { h with
    user := false
    csr := fun c => match c with
      | .sepc => epc
      | .scause => cause
      | .stval => tval
      | .sstatus => h.trapStatus
      | c => h.csr c
    regs := Function.update h.regs 0
      (BitVec.ofNat 64 (vectorAddress (h.csr .stvec).toNat cause.toNat)) }

/-- The timer interrupt is pending and enabled. -/
def InterruptDue : Prop :=
  (h.csr .sip).getLsbD 5 = true ∧ (h.csr .sie).getLsbD 5 = true ∧
    (h.user = true ∨ (h.csr .sstatus).getLsbD 1 = true)

def atTime (time : Word) : Hart σ := { h with clock := time }

def setPending (b : Bool) : Hart σ :=
  h.setCsr .sip (withBit (h.csr .sip) 5 b)

def sbiReturn (v : Word) : Hart σ := (h.setReg 10 v).setReg 0 (h.pc+4)

/-- The legacy calls; a shutdown and a failed read have no result. -/
def sbi (read : ReadResult) : Option (Hart σ) :=
  if h.regs 17 = 0 then
    some (({ h with timecmp := some (h.regs 10) }.setPending
      (decide (h.regs 10 ≤ h.clock))).sbiReturn 0)
  else if h.regs 17 = 1 then
    some ({ h with console := (h.regs 10).setWidth 8 :: h.console }.sbiReturn 0)
  else if h.regs 17 = 2 then
    match read with
    | .wouldBlock => some (h.sbiReturn 0)
    | .byte ch => some (h.sbiReturn (ch.setWidth 64))
    | .failed => none
  else if h.regs 17 = 8 then none
  else some (h.sbiReturn (-2))

/-- What is left of a value that is written over `old`. -/
def legal (old v : Word) : Csr → Word
  | .sstatus => v &&& 0xc0122 ||| old &&& ~~~0xc0122
  | .sie => v &&& 0x20
  | .sip => old
  | .stvec => if v.toNat%4 < 2 then v else v &&& ~~~3
  | .sepc => v &&& ~~~1
  | .satp => if v.toNat/2^60 = 0 ∨ v.toNat/2^60 = 8 then v &&& 0xf0000fffffffffff else old
  | _ => v

def csrs : Zicsr.CsrFile (Csr → Word) 64 where
  read n f := (Csr.ofNumber (BitVec.ofNat 32 n)).map f
  write n v f :=
    match Csr.ofNumber (BitVec.ofNat 32 n) with
    | none => f
    | some c => Function.update f c (legal (f c) v c)

/-- SPIE moves to SIE and is set, and SPP is cleared. -/
def returnStatus : Word :=
  let status := h.csr .sstatus
  withBit (withBit (withBit status 1 (status.getLsbD 5)) 5 true) 8 false

def sret : Hart σ :=
  { h with
    user := !(h.csr .sstatus).getLsbD 8
    csr := Function.update h.csr .sstatus h.returnStatus
    regs := Function.update h.regs 0 (h.csr .sepc) }

/-- The fence drops everything that is cached, or what is cached for one page. -/
def fence (rs1 : ℕ) : Hart σ :=
  { h with
    tlb := fun p t => h.tlb p t ∧ rs1 ≠ 0 ∧ p ≠ (archReg h.regs rs1).toNat/4096
    regs := Function.update h.regs 0 (h.pc+4) }

inductive Privileged (w : BitVec 32) : Hart σ → Prop
  | csr {x : ℕ → Word} {f : Csr → Word} : field 0 7 w = 0b1110011 → field 12 3 w ≠ 0 →
      Zicsr.step csrs w (archReg h.regs) h.csr = some (x,f) →
      Privileged w { h with csr := f, regs := fun r => if r = 0 then h.pc+4 else x r }
  | sret : w = 0x10200073 → Privileged w h.sret
  | wfi : w = 0x10500073 → Privileged w (h.setReg 0 (h.pc+4))
  | sfenceVma : field 0 7 w = 0b1110011 → field 12 3 w = 0 → field 25 7 w = 0b0001001 →
      field 7 5 w = 0 → Privileged w (h.fence (field 15 5 w))

/-- Stores of doublewords to the registers of the device. A transfer goes to the
buffer as the hart's own accesses would. -/
inductive DeviceStore (v : Word) : ℕ → Hart σ → Prop
  | blockId : DeviceStore v 0x10400008 { h with blockId := v }
  | buf : DeviceStore v 0x10400010 { h with buf := v }
  | read {g : ℕ → ℕ} : v = 1 → (∀ j < 512, h.Cell .store (h.buf+BitVec.ofNat 64 j) (g j)) →
      512*h.blockId.toNat+512 ≤ h.disk.size →
      DeviceStore v 0x10400000 { h with
        ram := scatter (fun j => some (g j)) (fun j => h.disk.byte (512*h.blockId.toNat+j)) h.ram 512 }
  | write {g : ℕ → ℕ} : v = 2 → (∀ j < 512, h.Cell .load (h.buf+BitVec.ofNat 64 j) (g j)) →
      512*h.blockId.toNat+512 ≤ h.disk.size →
      DeviceStore v 0x10400000 { h with
        disk := { h.disk with
          byte := fun i =>
            if 512*h.blockId.toNat ≤ i ∧ i < 512*h.blockId.toNat+512 then
              h.ram (g (i-512*h.blockId.toNat))
            else h.disk.byte i } }

def Decodes (i : Instr) : Prop := Finishes h.Cell (fetch h.pc) h.ram i h.ram

inductive Event
  | retire
  | pageFault (k : Kind) (va : Word)
  | ecall
  | sbi (time : Word) (read : ReadResult)
  | illegal
  | privileged
  | device
  | timer (time : Word)
  | interrupt

/-- What the hart does but for taking an interrupt. -/
inductive Exec (isa : Isa σ) (h : Hart σ) : Event → Hart σ → Prop
  | retire {i : Instr} {p : Prog Kind Word (BitVec 8) (σ × Regs)} {x : σ} {regs : Regs} {ram : Ram} :
      h.Decodes i → isa h.ext h.regs i (.run p) → Finishes h.Cell p h.ram (x,regs) ram →
      Exec isa h .retire { h with ext := x, regs := regs, ram := ram }
  | pageFault {k : Kind} {va : Word} : Demands isa h.Cell h.ram h.ext h.regs k va →
      h.Refuses k va → Exec isa h (.pageFault k va) (h.trap h.pc k.cause va)
  | ecall {i : Instr} : h.Decodes i → isa h.ext h.regs i .ecall → h.user = true →
      Exec isa h .ecall (h.trap h.pc 8 0)
  | sbi {h' : Hart σ} {i : Instr} {time : Word} {read : ReadResult} : h.Decodes i →
      isa h.ext h.regs i .ecall → h.user = false → h.clock ≤ time →
      (h.atTime time).sbi read = some h' → Exec isa h (.sbi time read) h'
  | illegal {i : Instr} : h.Decodes i → isa h.ext h.regs i .illegal → h.user = true →
      Exec isa h .illegal (h.trap h.pc 2 0)
  | privileged {h' : Hart σ} {w : BitVec 32} {long : field 0 2 w = 3} : h.Decodes (.word w long) →
      isa h.ext h.regs (.word w long) .illegal → h.user = false → h.Privileged w h' →
      Exec isa h .privileged h'
  | device {h' : Hart σ} {i : Instr} {p : Prog Kind Word (BitVec 8) (σ × Regs)} {r pa : ℕ} {va : Word} :
      h.Decodes i → i.sdSource = some r → isa h.ext h.regs i (.run p) → StoresFirst p va →
      h.Address .store va pa → h.DeviceStore (archReg h.regs r) pa h' →
      Exec isa h .device (h'.setReg 0 (h.pc+Instr.length i))
  | timer {time d : Word} : h.timecmp = some d → d ≤ time → h.clock ≤ time →
      Exec isa h (.timer time) ((h.atTime time).setPending true)

/-- An interrupt is taken as soon as it is due. -/
inductive Step (isa : Isa σ) : Hart σ → Event → Hart σ → Prop
  | exec {h h' : Hart σ} {e : Event} : ¬h.InterruptDue → Exec isa h e h' → Step isa h e h'.refill
  | interrupt {h : Hart σ} : h.InterruptDue →
      Step isa h .interrupt (h.trap h.pc 0x8000000000000005 0).refill

def reset (b : BootData) (x : σ) : Hart σ where
  user := false
  csr := fun c => if c = .sstatus then 0x800000000001e000 else 0
  regs := Function.update b.regs 0 kernelStart
  ext := x
  ram := copyKernel b.kernel b.kernelSize.toNat fun _ => 0
  disk := b.block
  blockId := 0
  buf := 0
  console := []
  clock := 0
  timecmp := none
  tlb := fun _ _ => False

end Hart

end Urvirt
