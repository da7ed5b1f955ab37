import Urvirt.Rv64gc

/-!
# CSR instructions

The six instructions of Zicsr over any set of control and status registers. What
may be written to a register is up to the registers.
-/

namespace Urvirt
namespace Zicsr

open Rv64gc

inductive Op
  | rw | rs | rc
  deriving DecidableEq

/-- The source is the number `rs1` itself if `imm`, else the register with that number. -/
structure Instr where
  op : Op
  imm : Bool
  rd : ℕ
  rs1 : ℕ
  csr : ℕ

def Op.code : Op → ℕ
  | .rw => 0b01
  | .rs => 0b10
  | .rc => 0b11

def Op.ofFunct3 (f : ℕ) : Option Op :=
  if f%4 = 0b01 then some .rw
  else if f%4 = 0b10 then some .rs
  else if f%4 = 0b11 then some .rc
  else none

def decode (w : BitVec 32) : Option Instr :=
  (Op.ofFunct3 (field 12 3 w)).map fun op =>
    ⟨op,decide (4 ≤ field 12 3 w),field 7 5 w,field 15 5 w,field 20 12 w⟩

variable {n : ℕ} {σ : Type}

def Op.combine : Op → BitVec n → BitVec n → BitVec n
  | .rw, _, src => src
  | .rs, old, src => old ||| src
  | .rc, old, src => old &&& ~~~src

namespace Instr

variable (i : Instr)

/-- `x0` is zero whatever `x 0` is. -/
def src (x : ℕ → BitVec n) : BitVec n :=
  if i.imm then BitVec.ofNat n i.rs1 else if i.rs1 = 0 then 0 else x i.rs1

/-- Setting or clearing nothing is no write. -/
def Writes : Prop := i.op = .rw ∨ i.rs1 ≠ 0

instance : Decidable i.Writes := inferInstanceAs (Decidable (_ ∨ _))

def setRd (old : BitVec n) (x : ℕ → BitVec n) (r : ℕ) : BitVec n :=
  if r = i.rd ∧ r ≠ 0 then old else x r

end Instr

/-- Control and status registers: `read` fails for a number that has none, and
`write` puts a legal value in place of the one it is given. -/
structure CsrFile (σ : Type) (n : ℕ) where
  read : ℕ → σ → Option (BitVec n)
  write : ℕ → BitVec n → σ → σ

def exec (file : CsrFile σ n) (i : Instr) (x : ℕ → BitVec n) (s : σ) :
    Option ((ℕ → BitVec n) × σ) :=
  (file.read i.csr s).map fun old =>
    (i.setRd old x,if i.Writes then file.write i.csr (i.op.combine old (i.src x)) s else s)

/-- The word as an instruction on the registers, `none` if there is no such instruction. -/
def step (file : CsrFile σ n) (w : BitVec 32) (x : ℕ → BitVec n) (s : σ) :
    Option ((ℕ → BitVec n) × σ) :=
  (decode w).bind fun i => exec file i x s

theorem ofFunct3_eq_some {f : ℕ} {op : Op} : Op.ofFunct3 f = some op ↔ f%4 = op.code := by
  simp only [Op.ofFunct3]
  cases op <;> simp only [Op.code] <;> split_ifs <;> simp <;> omega

theorem ofFunct3_eq_none {f : ℕ} : Op.ofFunct3 f = none ↔ f%4 = 0 := by
  simp only [Op.ofFunct3]
  split_ifs <;> simp <;> omega

theorem exec_eq_none {file : CsrFile σ n} {i : Instr} {x : ℕ → BitVec n} {s : σ} :
    exec file i x s = none ↔ file.read i.csr s = none := by
  rw [exec,Option.map_eq_none_iff]

theorem step_eq_none {file : CsrFile σ n} {w : BitVec 32} {x : ℕ → BitVec n} {s : σ} :
    step file w x s = none ↔ field 12 3 w%4 = 0 ∨ file.read (field 20 12 w) s = none := by
  cases h : Op.ofFunct3 (field 12 3 w) with
  | none => simp [step,decode,h,ofFunct3_eq_none.mp h]
  | some op =>
    have hne : field 12 3 w%4 ≠ 0 := by
      rw [Ne,← ofFunct3_eq_none,h]
      exact Option.some_ne_none op
    simp [step,decode,h,exec_eq_none,hne]

end Zicsr
end Urvirt
