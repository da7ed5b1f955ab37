import Mathlib.Tactic

/-!
# Instructions of RV64GC that access memory

The loads, stores and atomics of the base, A, F and D instruction sets and the
loads and stores of the compressed one, each given by the fields that encode it.
-/

namespace Urvirt
namespace Rv64gc

def field {n : ℕ} (start width : ℕ) (w : BitVec n) : ℕ := w.toNat/2^start%2^width

theorem field_setWidth {n k start width : ℕ} (h : start+width ≤ k) (w : BitVec n) :
    field start width (w.setWidth k) = field start width w := by
  apply Nat.eq_of_testBit_eq
  intro i
  simp only [field,BitVec.toNat_setWidth,Nat.testBit_mod_two_pow,Nat.testBit_div_two_pow]
  by_cases hi : i < width
  · simp [hi,show i+start < k by omega]
  · simp [hi]

theorem field_zero {n width : ℕ} (w : BitVec n) : field 0 width w = w.toNat%2^width := by
  simp [field]

inductive Access
  | load | store
  deriving DecidableEq

inductive AmoOp
  | swap | add | xor | and | or | min | max | minu | maxu
  deriving DecidableEq

inductive WordInstr
  | lb | lh | lw | ld | lbu | lhu | lwu | flw | fld
  | sb | sh | sw | sd | fsw | fsd
  | lr (double : Bool) | sc (double : Bool) | amo (op : AmoOp) (double : Bool)
  deriving DecidableEq

def AmoOp.funct5 : AmoOp → ℕ
  | .add => 0b00000
  | .swap => 0b00001
  | .xor => 0b00100
  | .or => 0b01000
  | .and => 0b01100
  | .min => 0b10000
  | .max => 0b10100
  | .minu => 0b11000
  | .maxu => 0b11100

namespace WordInstr

def opcode : WordInstr → ℕ
  | lb | lh | lw | ld | lbu | lhu | lwu => 0b0000011
  | flw | fld => 0b0000111
  | sb | sh | sw | sd => 0b0100011
  | fsw | fsd => 0b0100111
  | lr _ | sc _ | amo _ _ => 0b0101111

def funct3 : WordInstr → ℕ
  | lb | sb => 0b000
  | lh | sh => 0b001
  | lw | flw | sw | fsw => 0b010
  | ld | fld | sd | fsd => 0b011
  | lbu => 0b100
  | lhu => 0b101
  | lwu => 0b110
  | lr double | sc double | amo _ double => if double then 0b011 else 0b010

def funct5 : WordInstr → Option ℕ
  | lr _ => some 0b00010
  | sc _ => some 0b00011
  | amo op _ => some op.funct5
  | _ => none

/-- `LR` has no second source register. -/
def rs2 : WordInstr → Option ℕ
  | lr _ => some 0
  | _ => none

structure Encodes (i : WordInstr) (w : BitVec 32) : Prop where
  opcode : field 0 7 w = i.opcode
  funct3 : field 12 3 w = i.funct3
  funct5 : ∀ f, i.funct5 = some f → field 27 5 w = f
  rs2 : ∀ r, i.rs2 = some r → field 20 5 w = r

theorem Encodes.long {i : WordInstr} {w : BitVec 32} (h : i.Encodes w) : field 0 2 w = 3 := by
  have hop : w.toNat%2^7 = i.opcode := (field_zero w).symm.trans h.opcode
  have hlow : i.opcode%4 = 3 := by cases i <;> simp [WordInstr.opcode]
  rw [field_zero]
  omega

def access : WordInstr → Access
  | lb | lh | lw | ld | lbu | lhu | lwu | flw | fld | lr _ => .load
  | sb | sh | sw | sd | fsw | fsd | sc _ | amo _ _ => .store

end WordInstr

inductive HalfInstr
  | cfld | clw | cld | cfsd | csw | csd
  | cfldsp | clwsp | cldsp | cfsdsp | cswsp | csdsp
  deriving DecidableEq

namespace HalfInstr

def quadrant : HalfInstr → ℕ
  | cfld | clw | cld | cfsd | csw | csd => 0b00
  | cfldsp | clwsp | cldsp | cfsdsp | cswsp | csdsp => 0b10

def funct3 : HalfInstr → ℕ
  | cfld | cfldsp => 0b001
  | clw | clwsp => 0b010
  | cld | cldsp => 0b011
  | cfsd | cfsdsp => 0b101
  | csw | cswsp => 0b110
  | csd | csdsp => 0b111

/-- `c.lwsp` and `c.ldsp` are reserved with `rd = x0`. -/
def needsRd : HalfInstr → Bool
  | clwsp | cldsp => true
  | _ => false

structure Encodes (i : HalfInstr) (h : BitVec 16) : Prop where
  quadrant : field 0 2 h = i.quadrant
  funct3 : field 13 3 h = i.funct3
  rd : i.needsRd = true → field 7 5 h ≠ 0

theorem Encodes.short {i : HalfInstr} {h : BitVec 16} (hi : i.Encodes h) : field 0 2 h ≠ 3 := by
  rw [hi.quadrant]
  cases i <;> decide

def access : HalfInstr → Access
  | cfld | clw | cld | cfldsp | clwsp | cldsp => .load
  | cfsd | csw | csd | cfsdsp | cswsp | csdsp => .store

end HalfInstr

/-- The lowest two bits tell a compressed instruction from a longer one. -/
inductive Instr
  | half (h : BitVec 16) (short : field 0 2 h ≠ 3)
  | word (w : BitVec 32) (long : field 0 2 w = 3)

/-- The source register of a doubleword store: `sd`, `c.sd` or `c.sdsp`. -/
def Instr.sdSource : Instr → Option ℕ
  | .half h _ =>
    if field 0 2 h = 0b00 ∧ field 13 3 h = 0b111 then some (field 2 3 h+8)
    else if field 0 2 h = 0b10 ∧ field 13 3 h = 0b111 then some (field 2 5 h)
    else none
  | .word w _ => if field 0 7 w = 0b0100011 ∧ field 12 3 w = 0b011 then some (field 20 5 w) else none

def Instr.firstByte : Instr → BitVec 8
  | .half h _ => h.setWidth 8
  | .word w _ => w.setWidth 8

/-- The instruction has 32 bits; in longer ones the lowest five bits are set. -/
def Instr.IsWord : Instr → Prop
  | .half _ _ => False
  | .word w _ => field 0 5 w ≠ 0b11111

def Instr.AccessesMemory : Instr → Prop
  | .half h _ => ∃ i : HalfInstr, i.Encodes h
  | .word w _ => ∃ i : WordInstr, i.Encodes w

end Rv64gc
end Urvirt
