import Mathlib.Tactic

/-!
# Classic BPF

The instructions a socket or seccomp filter may use to look at its read-only
data: absolute word loads, forward conditional jumps on a constant and returns.
Codes are those of `linux/filter.h`; every other code is refused. Loads are
little-endian, as `seccomp_data` is on the machines considered here.
-/

namespace Urvirt
namespace ClassicBpf

/-- `struct sock_filter`. -/
structure SockFilter where
  code : BitVec 16
  jt : BitVec 8
  jf : BitVec 8
  k : BitVec 32
  deriving DecidableEq, Repr

def bpfLd : BitVec 16 := 0x00
def bpfW : BitVec 16 := 0x00
def bpfAbs : BitVec 16 := 0x20
def bpfJmp : BitVec 16 := 0x05
def bpfJeq : BitVec 16 := 0x10
def bpfJgt : BitVec 16 := 0x20
def bpfJge : BitVec 16 := 0x30
def bpfRet : BitVec 16 := 0x06
def bpfK : BitVec 16 := 0x00

def stmt (code : BitVec 16) (k : BitVec 32) : SockFilter := ⟨code,0,0,k⟩

def jump (code : BitVec 16) (k : BitVec 32) (jt jf : BitVec 8) : SockFilter := ⟨code,jt,jf,k⟩

/-- How a filter run ends; all but `ret` are refused by the kernel's verifier. -/
inductive Outcome
  | ret (k : BitVec 32)
  | leftProgram
  | illegalInstruction
  | outOfFuel
  deriving DecidableEq, Repr

/-- What one instruction does: end the run, or move to an instruction with an accumulator. -/
inductive Next
  | stop (o : Outcome)
  | goto (pc : ℕ) (acc : BitVec 32)
  deriving DecidableEq, Repr

def loadWord (data : ℕ → BitVec 8) (off : ℕ) : BitVec 32 :=
  data (off+3) ++ data (off+2) ++ data (off+1) ++ data off

/-- Jump offsets count from the instruction after the jump. -/
def branch (pc : ℕ) (acc : BitVec 32) (i : SockFilter) (taken : Bool) : Next :=
  .goto (pc+1+(if taken then i.jt else i.jf).toNat) acc

def step (data : ℕ → BitVec 8) (prog : List SockFilter) (pc : ℕ) (acc : BitVec 32) : Next :=
  match prog[pc]? with
  | none => .stop .leftProgram
  | some i =>
    if i.code = bpfLd ||| bpfW ||| bpfAbs then .goto (pc+1) (loadWord data i.k.toNat)
    else if i.code = bpfJmp ||| bpfJeq then branch pc acc i (acc == i.k)
    else if i.code = bpfJmp ||| bpfJgt then branch pc acc i (decide (i.k < acc))
    else if i.code = bpfJmp ||| bpfJge then branch pc acc i (decide (i.k ≤ acc))
    else if i.code = bpfRet ||| bpfK then .stop (.ret i.k)
    else .stop .illegalInstruction

def runFrom (data : ℕ → BitVec 8) (prog : List SockFilter) : ℕ → ℕ → BitVec 32 → Outcome
  | 0, _, _ => .outOfFuel
  | fuel+1, pc, acc =>
    match step data prog pc acc with
    | .stop o => o
    | .goto pc acc => runFrom data prog fuel pc acc

/-- A filter starts at instruction 0 with a zero accumulator. Jumps only go
forward, so as many steps as there are instructions suffice. -/
def run (data : ℕ → BitVec 8) (prog : List SockFilter) : Outcome := runFrom data prog prog.length 0 0

section Rules

variable {data : ℕ → BitVec 8} {prog : List SockFilter} {pc fuel : ℕ} {acc k : BitVec 32}
  {jt jf : BitVec 8}

theorem runFrom_branch {i : SockFilter} {taken : Bool}
    (h : step data prog pc acc = branch pc acc i taken) :
    runFrom data prog (fuel+1) pc acc =
      if taken = true then runFrom data prog fuel (pc+1+i.jt.toNat) acc
      else runFrom data prog fuel (pc+1+i.jf.toNat) acc := by
  rw [runFrom,h]
  cases taken <;> rfl

theorem runFrom_ld (h : prog[pc]? = some (stmt (bpfLd ||| bpfW ||| bpfAbs) k)) :
    runFrom data prog (fuel+1) pc acc =
      runFrom data prog fuel (pc+1) (loadWord data k.toNat) := by
  rw [runFrom,step,h]
  rfl

theorem runFrom_ret (h : prog[pc]? = some (stmt (bpfRet ||| bpfK) k)) :
    runFrom data prog (fuel+1) pc acc = .ret k := by
  rw [runFrom,step,h]
  rfl

theorem runFrom_jeq (h : prog[pc]? = some (jump (bpfJmp ||| bpfJeq) k jt jf)) :
    runFrom data prog (fuel+1) pc acc =
      if acc = k then runFrom data prog fuel (pc+1+jt.toNat) acc
      else runFrom data prog fuel (pc+1+jf.toNat) acc := by
  have hs : step data prog pc acc = branch pc acc (jump (bpfJmp ||| bpfJeq) k jt jf) (acc == k) := by
    rw [step,h]; rfl
  rw [runFrom_branch hs]
  simp only [beq_iff_eq]
  rfl

theorem runFrom_jgt (h : prog[pc]? = some (jump (bpfJmp ||| bpfJgt) k jt jf)) :
    runFrom data prog (fuel+1) pc acc =
      if k < acc then runFrom data prog fuel (pc+1+jt.toNat) acc
      else runFrom data prog fuel (pc+1+jf.toNat) acc := by
  have hs : step data prog pc acc =
      branch pc acc (jump (bpfJmp ||| bpfJgt) k jt jf) (decide (k < acc)) := by
    rw [step,h]; rfl
  rw [runFrom_branch hs]
  simp only [decide_eq_true_eq]
  rfl

theorem runFrom_jge (h : prog[pc]? = some (jump (bpfJmp ||| bpfJge) k jt jf)) :
    runFrom data prog (fuel+1) pc acc =
      if k ≤ acc then runFrom data prog fuel (pc+1+jt.toNat) acc
      else runFrom data prog fuel (pc+1+jf.toNat) acc := by
  have hs : step data prog pc acc =
      branch pc acc (jump (bpfJmp ||| bpfJge) k jt jf) (decide (k ≤ acc)) := by
    rw [step,h]; rfl
  rw [runFrom_branch hs]
  simp only [decide_eq_true_eq]
  rfl

end Rules

theorem loadWord_eq {data : ℕ → BitVec 8} {off : ℕ} {x : BitVec 32}
    (h : ∀ i, i < 4 → data (off+i) = x.extractLsb' (8*i) 8) : loadWord data off = x := by
  have h0 := h 0 (by decide)
  have h1 := h 1 (by decide)
  have h2 := h 2 (by decide)
  have h3 := h 3 (by decide)
  rw [Nat.add_zero] at h0
  rw [loadWord,h0,h1,h2,h3]
  apply BitVec.eq_of_getLsbD_eq
  intro i hi
  simp only [BitVec.getLsbD_append,BitVec.getLsbD_extractLsb']
  split_ifs with h8 h16 h24
  · simp [h8]
  · rw [show 8*1+(i-8) = i by omega]; simp [h16]
  · rw [show 8*2+(i-8-8) = i by omega]; simp [h24]
  · rw [show 8*3+(i-8-8-8) = i by omega]; simp; omega

end ClassicBpf
end Urvirt
