import Urvirt.ClassicBpf
import Urvirt.RiscvBits

/-!
# The address filter on host system calls

`gen_addr_filter` compiles a 64-bit range test into a classic BPF program of
32-bit comparisons (`urvirt-stub/seccomp-bpf.c`). `entrypoint_1` installs it over
the stub, so that an `ecall` outside the stub becomes a `SIGSYS`.
-/

namespace Urvirt
namespace SeccompBpf

open ClassicBpf

def seccompRetAllow : BitVec 32 := 0x7fff0000
def seccompRetTrap : BitVec 32 := 0x00030000

/-- `struct seccomp_data` of `linux/seccomp.h`. -/
structure SeccompData where
  nr : BitVec 32
  arch : BitVec 32
  instructionPointer : Word
  args : Fin 6 → Word

/-- Its bytes in memory order, as a filter reads them. -/
def SeccompData.byte (d : SeccompData) (off : ℕ) : BitVec 8 :=
  if off < 4 then d.nr.extractLsb' (8*off) 8
  else if off < 8 then d.arch.extractLsb' (8*(off-4)) 8
  else if off < 16 then d.instructionPointer.extractLsb' (8*(off-8)) 8
  else (d.args (Fin.ofNat 6 ((off-16)/8))).extractLsb' (8*((off-16)%8)) 8

def scIpLow : BitVec 32 := 8
def scIpHigh : BitVec 32 := scIpLow+4

def loadHigh : SockFilter := stmt (bpfLd ||| bpfW ||| bpfAbs) scIpHigh
def loadLow : SockFilter := stmt (bpfLd ||| bpfW ||| bpfAbs) scIpLow

def genAddrFilter (startAddr endAddr : Word) : List SockFilter :=
  let startAddrHigh := (startAddr >>> 32).setWidth 32
  let startAddrLow := startAddr.setWidth 32
  let endAddrHigh := (endAddr >>> 32).setWidth 32
  let endAddrLow := endAddr.setWidth 32
  [ loadHigh,
    jump (bpfJmp ||| bpfJeq) startAddrHigh 0 2,
    loadLow,
    jump (bpfJmp ||| bpfJge) startAddrLow 1 7,
    jump (bpfJmp ||| bpfJgt) startAddrHigh 0 6,
    loadHigh,
    jump (bpfJmp ||| bpfJeq) endAddrHigh 0 2,
    loadLow,
    jump (bpfJmp ||| bpfJge) endAddrLow 2 1,
    jump (bpfJmp ||| bpfJgt) endAddrHigh 1 0,
    stmt (bpfRet ||| bpfK) seccompRetAllow,
    stmt (bpfRet ||| bpfK) seccompRetTrap ]

theorem loadWord_low (d : SeccompData) :
    loadWord d.byte scIpLow.toNat = d.instructionPointer.setWidth 32 := by
  apply loadWord_eq
  intro i hi
  have h8 : scIpLow.toNat = 8 := rfl
  have h0 : ¬8+i < 4 ∧ ¬8+i < 8 ∧ 8+i < 16 := by omega
  rw [h8,SeccompData.byte,if_neg h0.1,if_neg h0.2.1,if_pos h0.2.2,Nat.add_sub_cancel_left]
  apply BitVec.eq_of_getLsbD_eq
  intro j hj
  have hb : 8*i+j < 32 := by omega
  simp [hj,hb]

theorem loadWord_high (d : SeccompData) :
    loadWord d.byte scIpHigh.toNat = (d.instructionPointer >>> 32).setWidth 32 := by
  apply loadWord_eq
  intro i hi
  have h12 : scIpHigh.toNat = 12 := rfl
  have h0 : ¬12+i < 4 ∧ ¬12+i < 8 ∧ 12+i < 16 := by omega
  rw [h12,SeccompData.byte,if_neg h0.1,if_neg h0.2.1,if_pos h0.2.2]
  apply BitVec.eq_of_getLsbD_eq
  intro j hj
  have hb : 8*i+j < 32 := by omega
  have he : 8*(12+i-8)+j = 32+(8*i+j) := by omega
  simp [hj,hb,he]

theorem toNat_halves (x : Word) :
    x.toNat = ((x >>> 32).setWidth 32).toNat*2^32+(x.setWidth 32).toNat := by
  have hx := x.isLt
  simp only [BitVec.toNat_setWidth,BitVec.toNat_ushiftRight,Nat.shiftRight_eq_div_pow]
  omega

theorem lt_iff_halves (x y : Word) :
    x < y ↔ (x >>> 32).setWidth 32 < (y >>> 32).setWidth 32 ∨
      (x >>> 32).setWidth 32 = (y >>> 32).setWidth 32 ∧ x.setWidth 32 < y.setWidth 32 := by
  have hx := toNat_halves x
  have hy := toNat_halves y
  have hxl := (x.setWidth 32).isLt
  have hyl := (y.setWidth 32).isLt
  simp only [BitVec.lt_def,← BitVec.toNat_inj]
  omega

section Range

variable (startAddr endAddr : Word) (d : SeccompData)

theorem genAddrFilter_allow (fuel : ℕ) (acc : BitVec 32) :
    runFrom d.byte (genAddrFilter startAddr endAddr) (fuel+1) 10 acc = .ret seccompRetAllow :=
  runFrom_ret rfl

theorem genAddrFilter_trap (fuel : ℕ) (acc : BitVec 32) :
    runFrom d.byte (genAddrFilter startAddr endAddr) (fuel+1) 11 acc = .ret seccompRetTrap :=
  runFrom_ret rfl

/-- Instructions 5 to 9 compare with the end, whatever the accumulator held. -/
theorem genAddrFilter_end (fuel : ℕ) (acc : BitVec 32) :
    runFrom d.byte (genAddrFilter startAddr endAddr) (fuel+5) 5 acc =
      .ret (if d.instructionPointer < endAddr then seccompRetAllow else seccompRetTrap) := by
  have hlt := lt_iff_halves d.instructionPointer endAddr
  rw [runFrom_ld rfl,loadWord_high,runFrom_jeq rfl]
  by_cases heq : (d.instructionPointer >>> 32).setWidth 32 = (endAddr >>> 32).setWidth 32
  · simp only [heq,BitVec.lt_irrefl,false_or,true_and] at hlt
    rw [if_pos heq,runFrom_ld rfl,loadWord_low,runFrom_jge rfl]
    by_cases hl : d.instructionPointer.setWidth 32 < endAddr.setWidth 32
    · rw [if_neg (BitVec.not_le.mpr hl),if_pos (hlt.mpr hl)]
      exact genAddrFilter_allow startAddr endAddr d _ _
    · rw [if_pos (BitVec.not_lt.mp hl),if_neg (fun h => hl (hlt.mp h))]
      exact genAddrFilter_trap startAddr endAddr d _ _
  · simp only [heq,false_and,or_false] at hlt
    rw [if_neg heq,runFrom_jgt rfl]
    by_cases hh : (d.instructionPointer >>> 32).setWidth 32 < (endAddr >>> 32).setWidth 32
    · rw [if_neg (BitVec.not_lt.mpr (BitVec.le_of_lt hh)),if_pos (hlt.mpr hh)]
      exact genAddrFilter_allow startAddr endAddr d _ _
    · have hgt : (endAddr >>> 32).setWidth 32 < (d.instructionPointer >>> 32).setWidth 32 :=
        BitVec.lt_of_le_ne (BitVec.not_lt.mp hh) (Ne.symm heq)
      rw [if_pos hgt,if_neg (fun h => hh (hlt.mp h))]
      exact genAddrFilter_trap startAddr endAddr d _ _

/-- Instructions 0 to 4 compare with the start and go on to the end test or trap. -/
theorem run_genAddrFilter :
    run d.byte (genAddrFilter startAddr endAddr) =
      .ret (if startAddr ≤ d.instructionPointer ∧ d.instructionPointer < endAddr
        then seccompRetAllow else seccompRetTrap) := by
  have hlt := lt_iff_halves d.instructionPointer startAddr
  have hend := fun fuel => genAddrFilter_end startAddr endAddr d fuel
  change runFrom d.byte (genAddrFilter startAddr endAddr) 12 0 0 = _
  rw [runFrom_ld rfl,loadWord_high,runFrom_jeq rfl]
  by_cases heq : (d.instructionPointer >>> 32).setWidth 32 = (startAddr >>> 32).setWidth 32
  · simp only [heq,BitVec.lt_irrefl,false_or,true_and] at hlt
    rw [if_pos heq,runFrom_ld rfl,loadWord_low,runFrom_jge rfl]
    by_cases hl : d.instructionPointer.setWidth 32 < startAddr.setWidth 32
    · rw [if_neg (BitVec.not_le.mpr hl),
        if_neg (fun h => BitVec.not_le.mpr (hlt.mpr hl) h.1)]
      exact genAddrFilter_trap startAddr endAddr d _ _
    · rw [if_pos (BitVec.not_lt.mp hl)]
      have hge : startAddr ≤ d.instructionPointer := BitVec.not_lt.mp (fun h => hl (hlt.mp h))
      simp only [hge,true_and]
      exact hend 3 _
  · simp only [heq,false_and,or_false] at hlt
    rw [if_neg heq,runFrom_jgt rfl]
    by_cases hh : (d.instructionPointer >>> 32).setWidth 32 < (startAddr >>> 32).setWidth 32
    · rw [if_neg (BitVec.not_lt.mpr (BitVec.le_of_lt hh)),
        if_neg (fun h => BitVec.not_le.mpr (hlt.mpr hh) h.1)]
      exact genAddrFilter_trap startAddr endAddr d _ _
    · have hgt : (startAddr >>> 32).setWidth 32 < (d.instructionPointer >>> 32).setWidth 32 :=
        BitVec.lt_of_le_ne (BitVec.not_lt.mp hh) (Ne.symm heq)
      have hge : startAddr ≤ d.instructionPointer := BitVec.not_lt.mp (fun h => hh (hlt.mp h))
      rw [if_pos hgt]
      simp only [hge,true_and]
      exact hend 4 _

/-- The twelve instructions decide exactly the half-open 64-bit range. -/
theorem genAddrFilter_decides_range :
    (genAddrFilter startAddr endAddr).length = 12 ∧
    run d.byte (genAddrFilter startAddr endAddr) =
      .ret (if startAddr ≤ d.instructionPointer ∧ d.instructionPointer < endAddr
        then seccompRetAllow else seccompRetTrap) :=
  ⟨rfl,run_genAddrFilter startAddr endAddr d⟩

end Range

/-- What the filter of `entrypoint_1` decides for an `ecall` at `a`. -/
def ecallVerdict (stubStart stubSize a : Word) (d : SeccompData) : Outcome :=
  run { d with instructionPointer := a+4 }.byte (genAddrFilter stubStart (stubStart+stubSize))

/-- Exactly the `ecall`s of the stub reach the host; all others trap. -/
def OnlyStubEcalls (stubStart stubSize a : Word) (d : SeccompData) : Prop :=
  (ecallVerdict stubStart stubSize a d = .ret seccompRetAllow ↔
    stubStart ≤ a ∧ a < stubStart+stubSize) ∧
  (¬(stubStart ≤ a ∧ a < stubStart+stubSize) →
    ecallVerdict stubStart stubSize a d = .ret seccompRetTrap)

theorem ecallVerdict_eq (stubStart stubSize a : Word) (d : SeccompData) :
    ecallVerdict stubStart stubSize a d =
      .ret (if stubStart ≤ a+4 ∧ a+4 < stubStart+stubSize then seccompRetAllow else seccompRetTrap) :=
  run_genAddrFilter stubStart (stubStart+stubSize) { d with instructionPointer := a+4 }

theorem onlyStubEcalls_iff_shift (stubStart stubSize a : Word) (d : SeccompData) :
    OnlyStubEcalls stubStart stubSize a d ↔
      (stubStart ≤ a+4 ∧ a+4 < stubStart+stubSize ↔ stubStart ≤ a ∧ a < stubStart+stubSize) := by
  have hne : seccompRetTrap ≠ seccompRetAllow := by decide
  rw [OnlyStubEcalls,ecallVerdict_eq]
  by_cases h : stubStart ≤ a+4 ∧ a+4 < stubStart+stubSize
  · rw [if_pos h]
    constructor
    · rintro ⟨hp,-⟩
      exact ⟨fun _ => hp.mp rfl,fun _ => h⟩
    · intro hp
      exact ⟨⟨fun _ => hp.mp h,fun _ => rfl⟩,fun hn => absurd (hp.mp h) hn⟩
  · rw [if_neg h]
    constructor
    · rintro ⟨hp,-⟩
      exact ⟨fun h' => absurd h' h,fun h' => absurd (Outcome.ret.inj (hp.mpr h')) hne⟩
    · intro hp
      exact ⟨⟨fun h' => absurd (Outcome.ret.inj h') hne,fun h' => absurd (hp.mpr h') h⟩,fun _ => rfl⟩

/-- Shifting by four is visible only in the four bytes below the range and in its last four. -/
theorem shift_mem_iff {first last a : Word} (hf : first.toNat % 4096 = 0)
    (hl : last.toNat % 4096 = 0) :
    ((first ≤ a+4 ∧ a+4 < last) ↔ (first ≤ a ∧ a < last)) ↔
      (last ≤ first ∨ (¬(first ≤ a+4 ∧ a+4 < first+4) ∧ ¬(last-4 ≤ a ∧ a < last))) := by
  have ha := a.isLt
  have hflt := first.isLt
  have hllt := last.isLt
  simp only [BitVec.le_def,BitVec.lt_def,BitVec.toNat_add,BitVec.toNat_sub]
  have h4 : (4 : Word).toNat = 4 := rfl
  rw [h4]
  omega

/-- An `ecall` is let through exactly when it is in the stub, except in the four
bytes just below the stub and in the last four bytes of it. -/
theorem onlyStubEcalls_iff {stubStart stubSize : Word} (hstart : stubStart.toNat % 4096 = 0)
    (hsize : stubSize.toNat % 4096 = 0) (a : Word) (d : SeccompData) :
    OnlyStubEcalls stubStart stubSize a d ↔
      (stubStart+stubSize ≤ stubStart ∨
        (¬(stubStart ≤ a+4 ∧ a+4 < stubStart+4) ∧
          ¬(stubStart+stubSize-4 ≤ a ∧ a < stubStart+stubSize))) := by
  have hend : (stubStart+stubSize).toNat % 4096 = 0 := by
    rw [BitVec.toNat_add]; omega
  rw [onlyStubEcalls_iff_shift,shift_mem_iff hstart hend]

theorem onlyStubEcalls_inside :
    OnlyStubEcalls 0x3ff7f40000 0x6000 0x3ff7f40100 ⟨93,0xc00000f3,0,fun _ => 0⟩ :=
  (onlyStubEcalls_iff (by decide) (by decide) _ _).mpr (by decide)

/-- The last instruction slot below the stub is let through to the host. -/
theorem ecall_below_stub_allowed :
    ¬OnlyStubEcalls 0x3ff7f40000 0x6000 0x3ff7f3fffc ⟨93,0xc00000f3,0,fun _ => 0⟩ := by
  intro h
  have ha : ecallVerdict 0x3ff7f40000 0x6000 0x3ff7f3fffc ⟨93,0xc00000f3,0,fun _ => 0⟩ =
      .ret seccompRetAllow := by decide
  exact absurd (h.1.mp ha) (by decide)

end SeccompBpf
end Urvirt
