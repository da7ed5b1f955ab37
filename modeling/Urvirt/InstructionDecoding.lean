import Urvirt.FaultResolution
import Urvirt.Rv64gc

/-!
# The two instruction decoders

`handler` decodes the instruction at the pc to guess the cause of a page fault, and
`decode_sd` decodes it again to emulate a store. Both are compared with the
encodings of RV64GC, word by word.
-/

namespace Urvirt

open Bitfield Rv64gc Transition

section Bytes

variable {env : Host} {m : Machine} {a : Word}

theorem deref8_of_deref16 {h : BitVec 16} (hd : deref16 env m a = .ok h) :
    deref8 env m a = .ok (h.setWidth 8) := by
  obtain ⟨b₀,h₀,hd⟩ := bind_ok.mp hd
  obtain ⟨b₁,-,hd⟩ := bind_ok.mp hd
  cases hd
  rw [h₀,BitVec.setWidth_append_eq_right]

theorem deref16_of_deref32 {w : BitVec 32} (hd : deref32 env m a = .ok w) :
    deref16 env m a = .ok (w.setWidth 16) := by
  obtain ⟨b₀,h₀,hd⟩ := bind_ok.mp hd
  obtain ⟨b₁,h₁,hd⟩ := bind_ok.mp hd
  obtain ⟨b₂,-,hd⟩ := bind_ok.mp hd
  obtain ⟨b₃,-,hd⟩ := bind_ok.mp hd
  cases hd
  have hlow : (b₃ ++ b₂ ++ b₁ ++ b₀).setWidth 16 = b₁ ++ b₀ := by
    rw [BitVec.append_assoc]
    exact BitVec.setWidth_append_eq_right
  rw [hlow]
  exact bind_ok.mpr ⟨b₀,h₀,bind_ok.mpr ⟨b₁,h₁,rfl⟩⟩

theorem deref8_of_deref32 {w : BitVec 32} (hd : deref32 env m a = .ok w) :
    deref8 env m a = .ok (w.setWidth 8) := by
  rw [deref8_of_deref16 (deref16_of_deref32 hd)]
  simp

end Bytes

/-- The instruction at the pc, all of it readable. -/
def Holds (env : Host) (m : Machine) : Instr → Prop
  | .half h _ => deref16 env m m.pc = .ok h
  | .word w _ => deref32 env m m.pc = .ok w

instance (env : Host) (m : Machine) : DecidablePred (Holds env m)
  | .half h _ => inferInstanceAs (Decidable (deref16 env m m.pc = .ok h))
  | .word w _ => inferInstanceAs (Decidable (deref32 env m m.pc = .ok w))

def faultCause : Access → Word
  | .load => scauseLoadPf
  | .store => scauseStorePf

theorem low_bits {n k : ℕ} (width : ℕ) (hk : width ≤ k) (w : BitVec n) {y : BitVec k}
    (hy : y.toNat = 2^width-1) : (w.setWidth k &&& y).toNat = field 0 width w := by
  rw [(and_eq_iff hy).mp rfl |>.symm,← field_zero,field_setWidth (by omega)]

theorem half_funct3 (h v : BitVec 16) : h >>> 13 = v ↔ field 13 3 h = v.toNat := by
  have hlt : h.toNat/2^13 < 2^3 := by
    have := h.isLt
    omega
  rw [← BitVec.toNat_inj,BitVec.toNat_ushiftRight,Nat.shiftRight_eq_div_pow,field,
    Nat.mod_eq_of_lt hlt]

theorem half_quadrant (h v : BitVec 16) : h &&& 0b11 = v ↔ field 0 2 h = v.toNat := by
  have hmask : (0b11 : BitVec 16).toNat = 2^2-1 := rfl
  rw [and_eq_iff hmask,field_zero]

theorem rvcLooksLikeLoad_iff (h : BitVec 16) : rvcLooksLikeLoad h = true ↔
    (field 0 2 h = 0 ∨ field 0 2 h = 2) ∧
      (field 13 3 h = 1 ∨ field 13 3 h = 2 ∨ field 13 3 h = 3) := by
  simp only [rvcLooksLikeLoad,Bool.and_eq_true,Bool.or_eq_true,decide_eq_true_eq,half_quadrant,
    half_funct3,or_assoc]
  rfl

theorem rvcLooksLikeStore_iff (h : BitVec 16) : rvcLooksLikeStore h = true ↔
    (field 0 2 h = 0 ∨ field 0 2 h = 2) ∧
      (field 13 3 h = 5 ∨ field 13 3 h = 6 ∨ field 13 3 h = 7) := by
  simp only [rvcLooksLikeStore,Bool.and_eq_true,Bool.or_eq_true,decide_eq_true_eq,half_quadrant,
    half_funct3,or_assoc]
  rfl

section Cause

variable {env : Host} {m : Machine} {a : Word}

theorem segvCause_word {w : BitVec 32} (hne : a ≠ m.pc) (hd : deref32 env m m.pc = .ok w)
    (hlong : field 0 2 w = 3) : segvCause env m a = .ok
      (if field 0 7 w = 0b0000011 then scauseLoadPf
        else if field 0 7 w = 0b0100011 then scauseStorePf
        else if field 0 7 w = 0b0101111 then scauseStorePf else scauseInstrPf) := by
  have hlow : w.setWidth 8 &&& 0b11 = 0b11 :=
    BitVec.eq_of_toNat_eq ((low_bits 2 (by decide) w rfl).trans hlong)
  have hop : ∀ v : BitVec 32, (w.setWidth 8 &&& 0b1111111).setWidth 32 = v ↔
      field 0 7 w = v.toNat := by
    intro v
    have hlt : field 0 7 w < 2^7 := Nat.mod_lt _ (by decide)
    rw [← BitVec.toNat_inj,BitVec.toNat_setWidth,low_bits 7 (by decide) w rfl,
      Nat.mod_eq_of_lt (by omega)]
  simp only [segvCause,if_neg hne,deref8_of_deref32 hd,bind,Except.bind,if_neg (not_not.mpr hlow),
    hop]
  rfl

theorem segvCause_half {h : BitVec 16} (hne : a ≠ m.pc) (hd : deref16 env m m.pc = .ok h)
    (hshort : field 0 2 h ≠ 3) : segvCause env m a = .ok
      (if rvcLooksLikeLoad h then scauseLoadPf
        else if rvcLooksLikeStore h then scauseStorePf else scauseInstrPf) := by
  have hlow : ¬h.setWidth 8 &&& 0b11 = 0b11 := by
    intro he
    have hthree := low_bits (k:=8) (y:=0b11) 2 (by decide) h rfl
    rw [he] at hthree
    exact hshort hthree.symm
  simp only [segvCause,if_neg hne,deref8_of_deref16 hd,hd,bind,Except.bind]
  rw [if_pos hlow]

end Cause

/-- The classifier does not know floating-point loads and stores of 32 bits, and takes
`LR` for a store. -/
def Misclassified : WordInstr → Prop
  | .flw | .fld | .fsw | .fsd | .lr _ => True
  | _ => False

/-- The fault of a data access gets the cause of the specification exactly when the
instruction is none of those; for compressed instructions it always does. -/
theorem fault_cause_classified {env : Host} {m : Machine} {a : Word} (hne : a ≠ m.pc) :
    (∀ (i : WordInstr) w, i.Encodes w → deref32 env m m.pc = .ok w →
      (segvCause env m a = .ok (faultCause i.access) ↔ ¬Misclassified i)) ∧
    (∀ (i : HalfInstr) h, i.Encodes h → deref16 env m m.pc = .ok h →
      segvCause env m a = .ok (faultCause i.access)) := by
  constructor
  · intro i w hi hd
    rw [segvCause_word hne hd hi.long,hi.opcode]
    cases i <;> simp [WordInstr.opcode,WordInstr.access,faultCause,Misclassified,scauseLoadPf,
      scauseStorePf,scauseInstrPf]
  · intro i h hi hd
    rw [segvCause_half hne hd hi.short]
    have hl := rvcLooksLikeLoad_iff h
    have hs := rvcLooksLikeStore_iff h
    rw [hi.quadrant,hi.funct3] at hl hs
    cases i <;> simp_all [HalfInstr.quadrant,HalfInstr.funct3,HalfInstr.access,faultCause]

/-- `lw t0, 0(t1); fld ft0, 0(t1); lr.d t0, (t1)`. -/
def loadKernel : List (BitVec 32) := [0x00032283,0x00033007,0x100332af]

def loadMachine (pc : Word) : Machine := (boot (smallData loadKernel)).setPc pc

theorem fault_cause_classified_lw :
    segvCause smallHost (loadMachine kernelStart) 0x1000 = .ok scauseLoadPf := by
  have hd : deref32 smallHost (loadMachine kernelStart) (loadMachine kernelStart).pc =
      .ok 0x00032283 := by decide +kernel
  have hi : WordInstr.lw.Encodes 0x00032283 := ⟨by decide,by decide,by simp [WordInstr.funct5],
    by simp [WordInstr.rs2]⟩
  exact ((fault_cause_classified (by decide +kernel)).1 _ _ hi hd).mpr id

/-- `fld` faults as an instruction fetch and `lr.d` as a store. -/
theorem fld_lr_misclassified :
    (WordInstr.fld.Encodes 0x00033007 ∧
      deref32 smallHost (loadMachine (kernelStart+4)) (loadMachine (kernelStart+4)).pc =
        .ok 0x00033007 ∧
      segvCause smallHost (loadMachine (kernelStart+4)) 0x1000 = .ok scauseInstrPf) ∧
    ((WordInstr.lr true).Encodes 0x100332af ∧
      deref32 smallHost (loadMachine (kernelStart+8)) (loadMachine (kernelStart+8)).pc =
        .ok 0x100332af ∧
      segvCause smallHost (loadMachine (kernelStart+8)) 0x1000 = .ok scauseStorePf) := by
  refine ⟨⟨⟨by decide,by decide,by simp [WordInstr.funct5],by simp [WordInstr.rs2]⟩,
    by decide +kernel,by decide +kernel⟩,⟨by decide,by decide,?_,?_⟩,by decide +kernel,
    by decide +kernel⟩
  · rintro f ⟨⟩
    decide
  · rintro r ⟨⟩
    decide

section Store

variable {env : Host} {m : Machine}

theorem odd_byte {n : ℕ} (w : BitVec n) : w.setWidth 8 &&& 1 ≠ 0 ↔ field 0 1 w = 1 := by
  have hlow := low_bits (k:=8) (y:=1) 1 (by decide) w rfl
  have hlt : field 0 1 w < 2 := Nat.mod_lt _ (by decide)
  have hzero : w.setWidth 8 &&& 1 = 0 ↔ field 0 1 w = 0 := by
    rw [← BitVec.toNat_inj,hlow]
    rfl
  rw [Ne,hzero]
  omega

theorem decodeSd_word {w : BitVec 32} (hd : deref32 env m m.pc = .ok w) (hlong : field 0 2 w = 3) :
    decodeSd env m m.pc = .ok
      (if field 0 7 w = 0b0100011 then
        if field 12 3 w = 0b011 then some (field 20 5 w : ℤ) else some (-1)
      else none) := by
  have hodd : w.setWidth 8 &&& 1 ≠ 0 := by
    rw [odd_byte]
    rw [field_zero] at hlong ⊢
    omega
  have hop : insOpcode w = opcodeStore ↔ field 0 7 w = 0b0100011 := get_eq_iff (by decide)
  have hf3 : insFunct3 w = 0b011 ↔ field 12 3 w = 0b011 := get_eq_iff (by decide)
  have hrs2 : (insRs2 w).toNat = field 20 5 w := toNat_get (by decide) w
  simp only [decodeSd,deref8_of_deref32 hd,hd,bind,Except.bind,if_pos hodd,hop,hf3,hrs2]
  split_ifs <;> rfl

theorem decodeSd_half {h : BitVec 16} (hd : deref16 env m m.pc = .ok h)
    (heven : field 0 1 h = 0) : decodeSd env m m.pc = .ok (some
      (if field 0 2 h = 0b00 ∧ field 13 3 h = 0b111 then (field 2 3 h+8 : ℕ)
      else if field 0 2 h = 0b10 ∧ field 13 3 h = 0b011 then (field 2 5 h : ℕ) else -1)) := by
  have hodd : ¬h.setWidth 8 &&& 1 ≠ 0 := by rw [odd_byte,heven]; decide
  have hsd : (((h >>> 2) &&& 0b111) ||| 8).toNat = field 2 3 h+8 := by
    have hget : ((h >>> 2) &&& 0b111).toNat = field 2 3 h := toNat_get (by decide : 3 ≤ 16) h
    have hlt : field 2 3 h < 2^3 := Nat.mod_lt _ (by decide)
    have hadd := Nat.two_pow_add_eq_or_of_lt hlt 1
    rw [BitVec.toNat_or,hget,Nat.or_comm,Nat.add_comm]
    exact hadd.symm
  have hsdsp : ((h >>> 2) &&& 0b11111).toNat = field 2 5 h := toNat_get (by decide : 5 ≤ 16) h
  have hq₀ : h &&& 0b11 = 0b00 ↔ field 0 2 h = 0b00 := half_quadrant h 0
  have hq₂ : h &&& 0b11 = 0b10 ↔ field 0 2 h = 0b10 := half_quadrant h 2
  have hf₇ : h >>> 13 = 0b111 ↔ field 13 3 h = 0b111 := half_funct3 h 7
  have hf₃ : h >>> 13 = 0b011 ↔ field 13 3 h = 0b011 := half_funct3 h 3
  simp only [decodeSd,deref8_of_deref16 hd,hd,bind,Except.bind,if_neg hodd,hq₀,hq₂,hf₇,hf₃,hsd,hsdsp]
  split_ifs <;> rfl

/-- On a compressed instruction of the first quadrant the decoder ends without a result. -/
theorem decodeSd_odd {h : BitVec 16} (hd : deref16 env m m.pc = .ok h) (hq : field 0 2 h = 1)
    (k : ℤ) : decodeSd env m m.pc ≠ .ok (some k) := by
  have hodd : h.setWidth 8 &&& 1 ≠ 0 := by
    rw [odd_byte]
    rw [field_zero] at hq ⊢
    omega
  intro hdec
  simp only [decodeSd,deref8_of_deref16 hd,bind,Except.bind,if_pos hodd] at hdec
  cases hw : deref32 env m m.pc with
  | error why => simp [hw] at hdec
  | ok w =>
    have heq := Except.ok.inj (hd.symm.trans (deref16_of_deref32 hw))
    have hlow : field 0 2 w = 1 := by rw [← field_setWidth (k:=16) (by decide),← heq,hq]
    have hop : insOpcode w ≠ opcodeStore := by
      intro he
      have hf : field 0 7 w = 0b0100011 := (get_eq_iff (by decide)).mp he
      rw [field_zero] at hlow hf
      omega
    simp [hw,hop] at hdec

/-- What the decoder is to return: the source register of a doubleword store, and -1
for everything else. -/
def sdResult (i : Instr) : ℤ :=
  match i.sdSource with
  | some r => r
  | none => -1

/-- An instruction of 32 bits is a store, or a compressed one is in quadrant 0, or in
quadrant 2 and neither `c.ldsp` nor `c.sdsp`. -/
def DecoderAgrees : Instr → Prop
  | .half h _ => field 0 2 h = 0b00 ∨
      (field 0 2 h = 0b10 ∧ field 13 3 h ≠ 0b011 ∧ field 13 3 h ≠ 0b111)
  | .word w _ => field 0 7 w = 0b0100011

/-- The decoder agrees with the instruction set on exactly these instructions. -/
theorem decodeSd_agrees_iff {i : Instr} (hi : Holds env m i) :
    decodeSd env m m.pc = .ok (some (sdResult i)) ↔ DecoderAgrees i := by
  cases i with
  | word w hlong =>
    rw [decodeSd_word hi hlong]
    by_cases hop : field 0 7 w = 0b0100011
    · by_cases hf3 : field 12 3 w = 0b011 <;> simp [sdResult,Instr.sdSource,DecoderAgrees,hop,hf3]
    · simp [DecoderAgrees,hop]
  | half h hshort =>
    have hlt : field 0 2 h < 4 := Nat.mod_lt _ (by decide)
    by_cases hq : field 0 2 h = 1
    · refine ⟨fun hdec => absurd hdec (decodeSd_odd hi hq _),?_⟩
      simp [DecoderAgrees,hq]
    · have heven : field 0 1 h = 0 := by
        rw [field_zero] at hq hshort ⊢
        omega
      rw [decodeSd_half hi heven]
      obtain hq₀ | hq₂ : field 0 2 h = 0 ∨ field 0 2 h = 2 := by omega
      · by_cases hf₇ : field 13 3 h = 0b111 <;>
          simp [sdResult,Instr.sdSource,DecoderAgrees,hq₀,hf₇]
      · by_cases hf₇ : field 13 3 h = 0b111
        · simp [sdResult,Instr.sdSource,DecoderAgrees,hq₂,hf₇]
        · by_cases hf₃ : field 13 3 h = 0b011
          · simp [sdResult,Instr.sdSource,DecoderAgrees,hq₂,hf₃]
          · simp [sdResult,Instr.sdSource,DecoderAgrees,hq₂,hf₇,hf₃]

end Store

/-- `c.sdsp s0, 0(sp); c.ldsp s0, 0(sp); amoadd.d t0, t0, (t1); sd t0, 0(t1)`. -/
def sdKernel : List (BitVec 32) := [0x6402e022,0x005332af,0x00533023]

def sdMachine (pc : Word) : Machine := (boot (smallData sdKernel)).setPc pc

theorem decodeSd_agrees_iff_sd :
    decodeSd smallHost (sdMachine (kernelStart+8)) (sdMachine (kernelStart+8)).pc = .ok (some 5) := by
  have hi : Holds smallHost (sdMachine (kernelStart+8)) (.word 0x00533023 (by decide)) := by
    decide +kernel
  exact (decodeSd_agrees_iff hi).mpr (by change field 0 7 _ = _; decide)

/-- `c.sdsp` is not decoded, `c.ldsp` is decoded as a store, and the result for an
atomic, which counts as a store, is undefined. -/
theorem sdsp_ldsp_amo_wrong :
    (Holds smallHost (sdMachine kernelStart) (.half 0xe022 (by decide)) ∧
      HalfInstr.csdsp.Encodes 0xe022 ∧
      decodeSd smallHost (sdMachine kernelStart) (sdMachine kernelStart).pc = .ok (some (-1)) ∧
      sdResult (.half 0xe022 (by decide)) = 8) ∧
    (Holds smallHost (sdMachine (kernelStart+2)) (.half 0x6402 (by decide)) ∧
      HalfInstr.cldsp.Encodes 0x6402 ∧
      decodeSd smallHost (sdMachine (kernelStart+2)) (sdMachine (kernelStart+2)).pc = .ok (some 0) ∧
      sdResult (.half 0x6402 (by decide)) = -1) ∧
    (Holds smallHost (sdMachine (kernelStart+4)) (.word 0x005332af (by decide)) ∧
      segvCause smallHost (sdMachine (kernelStart+4)) 0x1000 = .ok scauseStorePf ∧
      decodeSd smallHost (sdMachine (kernelStart+4)) (sdMachine (kernelStart+4)).pc = .ok none) := by
  exact ⟨⟨by decide +kernel,⟨by decide,by decide,by decide⟩,by decide +kernel,by decide⟩,
    ⟨by decide +kernel,⟨by decide,by decide,by decide⟩,by decide +kernel,by decide⟩,
    by decide +kernel,by decide +kernel,by decide +kernel⟩

/-- The architectural value of a register: slot 0 of the context holds the pc, but
`x0` is zero. -/
def archReg (regs : Regs) (r : ℕ) : Word := if r = 0 then 0 else regs (Fin.ofNat 32 r)

/-- The page fault of a store hands the value to the device register at `pa`. -/
structure DeviceReceives (env : Host) (m : Machine) (a pa v : Word) : Prop where
  data : getStoreData env m = .ok (some v)
  fault : handlePageFault env m scauseStorePf a = deviceStore env m pa v
  command : pa = urvirtBlock+urvirtBlockCommand →
    handlePageFault env m scauseStorePf a = blockCommand env m v >>= skipStore env
  blockId : pa = urvirtBlock+urvirtBlockBlockId → ∀ m',
    handlePageFault env m scauseStorePf a = .ok m' → m'.priv.urvbBlockId = v
  buf : pa = urvirtBlock+urvirtBlockBuf → ∀ m',
    handlePageFault env m scauseStorePf a = .ok m' → m'.priv.urvbBuf = v

def IsDeviceRegister (pa : Word) : Prop :=
  pa = urvirtBlock+urvirtBlockCommand ∨ pa = urvirtBlock+urvirtBlockBlockId ∨
    pa = urvirtBlock+urvirtBlockBuf

section Value

variable {env : Host} {m : Machine} {a : Word} {l : Leaf} {i : Instr} {r : ℕ}

theorem decodeSd_source {k : ℤ} (hi : Holds env m i) (hr : i.sdSource = some r) (hk : 0 ≤ k)
    (hdec : decodeSd env m m.pc = .ok (some k)) : k = r := by
  cases i with
  | word w hlong =>
    rw [decodeSd_word hi hlong] at hdec
    simp only [Instr.sdSource] at hr
    split_ifs at hr with hsd
    cases hr
    simpa [hsd,eq_comm] using hdec
  | half h hshort =>
    simp only [Instr.sdSource] at hr
    have heven : field 0 1 h = 0 := by
      have hq : field 0 2 h = 0b00 ∨ field 0 2 h = 0b10 := by
        split_ifs at hr with hsd hsdsp
        · exact .inl hsd.1
        · exact .inr hsdsp.1
      rw [field_zero] at hq ⊢
      omega
    rw [decodeSd_half hi heven] at hdec
    split_ifs at hr with hsd hsdsp
    · cases hr
      simpa [hsd,eq_comm] using hdec
    · -- `c.sdsp` is taken for something else than a store
      simp [hsdsp] at hdec
      omega

theorem deviceReceives {v : Word} (hdev : IsDeviceRegister l.pa)
    (hsatp : getSatpMode m.priv.satp = satpModeSv39)
    (hfree : AddressSpace.Free m.map env.ramPage (pages ramSize)) (hw : m.walk a = .leaf l)
    (hdata : getStoreData env m = .ok (some v)) : DeviceReceives env m a l.pa v := by
  have hram : ¬inRam l.pa := by rcases hdev with h | h | h <;> rw [h] <;> decide
  have hpf : handlePageFault env m scauseStorePf a = deviceStore env m l.pa v := by
    rw [handlePageFault_leaf scauseStorePf hfree hw (leaf_ne_zero hsatp hw),if_neg hram,deviceAccess,
      if_pos rfl,hdata]
    rfl
  refine ⟨hdata,hpf,fun hpa => ?_,fun hpa m' hm' => ?_,fun hpa m' hm' => ?_⟩
  · rw [hpf,deviceStore,if_pos hpa]
  · rw [hpf,deviceStore,if_neg (by rw [hpa]; decide),if_pos hpa] at hm'
    obtain ⟨pc,rfl⟩ := skipStore_ok hm'
    rfl
  · rw [hpf,deviceStore,if_neg (by rw [hpa]; decide),if_neg (by rw [hpa]; decide),if_pos hpa] at hm'
    obtain ⟨pc,rfl⟩ := skipStore_ok hm'
    rfl

/-- A doubleword store that is decoded delivers the value of its source register
unless that is `x0`, for which the device receives the pc. -/
theorem device_store_value_iff (hsatp : getSatpMode m.priv.satp = satpModeSv39)
    (hfree : AddressSpace.Free m.map env.ramPage (pages ramSize)) (hw : m.walk a = .leaf l)
    (hdev : IsDeviceRegister l.pa) (hi : Holds env m i) (hr : i.sdSource = some r)
    (hdec : ∃ k : ℤ, 0 ≤ k ∧ decodeSd env m m.pc = .ok (some k)) :
    DeviceReceives env m a l.pa (archReg m.regs r) ↔ r ≠ 0 ∨ m.pc = 0 := by
  obtain ⟨k,hk,hdec⟩ := hdec
  obtain rfl := decodeSd_source hi hr hk hdec
  have hdata : getStoreData env m = .ok (some (m.regs (Fin.ofNat 32 r))) := by
    simp [getStoreData,hdec,bind,Except.bind]
  have hval : m.regs (Fin.ofNat 32 r) = archReg m.regs r ↔ r ≠ 0 ∨ m.pc = 0 := by
    by_cases h0 : r = 0
    · subst h0
      simp [archReg,Machine.pc]
    · simp [archReg,h0]
  rw [← hval]
  constructor
  · intro h
    exact Option.some.inj (Except.ok.inj (hdata.symm.trans h.data))
  · intro h
    exact deviceReceives hdev hsatp hfree hw (h ▸ hdata)

end Value

def deviceMachine (pc : Word) : Machine :=
  smallAfter storeKernel (storeUser 0x4100017 pc 5 (storePage+8))

theorem device_store_value_iff_five :
    DeviceReceives smallHost (deviceMachine (kernelStart+16)) (storePage+8) 0x10400008 5 := by
  have hreplays : Replays storeKernel (storeUser 0x4100017 (kernelStart+16) 5 (storePage+8)) := by
    decide +kernel
  have hwalk : (deviceMachine (kernelStart+16)).walk (storePage+8) = .leaf ⟨0x10400008,0x4100017⟩ := by
    decide +kernel
  have hi : Holds smallHost (deviceMachine (kernelStart+16)) (.word 0x00533023 (by decide)) := by
    decide +kernel
  have hdec : decodeSd smallHost (deviceMachine (kernelStart+16)) (deviceMachine (kernelStart+16)).pc =
      .ok (some 5) := by decide +kernel
  have hreg : archReg (deviceMachine (kernelStart+16)).regs 5 = 5 := by decide +kernel
  have hrec := (device_store_value_iff (r:=5) (by decide +kernel) (small_free hreplays).ram hwalk
    (.inr (.inl (by decide))) hi (by decide) ⟨5,by decide,hdec⟩).mpr (.inl (by decide))
  rw [hreg] at hrec
  exact hrec

/-- The store of `x0` puts its own pc into the block number. -/
theorem zero_store_delivers_pc :
    Run Step (boot (smallData storeKernel)) (storeUser 0x4100017 (kernelStart+20) 5 (storePage+8))
      (deviceMachine (kernelStart+20)) ∧
    Holds smallHost (deviceMachine (kernelStart+20)) (.word 0x00033023 (by decide)) ∧
    (Instr.word 0x00033023 (by decide)).sdSource = some 0 ∧
    archReg (deviceMachine (kernelStart+20)).regs 0 = 0 ∧
    (deviceMachine (kernelStart+20)).walk (storePage+8) = .leaf ⟨0x10400008,0x4100017⟩ ∧
    (handlePageFault smallHost (deviceMachine (kernelStart+20)) scauseStorePf (storePage+8)).map
      (fun m => m.priv.urvbBlockId) = .ok (kernelStart+20) ∧
    ¬DeviceReceives smallHost (deviceMachine (kernelStart+20)) (storePage+8) 0x10400008 0 := by
  have hreplays : Replays storeKernel (storeUser 0x4100017 (kernelStart+20) 5 (storePage+8)) := by
    decide +kernel
  have hdata : getStoreData smallHost (deviceMachine (kernelStart+20)) =
      .ok (some (kernelStart+20)) := by decide +kernel
  refine ⟨small_run hreplays,by decide +kernel,by decide,rfl,by decide +kernel,by decide +kernel,
    fun h => ?_⟩
  have hzero := hdata.symm.trans h.data
  exact absurd (Option.some.inj (Except.ok.inj hzero)) (by decide)

end Urvirt
