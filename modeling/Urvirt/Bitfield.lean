import Mathlib.Tactic

/-!
# Bit fields of machine words

A field is given by its start and its width. Writers follow the usual C helper,
which clears the field and then ors in the shifted value without masking it, so
every fact about a written word says what it needs of the value.
-/

namespace Urvirt
namespace Bitfield

variable {w : ℕ}

def ones (width : ℕ) : BitVec w := (1#w <<< width) - 1#w

def mask (start width : ℕ) : BitVec w := ones width <<< start

def get (start width : ℕ) (data : BitVec w) : BitVec w := (data >>> start) &&& ones width

/-- The value is shifted in as it is; bits beyond the width spill over. -/
def set (start width : ℕ) (data field : BitVec w) : BitVec w :=
  (data &&& ~~~mask start width) ||| (field <<< start)

theorem toNat_ones {width : ℕ} (h : width ≤ w) : (ones width : BitVec w).toNat = 2^width-1 := by
  have hw : 2^width ≤ 2^w := Nat.pow_le_pow_right (by decide) h
  have hp : 1 ≤ 2^width := Nat.one_le_two_pow
  rcases Nat.eq_zero_or_pos w with hz | hz
  · subst hz
    obtain rfl : width = 0 := by omega
    rfl
  · have h1 : (1#w).toNat = 1 := by simp [Nat.mod_eq_of_lt (Nat.one_lt_two_pow (by omega : w ≠ 0))]
    rcases Nat.lt_or_ge (2^width) (2^w) with hlt | hge
    · simp only [ones,BitVec.toNat_sub,BitVec.toNat_shiftLeft,h1,Nat.one_shiftLeft,
        Nat.mod_eq_of_lt hlt]
      have he : 2^w-1+2^width = (2^width-1)+2^w := by omega
      rw [he,Nat.add_mod_right,Nat.mod_eq_of_lt (by omega)]
    · have he : 2^width = 2^w := by omega
      simp only [ones,BitVec.toNat_sub,BitVec.toNat_shiftLeft,h1,Nat.one_shiftLeft,he,
        Nat.mod_self,Nat.add_zero]
      exact Nat.mod_eq_of_lt (by omega)

theorem getLsbD_ones {width : ℕ} (h : width ≤ w) (i : ℕ) :
    (ones width : BitVec w).getLsbD i = decide (i < width) := by
  rw [← BitVec.testBit_toNat,toNat_ones h,Nat.testBit_two_pow_sub_one]

theorem getLsbD_mask {start width : ℕ} (h : width ≤ w) (i : ℕ) :
    (mask start width : BitVec w).getLsbD i =
      (decide (i < w) && decide (start ≤ i) && decide (i < start+width)) := by
  rw [mask,BitVec.getLsbD_shiftLeft,getLsbD_ones h]
  by_cases hs : start ≤ i
  · have hi : (i-start < width) = (i < start+width) := by simp only [eq_iff_iff]; omega
    simp [hs,Nat.not_lt.mpr hs,hi]
  · simp [hs,Nat.lt_of_not_le hs]

theorem getLsbD_get {start width : ℕ} (h : width ≤ w) (data : BitVec w) (i : ℕ) :
    (get start width data).getLsbD i = (decide (i < width) && data.getLsbD (start+i)) := by
  rw [get,BitVec.getLsbD_and,BitVec.getLsbD_ushiftRight,getLsbD_ones h,Bool.and_comm]

theorem getLsbD_set {start width : ℕ} (h : width ≤ w) (data field : BitVec w) (i : ℕ) :
    (set start width data field).getLsbD i =
      ((data.getLsbD i && !(decide (start ≤ i) && decide (i < start+width))) ||
        (decide (i < w) && decide (start ≤ i) && field.getLsbD (i-start))) := by
  rw [set,BitVec.getLsbD_or,BitVec.getLsbD_and,BitVec.getLsbD_not,getLsbD_mask h,
    BitVec.getLsbD_shiftLeft]
  by_cases hi : i < w
  · by_cases hs : start ≤ i
    · simp [hi,hs,Nat.not_lt.mpr hs]
    · simp [hi,hs,Nat.lt_of_not_le hs]
  · simp [hi,BitVec.getLsbD_of_ge data i (Nat.le_of_not_lt hi)]

theorem toNat_get {start width : ℕ} (h : width ≤ w) (data : BitVec w) :
    (get start width data).toNat = data.toNat/2^start%2^width := by
  rw [get,BitVec.toNat_and,toNat_ones h,BitVec.toNat_ushiftRight,Nat.shiftRight_eq_div_pow,
    Nat.and_two_pow_sub_one_eq_mod]

theorem get_eq_iff {start width : ℕ} (h : width ≤ w) {data v : BitVec w} :
    get start width data = v ↔ data.toNat/2^start%2^width = v.toNat := by
  rw [← toNat_get h,BitVec.toNat_inj]

theorem and_eq_iff {x y v : BitVec w} {width : ℕ} (hy : y.toNat = 2^width-1) :
    x &&& y = v ↔ x.toNat%2^width = v.toNat := by
  rw [← BitVec.toNat_inj,BitVec.toNat_and,hy,Nat.and_two_pow_sub_one_eq_mod]

theorem get_one (hw : 1 ≤ w) (start : ℕ) (data : BitVec w) :
    get start 1 data = if data.getLsbD start then 1#w else 0#w := by
  apply BitVec.eq_of_getLsbD_eq
  intro i hi
  rw [getLsbD_get hw]
  rcases Nat.eq_zero_or_pos i with h0 | h0
  · subst h0
    cases data.getLsbD start <;> simp [Nat.pos_of_ne_zero (Nat.one_le_iff_ne_zero.mp hw)]
  · cases data.getLsbD start <;> simp [Nat.not_lt.mpr h0,Nat.ne_of_gt h0]

def IsFlag (f : BitVec w) : Prop := f = 0#w ∨ f = 1#w

theorem isFlag_zero : IsFlag (0#w) := .inl rfl
theorem isFlag_one : IsFlag (1#w) := .inr rfl

theorem isFlag_get (hw : 1 ≤ w) (start : ℕ) (data : BitVec w) :
    IsFlag (get start 1 data) := by
  rw [get_one hw]
  cases data.getLsbD start
  · exact .inl rfl
  · exact .inr rfl

theorem isFlag_ite {p : Prop} [Decidable p] {f g : BitVec w} (hf : IsFlag f)
    (hg : IsFlag g) : IsFlag (if p then f else g) := by
  split
  · exact hf
  · exact hg

theorem getLsbD_set_one {start : ℕ} (hs : start < w) (data : BitVec w) {f : BitVec w}
    (hf : IsFlag f) (i : ℕ) :
    (set start 1 data f).getLsbD i = if i = start then f.getLsbD 0 else data.getLsbD i := by
  have hw : 0 < w := by omega
  rw [getLsbD_set hw]
  by_cases hi : i = start
  · subst hi
    simp [hs]
  · have hlt : (decide (start ≤ i) && decide (i < start+1)) = false := by
      simp only [Bool.and_eq_false_iff,decide_eq_false_iff_not]; omega
    rw [hlt,if_neg hi]
    rcases hf with rfl | rfl
    · simp
    · by_cases hle : start ≤ i
      · have : i-start ≠ 0 := by omega
        simp [this]
      · simp [hle]

theorem get_set_same {start : ℕ} (hs : start < w) (data : BitVec w) {f : BitVec w}
    (hf : IsFlag f) : get start 1 (set start 1 data f) = f := by
  have hw : 1 ≤ w := by omega
  rw [get_one hw,getLsbD_set_one hs data hf,if_pos rfl]
  rcases hf with rfl | rfl
  · simp
  · simp

theorem get_set_ne {start start' : ℕ} (hs : start < w) (hne : start' ≠ start)
    (data : BitVec w) {f : BitVec w} (hf : IsFlag f) :
    get start' 1 (set start 1 data f) = get start' 1 data := by
  have hw : 1 ≤ w := by omega
  rw [get_one hw,get_one hw,getLsbD_set_one hs data hf,if_neg hne]

/-- A field inside the kept bits only depends on those bits. -/
theorem get_congr {start width : ℕ} (h : width ≤ w) {x y keep : BitVec w}
    (hxy : x &&& keep = y &&& keep) (hk : mask start width &&& ~~~keep = 0#w) :
    get start width x = get start width y := by
  apply BitVec.eq_of_getLsbD_eq
  intro i _
  rw [getLsbD_get h,getLsbD_get h]
  by_cases hi : i < width
  · by_cases hw : start+i < w
    · have hb := congrArg (fun z => BitVec.getLsbD z (start+i)) hxy
      have hm := congrArg (fun z => BitVec.getLsbD z (start+i)) hk
      simp only [BitVec.getLsbD_and,BitVec.getLsbD_not,getLsbD_mask h,BitVec.getLsbD_zero] at hb hm
      simp only [hw,decide_true,Nat.le_add_right,Nat.add_lt_add_left hi,Bool.true_and,
        Bool.not_eq_false'] at hm
      simpa [hm,hi] using hb
    · simp [BitVec.getLsbD_of_ge _ _ (Nat.le_of_not_lt hw)]
  · simp [hi]

theorem set_and {start width : ℕ} {data field keep : BitVec w}
    (hm : mask start width &&& keep = 0#w) (hf : (field <<< start) &&& keep = 0#w) :
    set start width data field &&& keep = data &&& keep := by
  have hn : ~~~(mask start width) &&& keep = keep := by
    apply BitVec.eq_of_getLsbD_eq
    intro i hi
    have hb := congrArg (fun z => BitVec.getLsbD z i) hm
    simp only [BitVec.getLsbD_and,BitVec.getLsbD_zero] at hb
    simp only [BitVec.getLsbD_and,BitVec.getLsbD_not,hi,decide_true,Bool.true_and]
    cases hk : keep.getLsbD i <;> simp_all
  rw [set,BitVec.and_or_distrib_right,hf,BitVec.or_zero,BitVec.and_assoc,hn]

theorem shiftLeft_one (hw : 1 ≤ w) (start : ℕ) : (1#w <<< start) = mask start 1 := by
  apply BitVec.eq_of_getLsbD_eq
  intro i hi
  rw [getLsbD_mask hw,BitVec.getLsbD_shiftLeft,BitVec.getLsbD_one]
  by_cases hs : start ≤ i
  · have he : (i-start = 0) = (i < start+1) := by simp only [eq_iff_iff]; omega
    simp [hi,hs,Nat.not_lt.mpr hs,he,Nat.lt_of_lt_of_le Nat.zero_lt_one hw]
  · simp [hs,Nat.lt_of_not_le hs]

theorem set_flag_and (hw : 1 ≤ w) {start : ℕ} {data f keep : BitVec w} (hf : IsFlag f)
    (hm : mask start 1 &&& keep = 0#w) : set start 1 data f &&& keep = data &&& keep := by
  apply set_and hm
  rcases hf with rfl | rfl
  · simp
  · rw [shiftLeft_one hw,hm]

theorem get_set_zero {start width : ℕ} (h : width ≤ w) (data : BitVec w) :
    get start width (set start width data 0#w) = 0#w := by
  apply BitVec.eq_of_getLsbD_eq
  intro i _
  rw [getLsbD_get h,getLsbD_set h]
  by_cases hi : i < width <;> simp [hi]

theorem set_get {start width : ℕ} (h : width ≤ w) (data : BitVec w) :
    set start width data (get start width data) = data := by
  apply BitVec.eq_of_getLsbD_eq
  intro i hi
  rw [getLsbD_set h,getLsbD_get h]
  by_cases hs : start ≤ i
  · have hlt : (i-start < width) = (i < start+width) := by simp only [eq_iff_iff]; omega
    by_cases hw : i < start+width <;> simp [hi,hs,hlt,hw]
  · simp [hs]

theorem merge_and {value data writable keep : BitVec w} (h : writable &&& keep = 0#w)
    (hk : ~~~writable &&& keep = keep) :
    ((value &&& writable) ||| (data &&& ~~~writable)) &&& keep = data &&& keep := by
  rw [BitVec.and_or_distrib_right,BitVec.and_assoc,BitVec.and_assoc,h,hk,BitVec.and_zero,
    BitVec.zero_or]

theorem merge_self (value writable : BitVec w) :
    (value &&& writable) ||| (value &&& ~~~writable) = value := by
  apply BitVec.eq_of_getLsbD_eq
  intro i hi
  rw [BitVec.getLsbD_or,BitVec.getLsbD_and,BitVec.getLsbD_and,BitVec.getLsbD_not]
  cases writable.getLsbD i <;> simp [hi]

theorem merge_and_masked {value data writable keep : BitVec w} (h : writable &&& keep = keep)
    (hk : ~~~writable &&& keep = 0#w) :
    ((value &&& writable) ||| (data &&& ~~~writable)) &&& keep = value &&& keep := by
  rw [BitVec.and_or_distrib_right,BitVec.and_assoc,BitVec.and_assoc,h,hk,BitVec.and_zero,
    BitVec.or_zero]

end Bitfield
end Urvirt
