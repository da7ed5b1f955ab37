import Mathlib.Data.Nat.Digits.Lemmas
import Urvirt.PrintfText

/-!
# Numbers in the text

Reading the digits of a printed number gives the number back, whatever flags, width
and precision are, up to what the buffer of 32 characters has no room for.
-/

namespace Urvirt
namespace Printf

def hexDigit (c : BitVec 8) : Option ℕ :=
  if isDigit c then some (c-ch '0').toNat
  else if ch 'A' ≤ c ∧ c ≤ ch 'F' then some ((c-ch 'A').toNat+10)
  else if ch 'a' ≤ c ∧ c ≤ ch 'f' then some ((c-ch 'a').toNat+10) else none

def digitOf (base : ℕ) (c : BitVec 8) : Option ℕ := (hexDigit c).filter (· < base)

/-- The number that the digits of a text are. -/
def numeral (base : ℕ) (s : List (BitVec 8)) : ℕ :=
  (s.filterMap (digitOf base)).foldl (fun n d => n*base+d) 0

/-- The number in a buffer, where the last digit comes first. -/
def reads (base : ℕ) (buf : List (BitVec 8)) : ℕ := Nat.ofDigits base (buf.filterMap (digitOf base))

section Reads

variable {base : ℕ} {flags : Flags} {buf : List (BitVec 8)} {c : BitVec 8}

theorem hexDigit_digitChar (flags : Flags) {d : ℕ} (hd : d < 16) :
    hexDigit (digitChar flags d) = some d := by
  have hupper : ∀ d < 16, hexDigit (if d < 10 then ch '0'+BitVec.ofNat 8 d
      else ch 'A'+BitVec.ofNat 8 d-10) = some d := by decide
  have hlower : ∀ d < 16, hexDigit (if d < 10 then ch '0'+BitVec.ofNat 8 d
      else ch 'a'+BitVec.ofNat 8 d-10) = some d := by decide
  rw [digitChar]
  cases flags.uppercase with
  | true => exact hupper d hd
  | false => exact hlower d hd

theorem digitOf_digitChar (hbase : base ≤ 16) {d : ℕ} (hd : d < base) :
    digitOf base (digitChar flags d) = some d := by
  rw [digitOf,hexDigit_digitChar flags (Nat.lt_of_lt_of_le hd hbase),Option.filter_some,
    if_pos (decide_eq_true hd)]

theorem digitOf_zero (hbase : 0 < base) : digitOf base (ch '0') = some 0 := by
  have hzero : hexDigit (ch '0') = some 0 := by decide
  rw [digitOf,hzero,Option.filter_some,if_pos (decide_eq_true hbase)]

theorem digitOf_none (h : hexDigit c = none) : digitOf base c = none := by
  rw [digitOf,h]
  rfl

theorem numeral_reverse (buf : List (BitVec 8)) : numeral base buf.reverse = reads base buf := by
  have hadd : (fun (d n : ℕ) => n*base+d) = fun d n => d+base*n := by
    funext d n
    rw [Nat.mul_comm,Nat.add_comm]
  rw [numeral,reads,List.filterMap_reverse,List.foldl_reverse,hadd,Nat.ofDigits_eq_foldr]
  rfl

theorem reads_append (s : List (BitVec 8)) (hs : ∀ c ∈ s, digitOf base c = none ∨ digitOf base c = some 0) :
    reads base (buf++s) = reads base buf := by
  have hzeros : ∀ s : List (BitVec 8), (∀ c ∈ s, digitOf base c = none ∨ digitOf base c = some 0) →
      Nat.ofDigits base (s.filterMap (digitOf base)) = 0 := by
    intro s hs
    induction s with
    | nil => rfl
    | cons c s ih =>
      have hrest := ih fun c hc => hs c (List.mem_cons_of_mem _ hc)
      rcases hs c List.mem_cons_self with hc | hc
      · rw [List.filterMap_cons_none hc,hrest]
      · rw [List.filterMap_cons_some hc,Nat.ofDigits_cons,hrest]
        rfl
  rw [reads,reads,List.filterMap_append,Nat.ofDigits_append,hzeros s hs,Nat.mul_zero,Nat.add_zero]

theorem reads_push (hc : digitOf base c = none ∨ digitOf base c = some 0) :
    reads base (push c buf) = reads base buf := by
  rw [push]
  split_ifs
  · exact reads_append [c] fun c' hc' => by rw [List.mem_singleton.mp hc']; exact hc
  · rfl

theorem reads_padZeros (hbase : 0 < base) (limit : ℕ) (buf : List (BitVec 8)) :
    reads base (padZeros limit buf) = reads base buf := by
  refine reads_append _ fun c hc => .inr ?_
  rw [List.eq_of_mem_replicate hc]
  exact digitOf_zero hbase

theorem reads_ntoaPad (hbase : 0 < base) (prec width : ℕ) (flags : Flags) (buf : List (BitVec 8)) :
    reads base (ntoaPad buf prec width flags) = reads base buf := by
  rw [ntoaPad]
  split_ifs
  · rfl
  · rw [reads_padZeros hbase,reads_padZeros hbase]
  · rw [reads_padZeros hbase]

theorem reads_ntoaSign (negative : Bool) (flags : Flags) (buf : List (BitVec 8)) :
    reads base (ntoaSign buf negative flags) = reads base buf := by
  rw [ntoaSign]
  split_ifs
  · exact reads_push (.inl (digitOf_none (by decide)))
  · exact reads_push (.inl (digitOf_none (by decide)))
  · exact reads_push (.inl (digitOf_none (by decide)))
  · rfl

theorem numeral_outRevText (width : ℕ) (flags : Flags) (buf : List (BitVec 8)) :
    numeral base (outRevText buf width flags) = reads base buf := by
  have hspaces : ∀ n, (List.replicate n (ch ' ')).filterMap (digitOf base) = [] := by
    intro n
    refine List.filterMap_eq_nil_iff.mpr fun c hc => ?_
    rw [List.eq_of_mem_replicate hc]
    exact digitOf_none (by decide)
  rw [← numeral_reverse,outRevText]
  simp only [numeral]
  split_ifs
  · rw [List.filterMap_append,hspaces,List.append_nil]
  · rfl
  · rw [List.filterMap_append,hspaces,List.nil_append]

/-- The digits that there is room for are the last ones. -/
theorem reads_ntoaDigits (hbase : base ≤ 16) (hpos : 0 < base) (flags : Flags) (room value : ℕ) :
    reads base (ntoaDigits flags base room value) = value%base^room := by
  induction room generalizing value with
  | zero => exact (Nat.mod_one value).symm
  | succ room ih =>
    have hdigit : digitOf base (digitChar flags (value%base)) = some (value%base) :=
      digitOf_digitChar hbase (Nat.mod_lt value hpos)
    have hrest : Nat.ofDigits base ((if value/base = 0 then []
        else ntoaDigits flags base room (value/base)).filterMap (digitOf base)) =
        value/base%base^room := by
      split_ifs with hdone
      · rw [hdone,Nat.zero_mod]
        rfl
      · exact ih _
    rw [reads,ntoaDigits,List.filterMap_cons_some hdigit,Nat.ofDigits_cons,hrest,Nat.pow_succ',
      Nat.mod_mul]

end Reads

def argument (c : BitVec 8) (flags : Flags) (arg : Word) : ℤ :=
  if isSigned c then
    if flags.longLong || flags.long then arg.toInt
    else if flags.char then (arg.setWidth 8).toNat
    else if flags.short then (arg.setWidth 16).toInt else (arg.setWidth 32).toInt
  else (unsignedValue flags arg).toNat

section Sign

variable {base prec width : ℕ} {negative : Bool} {flags : Flags} {buf : List (BitVec 8)}

theorem toNat_absolute {w : ℕ} (v : BitVec w) : (absolute v).toNat = v.toInt.natAbs := by
  have hv := v.isLt
  rw [absolute]
  by_cases hpos : (0 : BitVec w).slt v
  · rw [if_pos hpos]
    rw [BitVec.slt_iff_toInt_lt] at hpos
    simp only [BitVec.ofNat_eq_ofNat,BitVec.toInt_zero] at hpos
    rw [BitVec.toInt_eq_toNat_cond] at hpos ⊢
    split_ifs at hpos ⊢ <;> omega
  · rw [if_neg hpos]
    rw [BitVec.slt_iff_toInt_lt] at hpos
    simp only [BitVec.ofNat_eq_ofNat,BitVec.toInt_zero] at hpos
    rw [BitVec.toInt_eq_toNat_cond] at hpos ⊢
    simp only [BitVec.ofNat_eq_ofNat,BitVec.zero_sub,BitVec.toNat_neg]
    split_ifs at hpos ⊢
    · have hzero : v.toNat = 0 := by omega
      rw [hzero,Nat.sub_zero,Nat.mod_self]
      rfl
    · rw [Nat.mod_eq_of_lt (by omega)]
      omega

theorem slt_zero {w : ℕ} (v : BitVec w) : v.slt 0 = decide (v.toInt < 0) := by
  rw [BitVec.slt_eq_decide,BitVec.ofNat_eq_ofNat,BitVec.toInt_zero]

theorem integerValue_eq (c : BitVec 8) (flags : Flags) (arg : Word) :
    (integerValue c flags arg).1.toNat = (argument c flags arg).natAbs ∧
      (integerValue c flags arg).2 = decide (argument c flags arg < 0) := by
  -- A narrower value keeps its amount.
  have hnarrow : ∀ v : BitVec 32, ((absolute v).setWidth 64).toNat = v.toInt.natAbs := fun v => by
    rw [BitVec.toNat_setWidth_of_le (by decide),toNat_absolute]
  rw [integerValue,argument]
  split_ifs with hsigned hlong hchar hshort
  · simp only [signedValue,hlong,if_true]
    exact ⟨toNat_absolute arg,slt_zero arg⟩
  · simp only [signedValue,hlong,hchar,if_true,Bool.false_eq_true,if_false]
    have hint : (((arg.setWidth 8).setWidth 32 : BitVec 32).toInt : ℤ) = (arg.setWidth 8 : BitVec 8).toNat := by
      have hlt := (arg.setWidth 8 : BitVec 8).isLt
      rw [BitVec.toInt_eq_toNat_cond,BitVec.toNat_setWidth_of_le (by decide),if_pos (by omega)]
    exact ⟨(hnarrow _).trans (congrArg Int.natAbs hint),(slt_zero _).trans (by rw [hint])⟩
  · simp only [signedValue,hlong,hchar,hshort,if_true,Bool.false_eq_true,if_false]
    have hint : ((arg.setWidth 16).signExtend 32 : BitVec 32).toInt = (arg.setWidth 16 : BitVec 16).toInt :=
      BitVec.toInt_signExtend_of_le (by decide)
    exact ⟨(hnarrow _).trans (congrArg Int.natAbs hint),(slt_zero _).trans (by rw [hint])⟩
  · simp only [signedValue,hlong,hchar,hshort,Bool.false_eq_true,if_false]
    exact ⟨hnarrow _,slt_zero _⟩
  · exact ⟨(Int.natAbs_natCast _).symm,(decide_eq_false (by omega)).symm⟩

theorem length_ntoaDigits {room value k : ℕ} (hk : 0 < k) (hlt : value < base^k) :
    (ntoaDigits flags base room value).length ≤ k := by
  induction room generalizing value k with
  | zero => exact Nat.zero_le _
  | succ room ih =>
    obtain ⟨k,rfl⟩ : ∃ j, k = j+1 := ⟨k-1,by omega⟩
    rw [ntoaDigits,List.length_cons]
    split_ifs with hdone
    · exact Nat.succ_le_succ (Nat.zero_le k)
    · have hlt' : value/base < base^k := Nat.div_lt_of_lt_mul (by rwa [← Nat.pow_succ'])
      have hk' : 0 < k := by
        by_contra hzero
        rw [Nat.eq_zero_of_not_pos hzero,Nat.pow_zero] at hlt'
        exact hdone (Nat.lt_one_iff.mp hlt')
      exact Nat.succ_le_succ (ih hk' hlt')

theorem length_padZeros (limit : ℕ) (buf : List (BitVec 8)) :
    (padZeros limit buf).length = max buf.length (min limit ntoaBufferSize) := by
  rw [padZeros,List.length_append,List.length_replicate]
  omega

theorem length_ntoaPad : (ntoaPad buf prec width flags).length =
    if flags.left then buf.length
    else max buf.length (min (max prec (if flags.zeropad then width else 0)) ntoaBufferSize) := by
  rw [ntoaPad]
  split_ifs
  · rfl
  · rw [length_padZeros,length_padZeros]
    omega
  · rw [length_padZeros]
    omega

theorem mem_push {c c' : BitVec 8} (hbuf : c ∉ buf) :
    c ∈ push c' buf ↔ c' = c ∧ buf.length < ntoaBufferSize := by
  rw [push]
  split_ifs with hroom
  · simp [hbuf,hroom,eq_comm]
  · simp [hbuf,hroom]

theorem mem_ntoaSign (hbuf : ch '-' ∉ buf) :
    ch '-' ∈ ntoaSign buf negative flags ↔ negative = true ∧ buf.length < ntoaBufferSize := by
  rw [ntoaSign]
  split_ifs with hneg hplus hspace
  · rw [mem_push hbuf]
    simp [hneg]
  · rw [mem_push hbuf]
    simp [hneg,show ch '+' ≠ ch '-' by decide]
  · rw [mem_push hbuf]
    simp [hneg,show ch ' ' ≠ ch '-' by decide]
  · simp [hbuf,hneg]

theorem not_mem_ntoaSign {c : BitVec 8} (hbuf : c ∉ buf) (hc : c ∉ [ch '-',ch '+',ch ' ']) :
    c ∉ ntoaSign buf negative flags := by
  have hpush : ∀ c' ∈ [ch '-',ch '+',ch ' '], c ∉ push c' buf := fun c' hc' hmem =>
    hc (((mem_push hbuf).mp hmem).1 ▸ hc')
  rw [ntoaSign]
  split_ifs
  · exact hpush _ (by simp)
  · exact hpush _ (by simp)
  · exact hpush _ (by simp)
  · exact hbuf

theorem mem_outRevText {c : BitVec 8} (hc : c ≠ ch ' ') :
    c ∈ outRevText buf width flags ↔ c ∈ buf := by
  rw [outRevText]
  split_ifs <;> simp [hc]

theorem not_mem_ntoaDigits {c : BitVec 8} (hc : hexDigit c = none) (hbase : base ≤ 16)
    (hpos : 0 < base) (flags : Flags) (room value : ℕ) : c ∉ ntoaDigits flags base room value := by
  induction room generalizing value with
  | zero => exact List.not_mem_nil
  | succ room ih =>
    rw [ntoaDigits,List.mem_cons,not_or]
    constructor
    · intro he
      have hdigit := hexDigit_digitChar flags (Nat.lt_of_lt_of_le (Nat.mod_lt value hpos) hbase)
      rw [← he,hc] at hdigit
      cases hdigit
    · split_ifs
      · exact List.not_mem_nil
      · exact ih _

theorem not_mem_ntoaPad {c : BitVec 8} (hc : hexDigit c = none) (hbuf : c ∉ buf) :
    c ∉ ntoaPad buf prec width flags := by
  have hzero : c ≠ ch '0' := by
    rintro rfl
    exact absurd hc (by decide)
  have hpad : ∀ limit buf, c ∉ buf → c ∉ padZeros limit buf := by
    intro limit buf hbuf hmem
    rcases List.mem_append.mp hmem with hmem | hmem
    · exact hbuf hmem
    · exact hzero (List.eq_of_mem_replicate hmem)
  rw [ntoaPad]
  split_ifs
  · exact hbuf
  · exact hpad _ _ (hpad _ _ hbuf)
  · exact hpad _ _ hbuf

end Sign

section Text

variable {value : Word} {base prec width : ℕ} {negative : Bool} {flags : Flags}

theorem ntoaFlags_of_not (h : flags.hash = false) : ntoaFlags value flags = flags := by
  rw [ntoaFlags,← h,ite_self]

theorem reads_ntoaBuf (hbase : base ≤ 16) (hpos : 0 < base) (value : Word) (flags : Flags) :
    reads base (ntoaBuf value base flags) = value.toNat%base^ntoaBufferSize := by
  rw [ntoaBuf]
  split_ifs with hdigits
  · exact reads_ntoaDigits hbase hpos flags _ _
  · have hzero : value = 0 := by
      by_contra hne
      exact hdigits (by rw [decide_eq_true hne,Bool.or_true])
    rw [hzero]
    exact (Nat.zero_mod _).symm

theorem ntoaHash_of_not {buf : List (BitVec 8)} (h : flags.hash = false) :
    ntoaHash buf base prec width flags = buf := by
  rw [ntoaHash,h]
  rfl

theorem numeral_ntoaText_buf : numeral base (ntoaText value negative base prec width flags) =
    reads base (ntoaHash (ntoaPad (ntoaBuf value base (ntoaFlags value flags)) prec
      (ntoaWidth negative width (ntoaFlags value flags)) (ntoaFlags value flags)) base prec
      (ntoaWidth negative width (ntoaFlags value flags)) (ntoaFlags value flags)) := by
  simp only [ntoaText]
  rw [numeral_outRevText,reads_ntoaSign]

theorem numeral_ntoaText (hbase : base ≤ 16) (hpos : 0 < base)
    (h : (ntoaFlags value flags).hash = false) :
    numeral base (ntoaText value negative base prec width flags) =
      value.toNat%base^ntoaBufferSize := by
  rw [numeral_ntoaText_buf,ntoaHash_of_not h,reads_ntoaPad hpos,reads_ntoaBuf hbase hpos]

theorem not_mem_ntoaBuf {c : BitVec 8} (hc : hexDigit c = none) (hbase : base ≤ 16) (hpos : 0 < base) :
    c ∉ ntoaPad (ntoaBuf value base flags) prec width flags := by
  refine not_mem_ntoaPad hc ?_
  rw [ntoaBuf]
  split_ifs
  · exact not_mem_ntoaDigits hc hbase hpos _ _ _
  · exact List.not_mem_nil

theorem minus_ntoaText (hbase : base ≤ 16) (hpos : 0 < base) (h : flags.hash = false) :
    ch '-' ∈ ntoaText value negative base prec width flags ↔ negative = true ∧
      (ntoaPad (ntoaBuf value base flags) prec (ntoaWidth negative width flags) flags).length <
        ntoaBufferSize := by
  simp only [ntoaText,ntoaFlags_of_not h,ntoaHash_of_not h]
  rw [mem_outRevText (by decide),mem_ntoaSign (not_mem_ntoaBuf (by decide) hbase hpos)]

theorem not_mem_ntoaText {c : BitVec 8} (hc : hexDigit c = none) (hsign : c ∉ [ch '-',ch '+',ch ' '])
    (hbase : base ≤ 16) (hpos : 0 < base) (h : flags.hash = false) :
    c ∉ ntoaText value negative base prec width flags := by
  have hspace : c ≠ ch ' ' := fun he => hsign (by simp [he])
  simp only [ntoaText,ntoaFlags_of_not h,ntoaHash_of_not h]
  rw [mem_outRevText hspace]
  exact not_mem_ntoaSign (not_mem_ntoaBuf hc hbase hpos) hsign

/-- The sign has no room behind zeros that fill the buffer. -/
theorem room_iff {buf : List (BitVec 8)} (hlen : buf.length ≤ 20) :
    (ntoaPad buf prec (ntoaWidth true width flags) flags).length < ntoaBufferSize ↔
      flags.left = true ∨ prec < 32 ∧ (flags.zeropad = true → width ≤ 32) := by
  have hsize : ntoaBufferSize = 32 := rfl
  rw [length_ntoaPad,ntoaWidth,hsize]
  cases flags.left with
  | true =>
    simp only [if_true,true_or,iff_true]
    omega
  | false =>
    cases flags.zeropad with
    | true =>
      have hwidth : (if !false && decide (width ≠ 0) && true && (true || flags.plus || flags.space)
          then width-1 else width) = width-1 := by
        by_cases hzero : width = 0 <;> simp [hzero]
      rw [hwidth]
      simp only [Bool.false_eq_true,if_false,if_true,false_or,forall_const]
      omega
    | false =>
      simp only [Bool.false_eq_true,if_false,false_or,false_implies,and_true]
      omega

theorem length_ntoaBuf (value : Word) (flags : Flags) : (ntoaBuf value 10 flags).length ≤ 20 := by
  rw [ntoaBuf]
  split_ifs
  · exact length_ntoaDigits (by decide) (by omega)
  · exact Nat.zero_le _

end Text

section Signed

variable {c : BitVec 8} {spec : Spec} {arg : Word}

theorem integerBase_le (c : BitVec 8) : 2 ≤ integerBase c ∧ integerBase c ≤ 16 := by
  rw [integerBase]
  split_ifs <;> decide

theorem integerFlags_left (c : BitVec 8) (flags : Flags) :
    (integerFlags c flags).left = flags.left := by
  simp only [integerFlags]
  split_ifs <;> rfl

theorem integerFlags_zeropad (c : BitVec 8) (flags : Flags) :
    (integerFlags c flags).zeropad = (flags.zeropad && !flags.precision) := by
  simp only [integerFlags]
  split_ifs <;> simp_all

theorem integerFlags_precision (c : BitVec 8) (flags : Flags) :
    (integerFlags c flags).precision = flags.precision := by
  simp only [integerFlags]
  split_ifs <;> rfl

theorem isSigned_base (hc : isSigned c = true) : integerBase c = 10 := by
  rcases Bool.or_eq_true_iff.mp hc with h | h <;> rw [of_decide_eq_true h] <;> rfl

theorem isSigned_hash (hc : isSigned c = true) (flags : Flags) :
    (integerFlags c flags).hash = false := by
  simp only [integerFlags,isSigned_base hc,if_true]
  split_ifs <;> rfl

theorem integerText_signed (hc : isSigned c = true) : integerText c spec arg =
    ntoaText (integerValue c (integerFlags c spec.flags) arg).1
      (integerValue c (integerFlags c spec.flags) arg).2 10 spec.precision spec.width
      (integerFlags c spec.flags) := by
  rw [← isSigned_base hc]
  rfl

theorem numeral_integerText (hc : isSigned c = true) : numeral 10 (integerText c spec arg) =
    (argument c (integerFlags c spec.flags) arg).natAbs := by
  have hhash := isSigned_hash hc spec.flags
  have hlt := (integerValue c (integerFlags c spec.flags) arg).1.isLt
  have hsize : (10 : ℕ)^ntoaBufferSize = 10^32 := rfl
  rw [integerText_signed hc,numeral_ntoaText (by decide) (by decide)
    ((congrArg _ (ntoaFlags_of_not hhash)).trans hhash),← (integerValue_eq c _ arg).1,hsize,
    Nat.mod_eq_of_lt (by omega)]

theorem minus_integerText (hc : isSigned c = true) :
    ch '-' ∈ integerText c spec arg ↔ argument c (integerFlags c spec.flags) arg < 0 ∧
      (spec.flags.left = true ∨ spec.precision < 32 ∧
        (spec.flags.zeropad = true → spec.flags.precision = true ∨ spec.width ≤ 32)) := by
  rw [integerText_signed hc,minus_ntoaText (by decide) (by decide) (isSigned_hash hc spec.flags),
    (integerValue_eq c _ arg).2,decide_eq_true_eq]
  refine and_congr_right fun hlt => ?_
  rw [decide_eq_true hlt,room_iff (length_ntoaBuf _ _),integerFlags_left,integerFlags_zeropad]
  cases spec.flags.precision <;> simp

def readSigned (s : List (BitVec 8)) : ℤ :=
  if s.contains (ch '-') then -numeral 10 s else numeral 10 s

/-- Whatever flags, width and precision are, a signed number is read back from its text,
unless it is negative and zeros fill the buffer before the sign is put there. -/
theorem signed_reads_iff (hc : isSigned c = true) :
    readSigned (integerText c spec arg) = argument c (integerFlags c spec.flags) arg ↔
      (argument c (integerFlags c spec.flags) arg < 0 → spec.flags.left = true ∨ spec.precision < 32 ∧
        (spec.flags.zeropad = true → spec.flags.precision = true ∨ spec.width ≤ 32)) := by
  rw [readSigned,numeral_integerText hc]
  simp only [List.contains_iff_mem]
  split_ifs with hmem
  · obtain ⟨hlt,hroom⟩ := (minus_integerText hc).mp hmem
    exact iff_of_true (by omega) fun _ => hroom
  · constructor
    · intro he hlt
      omega
    · intro hroom
      have hpos : ¬argument c (integerFlags c spec.flags) arg < 0 :=
        fun hlt => hmem ((minus_integerText hc).mpr ⟨hlt,hroom hlt⟩)
      omega

end Signed

/-- `%033d` of -1 fills the buffer with zeros. -/
theorem signed_reads_wide : readSigned (integerText (ch 'd')
    ⟨{ Flags.none with zeropad := true },33,0⟩ 0xffffffffffffffff) ≠ -1 := by
  have hargument : argument (ch 'd') (integerFlags (ch 'd') { Flags.none with zeropad := true })
      0xffffffffffffffff = -1 := by decide
  intro h
  rw [← hargument] at h
  exact absurd ((signed_reads_iff (by decide)).mp h (by decide)) (by decide)

def prefixPlaces (len base : ℕ) : ℕ := if len ≠ 1 ∧ base = 16 then 2 else 1

section Prefix

variable {base prec width value : ℕ} {flags : Flags} {buf : List (BitVec 8)}

theorem ntoaShorten_eq (hprec : flags.precision = false) (hlen : buf.length ≠ 0) :
    ntoaShorten buf base 0 width flags =
      if buf.length = width then buf.take (buf.length-prefixPlaces buf.length base) else buf := by
  have hcond : (flags.precision = false ∧ buf.length ≠ 0 ∧ (buf.length = 0 ∨ buf.length = width)) ↔
      buf.length = width := by
    simp [hprec,hlen]
  have hone : (buf.dropLast.length ≠ 0 ∧ base = 16) ↔ (buf.length ≠ 1 ∧ base = 16) := by
    rw [List.length_dropLast]
    exact and_congr_left fun _ => by omega
  simp only [ntoaShorten,hcond,hone,prefixPlaces]
  split_ifs
  · rw [List.dropLast_eq_take,List.dropLast_eq_take,List.length_take,List.take_take]
    congr 1
    omega
  · exact List.dropLast_eq_take
  · rfl

theorem ntoaShorten_of_precision (hprec : flags.precision = true) :
    ntoaShorten buf base prec width flags = buf := by
  rw [ntoaShorten,hprec]
  exact if_neg fun h => by cases h.1

theorem reads_ntoaPrefix (hbase : 0 < base) (flags : Flags) (buf : List (BitVec 8)) :
    reads base (ntoaPrefix buf base flags) = reads base buf := by
  have hone : ∀ {c}, digitOf base c = none → reads base (buf++[c]) = reads base buf := fun hc =>
    reads_append _ fun c' hc' => by rw [List.mem_singleton.mp hc']; exact .inl hc
  rw [ntoaPrefix,reads_push (.inr (digitOf_zero hbase))]
  split_ifs with hlower hupper hbinary
  · exact hone (digitOf_none (by decide))
  · exact hone (digitOf_none (by decide))
  · obtain ⟨rfl,-⟩ := hbinary
    exact hone (by decide)
  · rfl

theorem ntoaDigits_eq (hbase : 2 ≤ base) {room : ℕ} (hv : value ≠ 0) (hlt : value < base^room) :
    ntoaDigits flags base room value = (Nat.digits base value).map (digitChar flags) := by
  induction room generalizing value with
  | zero => exact absurd (Nat.lt_one_iff.mp hlt) hv
  | succ room ih =>
    rw [ntoaDigits,Nat.digits_eq_cons_digits_div hbase hv,List.map_cons]
    refine congrArg (digitChar flags (value%base)::·) ?_
    split_ifs with hdone
    · rw [hdone,Nat.digits_zero]
      rfl
    · exact ih hdone (Nat.div_lt_of_lt_mul (by rwa [← Nat.pow_succ']))

theorem reads_take (hbase : 2 ≤ base) (hbase' : base ≤ 16) (n z : ℕ) :
    reads base ((((Nat.digits base value).map (digitChar flags))++List.replicate z (ch '0')).take n) =
      value%base^n := by
  have hdigits : ∀ l : List ℕ, (∀ d ∈ l, d < base) →
      (l.map (digitChar flags)).filterMap (digitOf base) = l := by
    intro l hl
    induction l with
    | nil => rfl
    | cons d l ih =>
      rw [List.map_cons,List.filterMap_cons_some (digitOf_digitChar hbase' (hl d List.mem_cons_self)),
        ih fun d hd => hl d (List.mem_cons_of_mem _ hd)]
  rw [List.take_append,← List.map_take,reads_append _ fun c hc => .inr ?_,reads,
    hdigits _ fun d hd => Nat.digits_lt_base hbase (List.mem_of_mem_take hd),
    Nat.self_mod_pow_eq_ofDigits_take n value hbase]
  rw [List.eq_of_mem_replicate (List.mem_of_mem_take hc)]
  exact digitOf_zero (by omega)

end Prefix

section Unsigned

variable {base width : ℕ} {value : Word} {flags : Flags} {buf : List (BitVec 8)} {c : BitVec 8}
  {spec : Spec} {arg : Word}

theorem parseLength_precision (flags : Flags) (format : List (BitVec 8)) :
    (parseLength flags format).1.precision = flags.precision := by
  cases format with
  | nil => rfl
  | cons c format =>
    rw [parseLength]
    split_ifs <;> rfl

theorem parseWidth_precision {r r' : Rest} (h : parseWidth flags r = .ok (spec,r')) :
    spec.precision = 0 := by
  obtain ⟨format,va⟩ := r
  cases format with
  | nil => cases h; rfl
  | cons c format =>
    simp only [parseWidth] at h
    split_ifs at h
    · cases h; rfl
    · obtain _ | ⟨w | s,va⟩ := va
      · cases h
      · simp only [vaWord,bind,Except.bind] at h
        split_ifs at h <;> cases h <;> rfl
      · cases h
    · cases h; rfl

theorem parsePrecision_precision {spec' : Spec} {r r' : Rest} (hzero : spec.precision = 0)
    (h : parsePrecision spec r = .ok (spec',r')) : spec'.flags.precision = false → spec'.precision = 0 := by
  obtain ⟨format,va⟩ := r
  cases format with
  | nil => cases h; exact fun _ => hzero
  | cons dot format =>
    simp only [parsePrecision] at h
    split_ifs at h
    · cases format with
      | nil => cases h; exact fun hno => by cases hno
      | cons c format =>
        simp only at h
        split_ifs at h
        · cases h; exact fun hno => by cases hno
        · obtain _ | ⟨w | s,va⟩ := va
          · cases h
          · cases h; exact fun hno => by cases hno
          · cases h
        · cases h; exact fun hno => by cases hno
    · cases h; exact fun _ => hzero

theorem parseSpec_precision {r r' : Rest} (h : parseSpec r = .ok (spec,r'))
    (hno : spec.flags.precision = false) : spec.precision = 0 := by
  simp only [parseSpec] at h
  cases hw : parseWidth (parseFlags .none r.format).1 ⟨(parseFlags .none r.format).2,r.va⟩ with
  | error e => rw [hw] at h; cases h
  | ok x =>
    rw [hw] at h
    cases hp : parsePrecision x.1 x.2 with
    | error e => simp only [bind,Except.bind,hp] at h; cases h
    | ok y =>
      simp only [bind,Except.bind,hp] at h
      cases h
      have hzero := parsePrecision_precision (parseWidth_precision hw) hp
      exact hzero ((parseLength_precision y.1.flags y.2.format).symm.trans hno)

theorem ntoaPad_zero (width : ℕ) (flags : Flags) (buf : List (BitVec 8)) :
    ntoaPad buf 0 width flags = buf++List.replicate
      (if flags.zeropad = true ∧ flags.left = false then min width ntoaBufferSize-buf.length else 0)
      (ch '0') := by
  have hzero : padZeros 0 buf = buf := by
    rw [padZeros,Nat.zero_min,Nat.zero_sub]
    exact List.append_nil buf
  rw [ntoaPad,hzero]
  cases flags.left <;> cases flags.zeropad <;> simp [padZeros]

/-- With a prefix the number is read back when the padding has place for it. -/
theorem numeral_hash_iff (hbase : 2 ≤ base) (hbase' : base ≤ 16) (hhash : flags.hash = true)
    (hprec : flags.precision = false) (hwidth : ntoaWidth false width flags = width) (hv : value ≠ 0)
    (hfits : value.toNat < base^ntoaBufferSize) :
    numeral base (ntoaText value false base 0 width flags) = value.toNat ↔
      ¬((Nat.digits base value.toNat).length = width ∨ base = 16 ∧ flags.zeropad = true ∧
        flags.left = false ∧ (Nat.digits base value.toNat).length+1 = width) := by
  have hv' : value.toNat ≠ 0 := fun h => hv (BitVec.eq_of_toNat_eq h)
  have hflags : ntoaFlags value flags = flags := if_neg hv
  have hbuf : ntoaBuf value base flags = (Nat.digits base value.toNat).map (digitChar flags) := by
    rw [ntoaBuf,hprec]
    exact ntoaDigits_eq hbase hv' hfits
  have hle : (Nat.digits base value.toNat).length ≤ 32 := (Nat.digits_length_le_iff hbase _).mpr hfits
  have hpos : (Nat.digits base value.toNat).length ≠ 0 := by
    rw [ne_eq,List.length_eq_zero_iff]
    exact Nat.digits_ne_nil_iff_ne_zero.mpr hv'
  have hsize : ntoaBufferSize = 32 := rfl
  rw [numeral_ntoaText_buf,hflags,hwidth,hbuf,ntoaPad_zero,List.length_map,ntoaHash,hhash,if_pos rfl,
    reads_ntoaPrefix (by omega)]
  generalize hz : (if flags.zeropad = true ∧ flags.left = false then
    min width ntoaBufferSize-(Nat.digits base value.toNat).length else 0) = z
  have hlen : ((Nat.digits base value.toNat).map (digitChar flags)++
      List.replicate z (ch '0')).length = (Nat.digits base value.toNat).length+z := by
    rw [List.length_append,List.length_map,List.length_replicate]
  have hsixteen : base = 16 → (Nat.digits base value.toNat).length ≤ 16 := by
    rintro rfl
    exact (Nat.digits_length_le_iff (by decide) _).mpr value.isLt
  have htake : ∀ n, reads base ((((Nat.digits base value.toNat).map (digitChar flags))++
      List.replicate z (ch '0')).take n) = value.toNat ↔ (Nat.digits base value.toNat).length ≤ n := by
    intro n
    rw [reads_take hbase hbase',Nat.mod_eq_iff_lt (Nat.pow_pos (by omega)).ne',
      Nat.digits_length_le_iff hbase]
  rw [ntoaShorten_eq hprec (by omega),hlen]
  by_cases hfull : (Nat.digits base value.toNat).length+z = width
  · rw [if_pos hfull,htake,← hfull,prefixPlaces]
    split_ifs at hz with hpad
    · simp only [hpad.1,hpad.2,true_and]
      split_ifs <;> omega
    · have hno : ¬(base = 16 ∧ flags.zeropad = true ∧ flags.left = false ∧
          (Nat.digits base value.toNat).length+1 = (Nat.digits base value.toNat).length+z) :=
        fun h => hpad ⟨h.2.1,h.2.2.1⟩
      rw [or_iff_left hno]
      split_ifs <;> omega
  · rw [if_neg hfull,← List.take_of_length_le hlen.le,htake]
    refine iff_of_true (Nat.le_add_right _ _) ?_
    rintro (h | ⟨h₁,h₂,h₃,h₄⟩)
    · split_ifs at hz <;> omega
    · rw [if_pos ⟨h₂,h₃⟩] at hz
      have := hsixteen h₁
      omega

/-- An unsigned number is read back from its text, unless `#` puts the prefix in the
place of digits that fill the field. -/
theorem unsigned_reads_iff (hc : isSigned c = false) {r r' : Rest}
    (hspec : parseSpec r = .ok (spec,r'))
    (hfits : (unsignedValue (integerFlags c spec.flags) arg).toNat < integerBase c^ntoaBufferSize) :
    numeral (integerBase c) (integerText c spec arg) =
        (unsignedValue (integerFlags c spec.flags) arg).toNat ↔
      ¬(spec.flags.hash = true ∧ integerBase c ≠ 10 ∧ spec.flags.precision = false ∧
        unsignedValue (integerFlags c spec.flags) arg ≠ 0 ∧
        ((Nat.digits (integerBase c) (unsignedValue (integerFlags c spec.flags) arg).toNat).length =
            spec.width ∨
          integerBase c = 16 ∧ spec.flags.zeropad = true ∧ spec.flags.left = false ∧
            (Nat.digits (integerBase c) (unsignedValue (integerFlags c spec.flags) arg).toNat).length+1 =
              spec.width)) := by
  have hvalue : integerValue c (integerFlags c spec.flags) arg =
      (unsignedValue (integerFlags c spec.flags) arg,false) := by
    rw [integerValue,hc]
    rfl
  obtain ⟨hbase,hbase'⟩ := integerBase_le c
  have htext : integerText c spec arg = ntoaText (unsignedValue (integerFlags c spec.flags) arg) false
      (integerBase c) spec.precision spec.width (integerFlags c spec.flags) := by
    simp only [integerText,hvalue]
  have hhash : (integerFlags c spec.flags).hash = (spec.flags.hash && decide (integerBase c ≠ 10)) := by
    simp only [integerFlags]
    split_ifs <;> simp_all
  have hsign : (integerFlags c spec.flags).plus = false ∧ (integerFlags c spec.flags).space = false := by
    simp only [integerFlags,hc]
    split_ifs <;> simp_all
  have hwidth : ntoaWidth false spec.width (integerFlags c spec.flags) = spec.width := by
    rw [ntoaWidth,hsign.1,hsign.2,Bool.or_false,Bool.or_false,Bool.and_false]
    rfl
  have hplain : (ntoaFlags (unsignedValue (integerFlags c spec.flags) arg)
      (integerFlags c spec.flags)).hash = false → numeral (integerBase c) (integerText c spec arg) =
      (unsignedValue (integerFlags c spec.flags) arg).toNat := by
    intro h
    rw [htext,numeral_ntoaText hbase' (by omega) h,Nat.mod_eq_of_lt hfits]
  by_cases hv : unsignedValue (integerFlags c spec.flags) arg = 0
  · refine iff_of_true (hplain ?_) fun h => h.2.2.2.1 hv
    rw [ntoaFlags,if_pos hv]
  cases hbeg : (integerFlags c spec.flags).hash with
  | false =>
    refine iff_of_true (hplain ?_) fun h => ?_
    · rw [ntoaFlags_of_not hbeg,hbeg]
    · rw [hhash,h.1,decide_eq_true h.2.1] at hbeg
      cases hbeg
  | true =>
    have hset : spec.flags.hash = true ∧ integerBase c ≠ 10 := by
      rw [hhash,Bool.and_eq_true,decide_eq_true_eq] at hbeg
      exact hbeg
    cases hprec : spec.flags.precision with
    | true =>
      refine iff_of_true ?_ fun h => by cases h.2.2.1
      have hprec' := (integerFlags_precision c spec.flags).trans hprec
      have hflags : ntoaFlags (unsignedValue (integerFlags c spec.flags) arg)
          (integerFlags c spec.flags) = integerFlags c spec.flags := if_neg hv
      rw [htext,numeral_ntoaText_buf,hflags,ntoaHash,hbeg,if_pos rfl,
        reads_ntoaPrefix (by omega),ntoaShorten_of_precision hprec',reads_ntoaPad (by omega),
        reads_ntoaBuf hbase' (by omega),Nat.mod_eq_of_lt hfits]
    | false =>
      have hprec' := (integerFlags_precision c spec.flags).trans hprec
      rw [htext,parseSpec_precision hspec hprec,numeral_hash_iff hbase hbase' hbeg hprec' hwidth hv hfits,
        integerFlags_left,integerFlags_zeropad,hprec,Bool.not_false,Bool.and_true]
      exact not_congr ⟨fun h => ⟨hset.1,hset.2,rfl,hv,h⟩,fun h => h.2.2.2.2⟩

end Unsigned

/-- `%#2x` of 0xab has no digits but the prefix. -/
theorem unsigned_reads_prefix : numeral 16 (integerText (ch 'x')
    ⟨{ Flags.none with hash := true },2,0⟩ 0xab) ≠ 0xab := by
  have hspec : parseSpec ⟨chars ['#','2','x'],[]⟩ =
      .ok (⟨{ Flags.none with hash := true },2,0⟩,⟨chars ['x'],[]⟩) := rfl
  have hdigits : (Nat.digits 16 0xab).length = 2 := by norm_num
  exact fun h => (@unsigned_reads_iff (ch 'x') _ 0xab (by decide) _ _ hspec (by decide)).mp h
    ⟨rfl,by decide,rfl,by decide,.inl hdigits⟩

end Printf
end Urvirt
