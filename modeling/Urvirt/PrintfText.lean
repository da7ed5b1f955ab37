import Mathlib.Data.List.GetD
import Urvirt.Printf

/-!
# The text that printf puts out

What is printed is one text, which the format and the arguments determine. Every output
function gets its characters one after the other, so a buffer that is too small holds
the beginning of it.
-/

namespace Urvirt
namespace Printf

def outRevText (buf : List (BitVec 8)) (width : ℕ) (flags : Flags) : List (BitVec 8) :=
  let spaces := List.replicate (width-buf.length) (ch ' ')
  if flags.left then buf.reverse++spaces
  else if flags.zeropad then buf.reverse else spaces++buf.reverse

/-- Zero has no prefix. -/
def ntoaFlags (value : Word) (flags : Flags) : Flags :=
  if value = 0 then { flags with hash := false } else flags

/-- Zero has no digits where a precision is given. -/
def ntoaBuf (value : Word) (base : ℕ) (flags : Flags) : List (BitVec 8) :=
  if !flags.precision || decide (value ≠ 0) then ntoaDigits flags base ntoaBufferSize value.toNat
  else []

def ntoaText (value : Word) (negative : Bool) (base prec width : ℕ) (flags : Flags) :
    List (BitVec 8) :=
  let flags := ntoaFlags value flags
  let width := ntoaWidth negative width flags
  let buf := ntoaHash (ntoaPad (ntoaBuf value base flags) prec width flags) base prec width flags
  outRevText (ntoaSign buf negative flags) width flags

def integerText (c : BitVec 8) (spec : Spec) (arg : Word) : List (BitVec 8) :=
  let flags := integerFlags c spec.flags
  let (value,negative) := integerValue c flags arg
  ntoaText value negative (integerBase c) spec.precision spec.width flags

/-- A text in a field, and the spaces around it. -/
def fieldText (left : Bool) (spaces : ℕ) (s : List (BitVec 8)) : List (BitVec 8) :=
  if left then s++List.replicate spaces (ch ' ') else List.replicate spaces (ch ' ')++s

def characters (precision : Option ℕ) (s : List (BitVec 8)) : List (BitVec 8) :=
  match precision with
  | none => s.takeWhile (· ≠ 0)
  | some n => (s.takeWhile (· ≠ 0)).take n

def stringText (spec : Spec) (s : List (BitVec 8)) : List (BitVec 8) :=
  fieldText spec.flags.left (spec.width-stringLength spec s)
    (characters (if spec.flags.precision then some spec.precision else none) s)

def characterText (spec : Spec) (arg : Word) : List (BitVec 8) :=
  fieldText spec.flags.left (spec.width-1) [arg.setWidth 8]

def pointerText (spec : Spec) (arg : Word) : List (BitVec 8) :=
  ntoaText arg false 16 spec.precision 16 { spec.flags with zeropad := true, uppercase := true }

def convertText (floats : Floats) (c : BitVec 8) (spec : Spec) (va : List Arg) :
    Except Fault (List (BitVec 8) × List Arg) :=
  if isInteger c then do
    let (arg,va) ← vaWord va
    return (integerText c spec arg,va)
  else if c = ch 'f' ∨ c = ch 'F' then do
    let (arg,va) ← vaWord va
    return (floats.ftoa arg spec.precision spec.width (ftoaFlags c spec.flags),va)
  else if c = ch 'e' ∨ c = ch 'E' ∨ c = ch 'g' ∨ c = ch 'G' then do
    let (arg,va) ← vaWord va
    return (floats.etoa arg spec.precision spec.width (etoaFlags c spec.flags),va)
  else if c = ch 'c' then do
    let (arg,va) ← vaWord va
    return (characterText spec arg,va)
  else if c = ch 's' then do
    let (s,va) ← vaStr va
    return (stringText spec s,va)
  else if c = ch 'p' then do
    let (arg,va) ← vaWord va
    return (pointerText spec arg,va)
  else .ok ([c],va)

def stepText (floats : Floats) (r : Rest) : Except Fault (Option (Rest × List (BitVec 8))) :=
  match r.format with
  | [] => .ok none
  | c::format =>
    if c = 0 then .ok none
    else if c ≠ ch '%' then .ok (some (⟨format,r.va⟩,[c]))
    else do
      let (spec,rest) ← parseSpec ⟨format,r.va⟩
      match rest.format with
      | [] => .error .pastEnd
      | c::format =>
        if c = 0 then .error .pastEnd
        else do
          let (s,va) ← convertText floats c spec rest.va
          return some (⟨format,va⟩,s)

section Emit

variable {σ : Type} (out : OutFct σ) (maxlen : ℕ) (p : σ × ℕ)

theorem emit_append (s t : List (BitVec 8)) :
    emit out maxlen (s++t) p = emit out maxlen t (emit out maxlen s p) := by
  induction s generalizing p with
  | nil => rfl
  | cons c s ih => exact ih _

theorem fill_eq (c : BitVec 8) (n : ℕ) :
    fill out maxlen c n p = emit out maxlen (List.replicate n c) p := by
  induction n generalizing p with
  | zero => rfl
  | succ n ih => exact ih _

theorem emit_idx (s : List (BitVec 8)) : (emit out maxlen s p).2 = p.2+s.length := by
  induction s generalizing p with
  | nil => rfl
  | cons c s ih =>
    rw [emit,ih,List.length_cons]
    change p.2+1+s.length = _
    omega

theorem outRev_eq (buf : List (BitVec 8)) (width : ℕ) (flags : Flags) :
    outRev out maxlen buf width flags p = emit out maxlen (outRevText buf width flags) p := by
  rw [outRev,outRevText]
  cases flags.left with
  | true =>
    simp only [Bool.not_true,Bool.false_and,Bool.false_eq_true,if_false,if_true]
    rw [fill_eq,emit_append,emit_idx,List.length_reverse,Nat.add_sub_cancel_left]
  | false =>
    cases flags.zeropad with
    | true => rfl
    | false =>
      simp only [Bool.not_false,Bool.and_self,Bool.false_eq_true,if_false,if_true]
      rw [fill_eq,emit_append]

theorem ntoaLong_eq (value : Word) (negative : Bool) (base prec width : ℕ) (flags : Flags) :
    ntoaLong out maxlen value negative base prec width flags p =
      emit out maxlen (ntoaText value negative base prec width flags) p :=
  outRev_eq out maxlen p _ _ _

theorem outInteger_eq (c : BitVec 8) (spec : Spec) (arg : Word) :
    outInteger out maxlen c spec arg p = emit out maxlen (integerText c spec arg) p := by
  simp only [outInteger,integerText,ntoaLongLong,ntoaLong_eq,ite_self]

theorem outPointer_eq (spec : Spec) (arg : Word) :
    outPointer out maxlen spec arg p = emit out maxlen (pointerText spec arg) p :=
  ntoaLong_eq out maxlen p _ _ _ _ _ _

theorem field_eq (left : Bool) (spaces : ℕ) (s : List (BitVec 8)) :
    (let p := if left then p else fill out maxlen (ch ' ') spaces p
     let p := emit out maxlen s p
     if left then fill out maxlen (ch ' ') spaces p else p) =
      emit out maxlen (fieldText left spaces s) p := by
  cases left with
  | true => exact (fill_eq out maxlen _ _ _).trans (emit_append out maxlen p s _).symm
  | false =>
    refine Eq.trans ?_ (emit_append out maxlen p _ s).symm
    exact congrArg (emit out maxlen s) (fill_eq out maxlen p _ _)

theorem outCharacter_eq (spec : Spec) (arg : Word) :
    outCharacter out maxlen spec arg p = emit out maxlen (characterText spec arg) p :=
  field_eq out maxlen p spec.flags.left (spec.width-1) [arg.setWidth 8]

theorem outCharacters_eq (precision : Option ℕ) (s : List (BitVec 8)) :
    outCharacters out maxlen precision s p = emit out maxlen (characters precision s) p := by
  induction s generalizing precision p with
  | nil => cases precision <;> simp [outCharacters,characters,emit]
  | cons c s ih =>
    cases precision with
    | none =>
      rw [outCharacters,characters,List.takeWhile_cons]
      by_cases hc : c = 0
      · simp [hc,emit]
      · simp only [hc,if_false,ne_eq,not_false_eq_true,decide_true,if_true,emit]
        exact ih _ none
    | some n =>
      cases n with
      | zero => simp [outCharacters,characters,emit]
      | succ n =>
        rw [outCharacters,characters,List.takeWhile_cons]
        by_cases hc : c = 0
        · simp [hc,emit]
        · simp only [hc,if_false,ne_eq,not_false_eq_true,decide_true,if_true,emit,List.take_succ_cons]
          exact ih _ (some n)

theorem outString_eq (spec : Spec) (s : List (BitVec 8)) :
    outString out maxlen spec s p = emit out maxlen (stringText spec s) p := by
  rw [outString,outCharacters_eq]
  exact field_eq out maxlen p _ _ _

theorem convert_eq (floats : Floats) (c : BitVec 8) (spec : Spec) (va : List Arg) :
    convert out maxlen floats c spec va p =
      (convertText floats c spec va).map fun x => (emit out maxlen x.1 p,x.2) := by
  simp only [convert,convertText,outInteger_eq,outCharacter_eq,outString_eq,outPointer_eq]
  split_ifs
  · cases vaWord va <;> rfl
  · cases vaWord va <;> rfl
  · cases vaWord va <;> rfl
  · cases vaWord va <;> rfl
  · cases vaStr va <;> rfl
  · cases vaWord va <;> rfl
  · rfl

theorem formatStep_eq (floats : Floats) (r : Rest) : formatStep out maxlen floats r p =
    (stepText floats r).map (Option.map fun x => (x.1,emit out maxlen x.2 p)) := by
  obtain ⟨format,va⟩ := r
  cases format with
  | nil => rfl
  | cons c format =>
    simp only [formatStep,stepText,convert_eq]
    split_ifs
    · rfl
    · rfl
    · cases parseSpec ⟨format,va⟩ with
      | error e => rfl
      | ok x =>
        obtain ⟨spec,⟨format',va'⟩⟩ := x
        cases format' with
        | nil => rfl
        | cons c' format' =>
          simp only [bind,Except.bind]
          split_ifs
          · rfl
          · cases convertText floats c' spec va' <;> rfl

end Emit

theorem stepText_length {floats : Floats} {r r' : Rest} {s : List (BitVec 8)}
    (h : stepText floats r = .ok (some (r',s))) : r'.format.length < r.format.length := by
  have hstep := formatStep_eq outNull 0 ((),0) floats r
  rw [h] at hstep
  exact formatStep_length outNull 0 floats hstep

def formatText (floats : Floats) (r : Rest) : Except Fault (List (BitVec 8)) :=
  match h : stepText floats r with
  | .error e => .error e
  | .ok none => .ok []
  | .ok (some (r',s)) =>
    have : r'.format.length < r.format.length := stepText_length h
    (formatText floats r').map (s++·)
termination_by r.format.length

section Text

variable {floats : Floats} {r r' : Rest} {s : List (BitVec 8)}

theorem formatText_error {e : Fault} (h : stepText floats r = .error e) :
    formatText floats r = .error e := by
  rw [formatText]
  split <;> rename_i h' <;> cases h.symm.trans h'
  rfl

theorem formatText_end (h : stepText floats r = .ok none) : formatText floats r = .ok [] := by
  rw [formatText]
  split <;> rename_i h' <;> cases h.symm.trans h'
  rfl

theorem formatText_next (h : stepText floats r = .ok (some (r',s))) :
    formatText floats r = (formatText floats r').map (s++·) := by
  rw [formatText]
  split <;> rename_i h' <;> cases h.symm.trans h'
  rfl

end Text

section Loop

variable {σ : Type} (out : OutFct σ) (maxlen : ℕ) (floats : Floats)

theorem formatLoop_eq (r : Rest) (p : σ × ℕ) : formatLoop out maxlen floats r p =
    (formatText floats r).map fun s => emit out maxlen s p := by
  induction hn : r.format.length using Nat.strong_induction_on generalizing r p with
  | _ n ih =>
    have hstep := formatStep_eq out maxlen p floats r
    cases h : stepText floats r with
    | error e =>
      rw [h] at hstep
      rw [formatLoop_error hstep,formatText_error h]
      rfl
    | ok next =>
      rw [h] at hstep
      cases next with
      | none =>
        rw [formatLoop_end hstep,formatText_end h]
        rfl
      | some x =>
        obtain ⟨r',s⟩ := x
        rw [formatLoop_next hstep,formatText_next h,ih _ (hn ▸ stepText_length h) r' _ rfl]
        cases formatText floats r' with
        | error e => rfl
        | ok t => exact congrArg Except.ok (emit_append out maxlen p s t).symm

/-- Whatever the output function does, it gets the characters of the text, then the
terminator. -/
theorem vsnprintfTo_eq (buffer : σ) (format : List (BitVec 8)) (va : List Arg) :
    vsnprintfTo out maxlen floats buffer format va = (formatText floats ⟨format,va⟩).map fun s =>
      (terminate out maxlen (emit out maxlen s (buffer,0)),BitVec.ofNat 32 s.length) := by
  rw [vsnprintfTo,formatLoop_eq]
  cases formatText floats ⟨format,va⟩ with
  | error e => rfl
  | ok s =>
    have hidx := emit_idx out maxlen (buffer,0) s
    rw [Nat.zero_add] at hidx
    simp only [Except.map,bind,Except.bind,hidx]
    rfl

end Loop

section Buffer

variable {count : ℕ}

theorem emit_outBuffer (s : List (BitVec 8)) (buffer : ℕ → BitVec 8) (idx i : ℕ) :
    (emit outBuffer count s (buffer,idx)).1 i =
      if idx ≤ i ∧ i < count then s.getD (i-idx) (buffer i) else buffer i := by
  induction s generalizing buffer idx with
  | nil => simp [emit]
  | cons c s ih =>
    rw [emit,put,ih]
    by_cases hi : i = idx
    · subst hi
      simp only [outBuffer,Nat.sub_self,List.getD_cons_zero,le_refl,true_and]
      rw [if_neg (by omega)]
      split_ifs
      · rw [Function.update_self]
      · rfl
    · have hkept : outBuffer c buffer idx count i = buffer i := by
        simp only [outBuffer]
        split_ifs
        · rw [Function.update_of_ne hi]
        · rfl
      rw [hkept]
      by_cases hle : idx ≤ i
      · obtain ⟨k,rfl⟩ : ∃ k, i = idx+1+k := ⟨i-(idx+1),by omega⟩
        rw [Nat.add_sub_cancel_left,show idx+1+k-idx = k+1 by omega,List.getD_cons_succ]
        simp only [show idx+1 ≤ idx+1+k by omega,show idx ≤ idx+1+k by omega,true_and]
      · rw [if_neg (by omega),if_neg (by omega)]

/-- A buffer of `count` bytes with a text: as much of it as there is room for, and the
terminator. -/
def placed (s : List (BitVec 8)) (count : ℕ) (buffer : ℕ → BitVec 8) : ℕ → BitVec 8 := fun i =>
  if i < min s.length (count-1) then s.getD i 0
  else if i = min s.length (count-1) ∧ i < count then 0 else buffer i

theorem terminate_outBuffer (s : List (BitVec 8)) (buffer : ℕ → BitVec 8) (hcount : count < 2^64) :
    terminate outBuffer count (emit outBuffer count s (buffer,0)) = placed s count buffer := by
  funext i
  have hbytes : (emit outBuffer count s (buffer,0)).1 i =
      if 0 ≤ i ∧ i < count then s.getD (i-0) (buffer i) else buffer i := emit_outBuffer s buffer 0 i
  have hidx := emit_idx outBuffer count (buffer,0) s
  rw [Nat.zero_add] at hidx
  simp only [Nat.zero_le,true_and,Nat.sub_zero] at hbytes
  rw [terminate,hidx,placed]
  by_cases hzero : count = 0
  · subst hzero
    simp only [outBuffer,Nat.not_lt_zero,if_false,and_false,Nat.zero_sub,Nat.min_zero] at hbytes ⊢
    exact hbytes
  have hlast : (if s.length < count then s.length else (count+2^64-1)%2^64) = min s.length (count-1) := by
    split_ifs <;> omega
  rw [hlast,outBuffer,if_pos (by omega)]
  by_cases hi : i = min s.length (count-1)
  · rw [← hi,Function.update_self,if_neg (lt_irrefl i),if_pos ⟨rfl,by omega⟩]
  · rw [Function.update_of_ne hi,hbytes,if_neg (c:=i = _ ∧ _) fun h => hi h.1]
    by_cases hlt : i < min s.length (count-1)
    · rw [if_pos (by omega),if_pos hlt,List.getD_eq_getElem _ _ (by omega),
        List.getD_eq_getElem _ _ (by omega)]
    · rw [if_neg hlt]
      split_ifs
      · exact List.getD_eq_default _ _ (by omega)
      · rfl

end Buffer

theorem emit_outFct {σ : Type} (fct : BitVec 8 → σ → σ) (maxlen : ℕ) (s : List (BitVec 8))
    (p : σ × ℕ) : (emit (outFct fct) maxlen s p).1 =
      (s.filter (· ≠ 0)).foldl (fun arg c => fct c arg) p.1 := by
  induction s generalizing p with
  | nil => rfl
  | cons c s ih =>
    rw [emit,ih,put,outFct]
    by_cases hc : c = 0
    · rw [if_pos hc,List.filter_cons_of_neg (by simpa using hc)]
    · rw [if_neg hc,List.filter_cons_of_pos (by simpa using hc),List.foldl_cons]

theorem emit_outChar (maxlen : ℕ) (s : List (BitVec 8)) (p : List (BitVec 8) × ℕ) :
    (emit outChar maxlen s p).1 = (s.filter (· ≠ 0)).reverse++p.1 := by
  rw [outChar,emit_outFct]
  exact List.foldl_flip_cons_eq_append'

section Print

variable (floats : Floats) (format : List (BitVec 8)) (va : List Arg)

theorem snprintf_eq (buffer : ℕ → BitVec 8) (count : Word) :
    snprintf floats (some buffer) count format va = (formatText floats ⟨format,va⟩).map fun s =>
      (some (placed s count.toNat buffer),BitVec.ofNat 32 s.length) := by
  rw [snprintf,vsnprintf,vsnprintfTo_eq]
  cases formatText floats ⟨format,va⟩ with
  | error e => rfl
  | ok s =>
    exact congrArg (fun b => Except.ok (some b,BitVec.ofNat 32 s.length))
      (terminate_outBuffer s buffer count.isLt)

theorem snprintf_none (count : Word) : snprintf floats none count format va =
    (formatText floats ⟨format,va⟩).map fun s => (none,BitVec.ofNat 32 s.length) := by
  rw [snprintf,vsnprintf,vsnprintfTo_eq]
  cases formatText floats ⟨format,va⟩ <;> rfl

theorem sprintf_eq (buffer : ℕ → BitVec 8) :
    sprintf floats (some buffer) format va = (formatText floats ⟨format,va⟩).map fun s =>
      (some (placed s (2^64-1) buffer),BitVec.ofNat 32 s.length) := by
  rw [sprintf,vsnprintf,vsnprintfTo_eq]
  cases formatText floats ⟨format,va⟩ with
  | error e => rfl
  | ok s =>
    exact congrArg (fun b => Except.ok (some b,BitVec.ofNat 32 s.length))
      (terminate_outBuffer s buffer (by decide))

theorem printf_eq (stderr : List (BitVec 8)) : printf floats stderr format va =
    (formatText floats ⟨format,va⟩).map fun s =>
      ((s.filter (· ≠ 0)).reverse++stderr,BitVec.ofNat 32 s.length) := by
  rw [printf,vsnprintfTo_eq]
  refine congrArg (fun f => (formatText floats ⟨format,va⟩).map f) (funext fun s => ?_)
  exact congrArg (fun t => (t,BitVec.ofNat 32 s.length)) (emit_outChar _ s (stderr,0))

theorem fctprintf_eq {σ : Type} (fct : BitVec 8 → σ → σ) (arg : σ) :
    fctprintf floats fct arg format va = (formatText floats ⟨format,va⟩).map fun s =>
      ((s.filter (· ≠ 0)).foldl (fun arg c => fct c arg) arg,BitVec.ofNat 32 s.length) := by
  rw [fctprintf,vsnprintfTo_eq]
  refine congrArg (fun f => (formatText floats ⟨format,va⟩).map f) (funext fun s => ?_)
  exact congrArg (fun t => (t,BitVec.ofNat 32 s.length)) (emit_outFct fct _ s (arg,0))

/-- The format and the arguments decide what is printed, and all functions print it. A
buffer gets as much of it as there is room for and is terminated, a callback gets its
characters in their order, and its length is returned even where nothing is put out. -/
theorem prints_text :
    (∀ buffer count, snprintf floats (some buffer) count format va =
      (formatText floats ⟨format,va⟩).map fun s =>
        (some (placed s count.toNat buffer),BitVec.ofNat 32 s.length)) ∧
    (∀ count, snprintf floats none count format va =
      (formatText floats ⟨format,va⟩).map fun s => (none,BitVec.ofNat 32 s.length)) ∧
    (∀ buffer, sprintf floats (some buffer) format va = (formatText floats ⟨format,va⟩).map fun s =>
      (some (placed s (2^64-1) buffer),BitVec.ofNat 32 s.length)) ∧
    (∀ stderr, printf floats stderr format va = (formatText floats ⟨format,va⟩).map fun s =>
      ((s.filter (· ≠ 0)).reverse++stderr,BitVec.ofNat 32 s.length)) ∧
    ∀ (σ : Type) (fct : BitVec 8 → σ → σ) (arg : σ), fctprintf floats fct arg format va =
      (formatText floats ⟨format,va⟩).map fun s =>
        ((s.filter (· ≠ 0)).foldl (fun arg c => fct c arg) arg,BitVec.ofNat 32 s.length) :=
  ⟨snprintf_eq floats format va,snprintf_none floats format va,sprintf_eq floats format va,
    printf_eq floats format va,fun _ fct arg => fctprintf_eq floats format va fct arg⟩

end Print

end Printf
end Urvirt
