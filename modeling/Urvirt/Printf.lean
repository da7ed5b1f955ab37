import Urvirt.Machine

/-!
# printf

The formatter behind the messages of the stub, for any output function. A string is
the list of its characters up to the terminator, a `char` is unsigned, and what the
conversions of floating-point numbers print is a parameter.
-/

namespace Urvirt
namespace Printf

def ch (c : Char) : BitVec 8 := BitVec.ofNat 8 c.toNat

def chars (s : List Char) : List (BitVec 8) := s.map ch

def ntoaBufferSize : ℕ := 32

structure Flags where
  zeropad : Bool
  left : Bool
  plus : Bool
  space : Bool
  hash : Bool
  uppercase : Bool
  char : Bool
  short : Bool
  long : Bool
  longLong : Bool
  precision : Bool
  adaptExp : Bool
  deriving DecidableEq

def Flags.none : Flags :=
  ⟨false,false,false,false,false,false,false,false,false,false,false,false⟩

/-- An argument in `va`: a word, or a pointer to a string. -/
inductive Arg
  | word (w : Word)
  | str (s : List (BitVec 8))
  deriving DecidableEq

/-- Why the formatter has no defined result: an argument is missing or of another kind,
or it reads behind the terminator of the format. -/
inductive Fault
  | argument
  | pastEnd
  deriving DecidableEq

/-- What `_ftoa` and `_etoa` print of a value, with precision, width and flags. -/
structure Floats where
  ftoa : Word → ℕ → ℕ → Flags → List (BitVec 8)
  etoa : Word → ℕ → ℕ → Flags → List (BitVec 8)

/-- `out_fct_type`: the character, what it goes to, its index and the limit. -/
abbrev OutFct (σ : Type) := BitVec 8 → σ → ℕ → ℕ → σ

def outBuffer : OutFct (ℕ → BitVec 8) := fun character buffer idx maxlen =>
  if idx < maxlen then Function.update buffer idx character else buffer

def outNull {σ : Type} : OutFct σ := fun _ buffer _ _ => buffer

/-- The callback of `fctprintf`. `_out_char` is the one for `_putchar`. -/
def outFct {σ : Type} (fct : BitVec 8 → σ → σ) : OutFct σ := fun character arg _ _ =>
  if character = 0 then arg else fct character arg

/-- `_putchar` appends to the standard error, the newest character first. -/
def outChar : OutFct (List (BitVec 8)) := outFct List.cons

def strnlen : List (BitVec 8) → ℕ → ℕ
  | [], _ => 0
  | _::_, 0 => 0
  | c::s, maxsize+1 => if c = 0 then 0 else strnlen s maxsize+1

def strnlenS (s : List (BitVec 8)) (maxsize : ℕ) : ℕ := strnlen s maxsize%2^32

def isDigit (c : BitVec 8) : Bool := decide (ch '0' ≤ c) && decide (c ≤ ch '9')

/-- The number that a string starts with, behind what was read of it, and the rest. -/
def atoi (i : BitVec 32) : List (BitVec 8) → BitVec 32 × List (BitVec 8)
  | [] => (i,[])
  | c::s => if isDigit c then atoi (i*10+(c.setWidth 32-(ch '0').setWidth 32)) s else (i,c::s)

/-- `digit < 10 ? '0' + digit : (flags & FLAGS_UPPERCASE ? 'A' : 'a') + digit - 10` -/
def digitChar (flags : Flags) (digit : ℕ) : BitVec 8 :=
  if digit < 10 then ch '0'+BitVec.ofNat 8 digit
  else (if flags.uppercase then ch 'A' else ch 'a')+BitVec.ofNat 8 digit-10

/-- The digits of a number, the last one first, as far as there is room for them. -/
def ntoaDigits (flags : Flags) (base : ℕ) : ℕ → ℕ → List (BitVec 8)
  | 0, _ => []
  | room+1, value => digitChar flags (value%base)::
      if value/base = 0 then [] else ntoaDigits flags base room (value/base)

/-- `if (len < PRINTF_NTOA_BUFFER_SIZE) buf[len++] = character;` -/
def push (character : BitVec 8) (buf : List (BitVec 8)) : List (BitVec 8) :=
  if buf.length < ntoaBufferSize then buf++[character] else buf

/-- `while (len < limit && len < PRINTF_NTOA_BUFFER_SIZE) buf[len++] = '0';` -/
def padZeros (limit : ℕ) (buf : List (BitVec 8)) : List (BitVec 8) :=
  buf++List.replicate (min limit ntoaBufferSize-buf.length) (ch '0')

/-- Room for the sign is taken from the width. -/
def ntoaWidth (negative : Bool) (width : ℕ) (flags : Flags) : ℕ :=
  if !flags.left && decide (width ≠ 0) && flags.zeropad && (negative || flags.plus || flags.space)
  then width-1 else width

def ntoaPad (buf : List (BitVec 8)) (prec width : ℕ) (flags : Flags) : List (BitVec 8) :=
  if flags.left then buf
  else if flags.zeropad then padZeros width (padZeros prec buf) else padZeros prec buf

/-- Padded digits make place for the prefix. -/
def ntoaShorten (buf : List (BitVec 8)) (base prec width : ℕ) (flags : Flags) : List (BitVec 8) :=
  if flags.precision = false ∧ buf.length ≠ 0 ∧ (buf.length = prec ∨ buf.length = width) then
    let buf := buf.dropLast
    if buf.length ≠ 0 ∧ base = 16 then buf.dropLast else buf
  else buf

def ntoaPrefix (buf : List (BitVec 8)) (base : ℕ) (flags : Flags) : List (BitVec 8) :=
  let buf :=
    if base = 16 ∧ flags.uppercase = false ∧ buf.length < ntoaBufferSize then buf++[ch 'x']
    else if base = 16 ∧ flags.uppercase = true ∧ buf.length < ntoaBufferSize then buf++[ch 'X']
    else if base = 2 ∧ buf.length < ntoaBufferSize then buf++[ch 'b'] else buf
  push (ch '0') buf

def ntoaHash (buf : List (BitVec 8)) (base prec width : ℕ) (flags : Flags) : List (BitVec 8) :=
  if flags.hash then ntoaPrefix (ntoaShorten buf base prec width flags) base flags else buf

def ntoaSign (buf : List (BitVec 8)) (negative : Bool) (flags : Flags) : List (BitVec 8) :=
  if negative then push (ch '-') buf
  else if flags.plus then push (ch '+') buf
  else if flags.space then push (ch ' ') buf else buf

section Out

variable {σ : Type} (out : OutFct σ) (maxlen : ℕ)

/-- `out(character, buffer, idx++, maxlen)` -/
def put (character : BitVec 8) (p : σ × ℕ) : σ × ℕ := (out character p.1 p.2 maxlen,p.2+1)

def fill (character : BitVec 8) : ℕ → σ × ℕ → σ × ℕ
  | 0, p => p
  | n+1, p => fill character n (put out maxlen character p)

def emit : List (BitVec 8) → σ × ℕ → σ × ℕ
  | [], p => p
  | c::s, p => emit s (put out maxlen c p)

/-- `_out_rev`: the buffer backwards, in a field of the given width. -/
def outRev (buf : List (BitVec 8)) (width : ℕ) (flags : Flags) (p : σ × ℕ) : σ × ℕ :=
  let startIdx := p.2
  let p := if !flags.left && !flags.zeropad then fill out maxlen (ch ' ') (width-buf.length) p else p
  let p := emit out maxlen buf.reverse p
  if flags.left then fill out maxlen (ch ' ') (width-(p.2-startIdx)) p else p

def ntoaFormat (buf : List (BitVec 8)) (negative : Bool) (base prec width : ℕ) (flags : Flags)
    (p : σ × ℕ) : σ × ℕ :=
  let width := ntoaWidth negative width flags
  let buf := ntoaPad buf prec width flags
  let buf := ntoaHash buf base prec width flags
  outRev out maxlen (ntoaSign buf negative flags) width flags p

def ntoaLong (value : Word) (negative : Bool) (base prec width : ℕ) (flags : Flags)
    (p : σ × ℕ) : σ × ℕ :=
  let flags := if value = 0 then { flags with hash := false } else flags
  let buf := if !flags.precision || decide (value ≠ 0) then
    ntoaDigits flags base ntoaBufferSize value.toNat else []
  ntoaFormat out maxlen buf negative base prec width flags p

/-- `_ntoa_long_long`: the same for another type of the same size. -/
def ntoaLongLong (value : Word) (negative : Bool) (base prec width : ℕ) (flags : Flags)
    (p : σ × ℕ) : σ × ℕ :=
  ntoaLong out maxlen value negative base prec width flags p

end Out

def vaWord : List Arg → Except Fault (Word × List Arg)
  | .word w::va => .ok (w,va)
  | _ => .error .argument

def vaStr : List Arg → Except Fault (List (BitVec 8) × List Arg)
  | .str s::va => .ok (s,va)
  | _ => .error .argument

def parseFlags (flags : Flags) : List (BitVec 8) → Flags × List (BitVec 8)
  | [] => (flags,[])
  | c::format =>
    if c = ch '0' then parseFlags { flags with zeropad := true } format
    else if c = ch '-' then parseFlags { flags with left := true } format
    else if c = ch '+' then parseFlags { flags with plus := true } format
    else if c = ch ' ' then parseFlags { flags with space := true } format
    else if c = ch '#' then parseFlags { flags with hash := true } format
    else (flags,c::format)

structure Spec where
  flags : Flags
  width : ℕ
  precision : ℕ
  deriving DecidableEq

structure Rest where
  format : List (BitVec 8)
  va : List Arg

/-- A negative width from the arguments asks for padding on the right. -/
def parseWidth (flags : Flags) (r : Rest) : Except Fault (Spec × Rest) :=
  match r.format with
  | [] => .ok (⟨flags,0,0⟩,r)
  | c::format =>
    if isDigit c then
      let (width,format) := atoi 0 (c::format)
      .ok (⟨flags,width.toNat,0⟩,⟨format,r.va⟩)
    else if c = ch '*' then do
      let (w,va) ← vaWord r.va
      let w : BitVec 32 := w.setWidth 32
      .ok (if w.slt 0 then ⟨{ flags with left := true },(-w).toNat,0⟩ else ⟨flags,w.toNat,0⟩,⟨format,va⟩)
    else .ok (⟨flags,0,0⟩,r)

def parsePrecision (spec : Spec) (r : Rest) : Except Fault (Spec × Rest) :=
  match r.format with
  | [] => .ok (spec,r)
  | dot::format =>
    if dot = ch '.' then
      let spec := { spec with flags := { spec.flags with precision := true } }
      match format with
      | [] => .ok (spec,⟨[],r.va⟩)
      | c::format =>
        if isDigit c then
          let (precision,format) := atoi 0 (c::format)
          .ok ({ spec with precision := precision.toNat },⟨format,r.va⟩)
        else if c = ch '*' then do
          let (prec,va) ← vaWord r.va
          let prec : BitVec 32 := prec.setWidth 32
          .ok ({ spec with precision := if (0 : BitVec 32).slt prec then prec.toNat else 0 },⟨format,va⟩)
        else .ok (spec,⟨c::format,r.va⟩)
    else .ok (spec,r)

/-- `ptrdiff_t`, `intmax_t` and `size_t` have the size of `long`. -/
def parseLength (flags : Flags) : List (BitVec 8) → Flags × List (BitVec 8)
  | [] => (flags,[])
  | c::format =>
    if c = ch 'l' then
      if format.head? = some (ch 'l') then ({ flags with long := true, longLong := true },format.tail)
      else ({ flags with long := true },format)
    else if c = ch 'h' then
      if format.head? = some (ch 'h') then ({ flags with short := true, char := true },format.tail)
      else ({ flags with short := true },format)
    else if c = ch 't' ∨ c = ch 'j' ∨ c = ch 'z' then ({ flags with long := true },format)
    else (flags,c::format)

def parseSpec (r : Rest) : Except Fault (Spec × Rest) := do
  let (flags,format) := parseFlags .none r.format
  let (spec,r) ← parseWidth flags ⟨format,r.va⟩
  let (spec,r) ← parsePrecision spec r
  let (flags,format) := parseLength spec.flags r.format
  return ({ spec with flags := flags },⟨format,r.va⟩)

def isInteger (c : BitVec 8) : Bool :=
  decide (c ∈ [ch 'd',ch 'i',ch 'u',ch 'x',ch 'X',ch 'o',ch 'b'])

def isSigned (c : BitVec 8) : Bool := decide (c = ch 'i') || decide (c = ch 'd')

def integerBase (c : BitVec 8) : ℕ :=
  if c = ch 'x' ∨ c = ch 'X' then 16 else if c = ch 'o' then 8 else if c = ch 'b' then 2 else 10

def integerFlags (c : BitVec 8) (flags : Flags) : Flags :=
  let flags := if integerBase c = 10 then { flags with hash := false } else flags
  let flags := if c = ch 'X' then { flags with uppercase := true } else flags
  let flags := if isSigned c then flags else { flags with plus := false, space := false }
  if flags.precision then { flags with zeropad := false } else flags

/-- `value > 0 ? value : 0 - value` -/
def absolute {w : ℕ} (value : BitVec w) : BitVec w := if (0 : BitVec w).slt value then value else 0-value

def signedValue (flags : Flags) (arg : Word) : Word × Bool :=
  if flags.longLong || flags.long then (absolute arg,arg.slt 0)
  else
    let value : BitVec 32 :=
      if flags.char then (arg.setWidth 8).setWidth 32
      else if flags.short then (arg.setWidth 16).signExtend 32 else arg.setWidth 32
    ((absolute value).setWidth 64,value.slt 0)

def unsignedValue (flags : Flags) (arg : Word) : Word :=
  if flags.longLong || flags.long then arg
  else if flags.char then (arg.setWidth 8).setWidth 64
  else if flags.short then (arg.setWidth 16).setWidth 64 else (arg.setWidth 32).setWidth 64

def integerValue (c : BitVec 8) (flags : Flags) (arg : Word) : Word × Bool :=
  if isSigned c then signedValue flags arg else (unsignedValue flags arg,false)

def ftoaFlags (c : BitVec 8) (flags : Flags) : Flags :=
  if c = ch 'F' then { flags with uppercase := true } else flags

def etoaFlags (c : BitVec 8) (flags : Flags) : Flags :=
  let flags := if c = ch 'g' ∨ c = ch 'G' then { flags with adaptExp := true } else flags
  if c = ch 'E' ∨ c = ch 'G' then { flags with uppercase := true } else flags

section Out

variable {σ : Type} (out : OutFct σ) (maxlen : ℕ)

/-- `%d`, `%i`, `%u`, `%x`, `%X`, `%o` and `%b`. -/
def outInteger (c : BitVec 8) (spec : Spec) (arg : Word) (p : σ × ℕ) : σ × ℕ :=
  let flags := integerFlags c spec.flags
  let (value,negative) := integerValue c flags arg
  if flags.longLong then
    ntoaLongLong out maxlen value negative (integerBase c) spec.precision spec.width flags p
  else ntoaLong out maxlen value negative (integerBase c) spec.precision spec.width flags p

def outCharacter (spec : Spec) (arg : Word) (p : σ × ℕ) : σ × ℕ :=
  let p := if spec.flags.left then p else fill out maxlen (ch ' ') (spec.width-1) p
  let p := put out maxlen (arg.setWidth 8) p
  if spec.flags.left then fill out maxlen (ch ' ') (spec.width-1) p else p

/-- The length that the padding of `%s` goes by. -/
def stringLength (spec : Spec) (s : List (BitVec 8)) : ℕ :=
  let l := strnlenS s (if spec.precision ≠ 0 then spec.precision else 2^64-1)
  if spec.flags.precision then min l spec.precision else l

/-- `while ((*p != 0) && (!(flags & FLAGS_PRECISION) || precision--))`, with the precision
or none. -/
def outCharacters : Option ℕ → List (BitVec 8) → σ × ℕ → σ × ℕ
  | _, [], p => p
  | some 0, _::_, p => p
  | some (n+1), c::s, p =>
    if c = 0 then p else outCharacters (some n) s (put out maxlen c p)
  | none, c::s, p => if c = 0 then p else outCharacters none s (put out maxlen c p)

def outString (spec : Spec) (s : List (BitVec 8)) (p : σ × ℕ) : σ × ℕ :=
  let l := stringLength spec s
  let p := if spec.flags.left then p else fill out maxlen (ch ' ') (spec.width-l) p
  let p := outCharacters out maxlen (if spec.flags.precision then some spec.precision else none) s p
  if spec.flags.left then fill out maxlen (ch ' ') (spec.width-l) p else p

def outPointer (spec : Spec) (arg : Word) (p : σ × ℕ) : σ × ℕ :=
  ntoaLongLong out maxlen arg false 16 spec.precision 16
    { spec.flags with zeropad := true, uppercase := true } p

/-- One conversion. Characters without a meaning are printed. -/
def convert (floats : Floats) (c : BitVec 8) (spec : Spec) (va : List Arg) (p : σ × ℕ) :
    Except Fault ((σ × ℕ) × List Arg) :=
  if isInteger c then do
    let (arg,va) ← vaWord va
    return (outInteger out maxlen c spec arg p,va)
  else if c = ch 'f' ∨ c = ch 'F' then do
    let (arg,va) ← vaWord va
    return (emit out maxlen (floats.ftoa arg spec.precision spec.width (ftoaFlags c spec.flags)) p,va)
  else if c = ch 'e' ∨ c = ch 'E' ∨ c = ch 'g' ∨ c = ch 'G' then do
    let (arg,va) ← vaWord va
    return (emit out maxlen (floats.etoa arg spec.precision spec.width (etoaFlags c spec.flags)) p,va)
  else if c = ch 'c' then do
    let (arg,va) ← vaWord va
    return (outCharacter out maxlen spec arg p,va)
  else if c = ch 's' then do
    let (s,va) ← vaStr va
    return (outString out maxlen spec s p,va)
  else if c = ch 'p' then do
    let (arg,va) ← vaWord va
    return (outPointer out maxlen spec arg p,va)
  else .ok (put out maxlen c p,va)

end Out

section Parse

variable {flags : Flags} {spec spec' : Spec} {r r' : Rest} {format : List (BitVec 8)}

theorem atoi_length (i : BitVec 32) (s : List (BitVec 8)) : (atoi i s).2.length ≤ s.length := by
  induction s generalizing i with
  | nil => exact le_rfl
  | cons c s ih =>
    rw [atoi]
    split_ifs
    · exact (ih _).trans (Nat.le_succ _)
    · exact le_rfl

theorem parseFlags_length (flags : Flags) (format : List (BitVec 8)) :
    (parseFlags flags format).2.length ≤ format.length := by
  induction format generalizing flags with
  | nil => exact le_rfl
  | cons c format ih =>
    rw [parseFlags]
    split_ifs <;> first | exact (ih _).trans (Nat.le_succ _) | exact le_rfl

theorem parseWidth_length (h : parseWidth flags r = .ok (spec,r')) :
    r'.format.length ≤ r.format.length := by
  obtain ⟨format,va⟩ := r
  cases format with
  | nil => cases h; exact le_rfl
  | cons c format =>
    simp only [parseWidth] at h
    split_ifs at h with hdigit hstar
    · cases h
      exact atoi_length 0 (c::format)
    · cases va with
      | nil => cases h
      | cons a va =>
        cases a with
        | str s => cases h
        | word w => cases h; exact Nat.le_succ _
    · cases h; exact le_rfl

theorem parsePrecision_length (h : parsePrecision spec r = .ok (spec',r')) :
    r'.format.length ≤ r.format.length := by
  obtain ⟨format,va⟩ := r
  cases format with
  | nil => cases h; exact le_rfl
  | cons dot format =>
    simp only [parsePrecision] at h
    split_ifs at h with hdot
    · cases format with
      | nil => cases h; exact Nat.zero_le _
      | cons c format =>
        simp only at h
        split_ifs at h with hdigit hstar
        · cases h
          exact (atoi_length 0 (c::format)).trans (Nat.le_succ _)
        · cases va with
          | nil => cases h
          | cons a va =>
            cases a with
            | str s => cases h
            | word w => cases h; exact (Nat.le_succ _).trans (Nat.le_succ _)
        · cases h; exact Nat.le_succ _
    · cases h; exact le_rfl

theorem parseLength_length (flags : Flags) (format : List (BitVec 8)) :
    (parseLength flags format).2.length ≤ format.length := by
  cases format with
  | nil => exact le_rfl
  | cons c format =>
    rw [parseLength]
    have htail : format.tail.length ≤ format.length := by
      rw [List.length_tail]
      exact Nat.sub_le _ _
    split_ifs <;> first | exact htail.trans (Nat.le_succ _) | exact Nat.le_succ _ | exact le_rfl

theorem parseSpec_length (h : parseSpec r = .ok (spec,r')) : r'.format.length ≤ r.format.length := by
  simp only [parseSpec] at h
  cases hw : parseWidth (parseFlags .none r.format).1 ⟨(parseFlags .none r.format).2,r.va⟩ with
  | error e => rw [hw] at h; cases h
  | ok x =>
    obtain ⟨spec₁,r₁⟩ := x
    rw [hw] at h
    cases hp : parsePrecision spec₁ r₁ with
    | error e => simp only [bind,Except.bind,hp] at h; cases h
    | ok y =>
      obtain ⟨spec₂,r₂⟩ := y
      simp only [bind,Except.bind,hp] at h
      cases h
      exact (parseLength_length _ _).trans ((parsePrecision_length hp).trans
        ((parseWidth_length hw).trans (parseFlags_length _ _)))

end Parse

section Out

variable {σ : Type} (out : OutFct σ) (maxlen : ℕ) (floats : Floats)

def formatStep (r : Rest) (p : σ × ℕ) : Except Fault (Option (Rest × σ × ℕ)) :=
  match r.format with
  | [] => .ok none
  | c::format =>
    if c = 0 then .ok none
    else if c ≠ ch '%' then .ok (some (⟨format,r.va⟩,put out maxlen c p))
    else do
      let (spec,rest) ← parseSpec ⟨format,r.va⟩
      match rest.format with
      | [] => .error .pastEnd
      | c::format =>
        if c = 0 then .error .pastEnd
        else do
          let (p,va) ← convert out maxlen floats c spec rest.va p
          return some (⟨format,va⟩,p)

theorem formatStep_length {r r' : Rest} {p p' : σ × ℕ}
    (h : formatStep out maxlen floats r p = .ok (some (r',p'))) :
    r'.format.length < r.format.length := by
  obtain ⟨format,va⟩ := r
  cases format with
  | nil => cases h
  | cons c format =>
    simp only [formatStep] at h
    split_ifs at h with hend hplain
    · cases h
    · cases h
      exact Nat.lt_succ_self _
    · cases hs : parseSpec ⟨format,va⟩ with
      | error e => rw [hs] at h; cases h
      | ok x =>
        obtain ⟨spec,rest⟩ := x
        have hlen := parseSpec_length hs
        rw [hs] at h
        simp only [bind,Except.bind] at h
        cases hrest : rest.format with
        | nil => rw [hrest] at h; cases h
        | cons c' format' =>
          rw [hrest] at h hlen
          simp only at h
          split_ifs at h
          cases hc : convert out maxlen floats c' spec rest.va p with
          | error e => rw [hc] at h; cases h
          | ok y =>
            rw [hc] at h
            cases h
            simp only [List.length_cons] at hlen ⊢
            omega

def formatLoop (r : Rest) (p : σ × ℕ) : Except Fault (σ × ℕ) :=
  match h : formatStep out maxlen floats r p with
  | .error e => .error e
  | .ok none => .ok p
  | .ok (some (r',p')) =>
    have : r'.format.length < r.format.length := formatStep_length out maxlen floats h
    formatLoop r' p'
termination_by r.format.length

section Loop

variable {out maxlen floats} {r r' : Rest} {p p' : σ × ℕ}

theorem formatLoop_error {e : Fault} (h : formatStep out maxlen floats r p = .error e) :
    formatLoop out maxlen floats r p = .error e := by
  rw [formatLoop]
  split <;> rename_i h' <;> cases h.symm.trans h'
  rfl

theorem formatLoop_end (h : formatStep out maxlen floats r p = .ok none) :
    formatLoop out maxlen floats r p = .ok p := by
  rw [formatLoop]
  split <;> rename_i h' <;> cases h.symm.trans h'
  rfl

theorem formatLoop_next (h : formatStep out maxlen floats r p = .ok (some (r',p'))) :
    formatLoop out maxlen floats r p = formatLoop out maxlen floats r' p' := by
  rw [formatLoop]
  split <;> rename_i h' <;> cases h.symm.trans h'
  rfl

end Loop

/-- The terminator goes behind the last character, or to the last place that there is. -/
def terminate (p : σ × ℕ) : σ :=
  out 0 p.1 (if p.2 < maxlen then p.2 else (maxlen+2^64-1)%2^64) maxlen

/-- `_vsnprintf` with a buffer, and the number of characters as an `int`. -/
def vsnprintfTo (buffer : σ) (format : List (BitVec 8)) (va : List Arg) :
    Except Fault (σ × BitVec 32) := do
  let p ← formatLoop out maxlen floats ⟨format,va⟩ (buffer,0)
  return (terminate out maxlen p,BitVec.ofNat 32 p.2)

end Out

/-- `_vsnprintf`. Without a buffer nothing is put out. -/
def vsnprintf {σ : Type} (out : OutFct σ) (buffer : Option σ) (maxlen : ℕ) (floats : Floats)
    (format : List (BitVec 8)) (va : List Arg) : Except Fault (Option σ × BitVec 32) :=
  match buffer with
  | some buffer => do
    let (buffer,n) ← vsnprintfTo out maxlen floats buffer format va
    return (some buffer,n)
  | none => do
    let (_,n) ← vsnprintfTo outNull maxlen floats () format va
    return (none,n)

/-- `printf_` and `vprintf_` -/
def printf (floats : Floats) (stderr : List (BitVec 8)) (format : List (BitVec 8)) (va : List Arg) :
    Except Fault (List (BitVec 8) × BitVec 32) :=
  vsnprintfTo outChar (2^64-1) floats stderr format va

/-- `snprintf_` and `vsnprintf_` -/
def snprintf (floats : Floats) (buffer : Option (ℕ → BitVec 8)) (count : Word)
    (format : List (BitVec 8)) (va : List Arg) : Except Fault (Option (ℕ → BitVec 8) × BitVec 32) :=
  vsnprintf outBuffer buffer count.toNat floats format va

/-- `sprintf_` -/
def sprintf (floats : Floats) (buffer : Option (ℕ → BitVec 8)) (format : List (BitVec 8))
    (va : List Arg) : Except Fault (Option (ℕ → BitVec 8) × BitVec 32) :=
  vsnprintf outBuffer buffer (2^64-1) floats format va

def fctprintf {σ : Type} (floats : Floats) (fct : BitVec 8 → σ → σ) (arg : σ)
    (format : List (BitVec 8)) (va : List Arg) : Except Fault (σ × BitVec 32) :=
  vsnprintfTo (outFct fct) (2^64-1) floats arg format va

end Printf
end Urvirt
