import Urvirt.EventLog
import Urvirt.PrintfNumbers

/-!
# The report of the counters

What `handler` writes to file descriptor 2 for an `ecall`: the five counters for the
magic one, and the messages of `write_log`. Over a run from boot the lines of the
counters read as the numbers of the events that they count.
-/

namespace Urvirt
namespace Printf

open Transition

/-- `printf("  name = %zd\n", counter)` -/
def printCounter (floats : Floats) (name : List Char) (counter : Word) (stderr : List (BitVec 8)) :
    Except Fault (List (BitVec 8)) := do
  let (stderr,_) ← printf floats stderr
    (chars ([' ',' ']++name++[' ','=',' ','%','z','d','\n'])) [.word counter]
  return stderr

def countersTitle : List (BitVec 8) :=
  chars ['[','u','r','v','i','r','t',']',' ','c','o','u','n','t','e','r','s','\n']

/-- What the magic `ecall` prints. -/
def printCounters (floats : Floats) (priv : PrivState) (stderr : List (BitVec 8)) :
    Except Fault (List (BitVec 8)) := do
  let (stderr,_) ← printf floats stderr countersTitle []
  let stderr ← printCounter floats ['i','l','l'] priv.counterIll stderr
  let stderr ← printCounter floats ['s','e','g','v'] priv.counterSegv stderr
  let stderr ← printCounter floats ['s','r','e','t'] priv.counterSret stderr
  let stderr ← printCounter floats ['u','e','c','a','l','l'] priv.counterUecall stderr
  printCounter floats ['s','e','c','a','l','l'] priv.counterSecall stderr

/-- What `handle_legacy_sbi_call` passes to `write_log`. -/
def legacyMessages (env : Host) (which : Word) : List (List Char) :=
  if which = sbiConsolePutchar then []
  else if which = sbiConsoleGetchar then
    match env.read with
    | .failed => [['e','r','r','o','r',' ','i','n',' ','r','e','a','d']]
    | _ => []
  else if which = sbiShutdown then [['S','B','I',' ','S','h','u','t','d','o','w','n','!']]
  else if which = sbiSetTimer then [['S','e','t',' ','t','i','m','e','r']]
  else [['U','n','h','a','n','d','l','e','d',' ','s','b','i',' ','c','a','l','l']]

def interruptMessages (priv : PrivState) : List (List Char) :=
  if interruptPending priv then
    [['t','i','m','e','r',' ','i','n','t','e','r','r','u','p','t',' ','t','a','k','e','n']]
  else []

/-- The bytes that `write_log` writes for a message. -/
def logLine (message : List Char) : List (BitVec 8) :=
  chars (['[','u','r','v','i','r','t',']',' ']++message++['\n'])

def writeLog (messages : List (List Char)) (stderr : List (BitVec 8)) : List (BitVec 8) :=
  (messages.flatMap logLine).reverse++stderr

/-- The test at the start of `handler` for an `ecall`. -/
def magicEcall (floats : Floats) (m : Machine) (stderr : List (BitVec 8)) :
    Except Fault (List (BitVec 8)) :=
  if m.regs 10 = 0xdeadbeefdeadbeef then printCounters floats m.priv stderr else .ok stderr

/-- `handler` for an `ecall` with what it writes to file descriptor 2. -/
def ecallHandler (floats : Floats) (env : Host) (siSyscall : BitVec 32) (m : Machine)
    (stderr : List (BitVec 8)) : Except Fault (Except Halt Machine × List (BitVec 8)) := do
  let stderr ← magicEcall floats (fixA7 (mapConf env m) siSyscall) stderr
  let stderr := if m.priv.privMode = privS then
    writeLog (legacyMessages env (siSyscall.signExtend 64)) stderr else stderr
  match handleEcall env (mapConf env m) siSyscall with
  | .error why => return (.error why,stderr)
  | .ok mid =>
    return (.ok (unmapConf env (clearVm (takeInterrupt mid))),
      writeLog (interruptMessages mid.priv) stderr)

def ecallMessages (env : Host) (siSyscall : BitVec 32) (m : Machine) : List (List Char) :=
  (if m.priv.privMode = privS then legacyMessages env (siSyscall.signExtend 64) else [])++
    match emulate env (.sigsys siSyscall) m with
    | .error _ => []
    | .ok mid => interruptMessages mid.priv

section Counters

variable {floats : Floats} {va : List Arg} {format plain : List (BitVec 8)}

theorem formatText_plain (h : ∀ c ∈ plain, c ≠ 0 ∧ c ≠ ch '%') :
    formatText floats ⟨plain++format,va⟩ = (formatText floats ⟨format,va⟩).map (plain++·) := by
  induction plain with
  | nil =>
    rw [List.nil_append]
    cases formatText floats ⟨format,va⟩ <;> rfl
  | cons c plain ih =>
    have hc := h c List.mem_cons_self
    have hstep : stepText floats ⟨c::plain++format,va⟩ = .ok (some (⟨plain++format,va⟩,[c])) := by
      simp only [stepText,List.cons_append,hc,if_false,ne_eq,not_false_eq_true,if_true]
    rw [formatText_next hstep,ih fun c hc => h c (List.mem_cons_of_mem _ hc)]
    cases formatText floats ⟨format,va⟩ <;> rfl

def sizeSpec : Spec := ⟨{ Flags.none with long := true },0,0⟩

theorem formatText_size (counter : Word) :
    formatText floats ⟨chars ['%','z','d','\n'],[.word counter]⟩ =
      .ok (integerText (ch 'd') sizeSpec counter++[ch '\n']) := by
  have hstep : stepText floats ⟨chars ['%','z','d','\n'],[.word counter]⟩ =
      .ok (some (⟨[ch '\n'],[]⟩,integerText (ch 'd') sizeSpec counter)) := rfl
  have hnewline : stepText floats ⟨[ch '\n'],[]⟩ = .ok (some (⟨[],[]⟩,[ch '\n'])) := rfl
  have hend : stepText floats ⟨[],[]⟩ = .ok none := rfl
  rw [formatText_next hstep,formatText_next hnewline,formatText_end hend]
  rfl

def counterLine (name : List Char) (counter : Word) : List (BitVec 8) :=
  chars ([' ',' ']++name++[' ','=',' '])++integerText (ch 'd') sizeSpec counter++[ch '\n']

/-- Characters that are no part of a number. -/
def Letters (name : List Char) : Prop :=
  ∀ c ∈ name, (ch c ≠ 0 ∧ ch c ≠ ch '%' ∧ ch c ≠ ch '-' ∧ ch c ≠ ch '\n') ∧
    digitOf 10 (ch c) = none

instance (name : List Char) : Decidable (Letters name) :=
  List.decidableBAll _ name

theorem Letters.line {name : List Char} (h : Letters name) {c : BitVec 8}
    (hc : c ∈ chars ([' ',' ']++name++[' ','=',' '])) :
    (c ≠ 0 ∧ c ≠ ch '%' ∧ c ≠ ch '-' ∧ c ≠ ch '\n') ∧ digitOf 10 c = none := by
  have hfirst : Letters [' ',' '] := by decide
  have hlast : Letters [' ','=',' '] := by decide
  obtain ⟨d,hd,rfl⟩ := List.mem_map.mp hc
  rcases List.mem_append.mp hd with hd | hd
  · rcases List.mem_append.mp hd with hd | hd
    · exact hfirst d hd
    · exact h d hd
  · exact hlast d hd

theorem not_mem_size {c : BitVec 8} (hc : hexDigit c = none) (hsign : c ∉ [ch '-',ch '+',ch ' '])
    (counter : Word) : c ∉ integerText (ch 'd') sizeSpec counter :=
  not_mem_ntoaText hc hsign (by decide) (by decide) rfl

theorem printCounter_eq {name : List Char} (h : Letters name) (counter : Word)
    (stderr : List (BitVec 8)) : printCounter floats name counter stderr =
      .ok ((counterLine name counter).reverse++stderr) := by
  have hplain : ∀ c ∈ chars ([' ',' ']++name++[' ','=',' ']), c ≠ 0 ∧ c ≠ ch '%' := fun c hc =>
    ⟨(h.line hc).1.1,(h.line hc).1.2.1⟩
  have hsplit : chars ([' ',' ']++name++[' ','=',' ','%','z','d','\n']) =
      chars ([' ',' ']++name++[' ','=',' '])++chars ['%','z','d','\n'] := by
    simp [chars]
  have htext : formatText floats
      ⟨chars ([' ',' ']++name++[' ','=',' ','%','z','d','\n']),[.word counter]⟩ =
      .ok (counterLine name counter) := by
    rw [hsplit,formatText_plain hplain,formatText_size]
    exact congrArg Except.ok (List.append_assoc _ _ _).symm
  have hzero : (counterLine name counter).filter (· ≠ 0) = counterLine name counter := by
    refine List.filter_eq_self.mpr fun c hc => decide_eq_true ?_
    rintro rfl
    rcases List.mem_append.mp hc with hc | hc
    · rcases List.mem_append.mp hc with hc | hc
      · exact (hplain 0 hc).1 rfl
      · exact not_mem_size (by decide) (by decide) counter hc
    · exact absurd (List.mem_singleton.mp hc) (by decide)
  rw [printCounter,printf_eq,htext]
  simp only [Except.map,bind,Except.bind,hzero]
  rfl

theorem readSigned_counterLine {name : List Char} (h : Letters name) (counter : Word) :
    readSigned (counterLine name counter) = counter.toInt := by
  have hargument : argument (ch 'd') (integerFlags (ch 'd') sizeSpec.flags) counter = counter.toInt := rfl
  have hletters : (chars ([' ',' ']++name++[' ','=',' '])).filterMap (digitOf 10) = [] :=
    List.filterMap_eq_nil_iff.mpr fun c hc => (h.line hc).2
  have hnumeral : numeral 10 (counterLine name counter) = counter.toInt.natAbs := by
    rw [← hargument,← numeral_integerText (by decide),numeral,numeral,counterLine,
      List.filterMap_append,List.filterMap_append,hletters]
    exact congrArg _ (List.append_nil _)
  have hminus : ch '-' ∈ counterLine name counter ↔ counter.toInt < 0 := by
    rw [counterLine,List.mem_append,List.mem_append,minus_integerText (by decide),hargument]
    have hplain : ch '-' ∉ chars ([' ',' ']++name++[' ','=',' ']) := fun hc =>
      (h.line hc).1.2.2.1 rfl
    have hroom : sizeSpec.flags.left = true ∨ sizeSpec.precision < 32 ∧
        (sizeSpec.flags.zeropad = true → sizeSpec.flags.precision = true ∨ sizeSpec.width ≤ 32) := by
      decide
    have hnewline : ch '-' ∉ [ch '\n'] := by decide
    simp only [hplain,hroom,hnewline,false_or,or_false,and_true]
  rw [readSigned,hnumeral]
  simp only [List.contains_iff_mem,hminus]
  split_ifs <;> omega

theorem count_counterLine {name : List Char} (h : Letters name) (counter : Word) :
    (counterLine name counter).getLast? = some (ch '\n') ∧
      (counterLine name counter).count (ch '\n') = 1 := by
  have hplain : ch '\n' ∉ chars ([' ',' ']++name++[' ','=',' ']) := fun hc =>
    (h.line hc).1.2.2.2 rfl
  have hnumber := not_mem_size (c:=ch '\n') (by decide) (by decide) counter
  constructor
  · rw [counterLine,List.getLast?_append]
    rfl
  · rw [counterLine,List.count_append,List.count_append,List.count_eq_zero.mpr hplain,
      List.count_eq_zero.mpr hnumber]
    rfl

theorem formatText_title : formatText floats ⟨countersTitle,[]⟩ = .ok countersTitle := by
  have hend : stepText floats ⟨[],[]⟩ = .ok none := rfl
  have hplain : formatText floats ⟨countersTitle++[],[]⟩ =
      (formatText floats ⟨[],[]⟩).map (countersTitle++·) := formatText_plain (by decide)
  rw [List.append_nil,formatText_end hend] at hplain
  rw [hplain]
  exact congrArg Except.ok (List.append_nil _)

def reportLines (priv : PrivState) : List (List (BitVec 8)) :=
  [counterLine ['i','l','l'] priv.counterIll,counterLine ['s','e','g','v'] priv.counterSegv,
    counterLine ['s','r','e','t'] priv.counterSret,
    counterLine ['u','e','c','a','l','l'] priv.counterUecall,
    counterLine ['s','e','c','a','l','l'] priv.counterSecall]

theorem letters_counters : Letters ['i','l','l'] ∧ Letters ['s','e','g','v'] ∧
    Letters ['s','r','e','t'] ∧ Letters ['u','e','c','a','l','l'] ∧
    Letters ['s','e','c','a','l','l'] := by decide

theorem printCounters_eq (priv : PrivState) (stderr : List (BitVec 8)) :
    printCounters floats priv stderr =
      .ok ((countersTitle++(reportLines priv).flatten).reverse++stderr) := by
  obtain ⟨hill,hsegv,hsret,huecall,hsecall⟩ := letters_counters
  have hzero : countersTitle.filter (· ≠ 0) = countersTitle := by decide
  rw [printCounters,printf_eq,formatText_title]
  simp only [Except.map,bind,Except.bind,hzero,printCounter_eq hill,printCounter_eq hsegv,
    printCounter_eq hsret,printCounter_eq huecall,printCounter_eq hsecall]
  simp [reportLines]

theorem count_reportLines (priv : PrivState) : ∀ line ∈ reportLines priv,
    line.getLast? = some (ch '\n') ∧ line.count (ch '\n') = 1 := by
  obtain ⟨hill,hsegv,hsret,huecall,hsecall⟩ := letters_counters
  simp only [reportLines,List.forall_mem_cons,List.not_mem_nil,false_implies,implies_true,and_true]
  exact ⟨count_counterLine hill _,count_counterLine hsegv _,count_counterLine hsret _,
    count_counterLine huecall _,count_counterLine hsecall _⟩

theorem readSigned_reportLines (priv : PrivState) : (reportLines priv).map readSigned =
    [priv.counterIll.toInt,priv.counterSegv.toInt,priv.counterSret.toInt,
      priv.counterUecall.toInt,priv.counterSecall.toInt] := by
  obtain ⟨hill,hsegv,hsret,huecall,hsecall⟩ := letters_counters
  simp only [reportLines,List.map_cons,List.map_nil,readSigned_counterLine hill,
    readSigned_counterLine hsegv,readSigned_counterLine hsret,readSigned_counterLine huecall,
    readSigned_counterLine hsecall]

end Counters

/-- A counter of 64 bits, printed as a signed number. -/
def asCounter (n : ℕ) : ℤ := (n : ℤ).bmod (2^64)

theorem toInt_counter (n : ℕ) : (BitVec.ofNat 64 n).toInt = asCounter n := BitVec.toInt_ofNat n

theorem writeLog_append (ms ns : List (List Char)) (stderr : List (BitVec 8)) :
    writeLog ns (writeLog ms stderr) = writeLog (ms++ns) stderr := by
  rw [writeLog,writeLog,writeLog,List.flatMap_append,List.reverse_append,List.append_assoc]

/-- It ends as `handler` does, and writes the report and then the messages. -/
theorem ecallHandler_eq (floats : Floats) (env : Host) (siSyscall : BitVec 32) (m : Machine)
    (stderr : List (BitVec 8)) : ecallHandler floats env siSyscall m stderr =
      .ok (handler env (.sigsys siSyscall) m,writeLog (ecallMessages env siSyscall m)
        (if m.regs 10 = 0xdeadbeefdeadbeef then
          (countersTitle++(reportLines m.priv).flatten).reverse++stderr else stderr)) := by
  have hmagic : magicEcall floats (fixA7 (mapConf env m) siSyscall) stderr =
      .ok (if m.regs 10 = 0xdeadbeefdeadbeef then
        (countersTitle++(reportLines m.priv).flatten).reverse++stderr else stderr) := by
    have hreg : (fixA7 (mapConf env m) siSyscall).regs 10 = m.regs 10 := by
      simp [fixA7,Machine.setReg,mapConf]
    have hpriv : (fixA7 (mapConf env m) siSyscall).priv = m.priv := rfl
    rw [magicEcall,hreg,hpriv,printCounters_eq,apply_ite Except.ok]
  have hcall : emulate env (.sigsys siSyscall) m = handleEcall env (mapConf env m) siSyscall := rfl
  have hmessages : ∀ stderr, (if m.priv.privMode = privS then
      writeLog (legacyMessages env (siSyscall.signExtend 64)) stderr else stderr) =
      writeLog (if m.priv.privMode = privS then legacyMessages env (siSyscall.signExtend 64) else [])
        stderr := by
    intro stderr
    split_ifs
    · rfl
    · exact (List.nil_append stderr).symm
  rw [ecallHandler,hmagic,handler,ecallMessages,hcall]
  simp only [bind,Except.bind,hmessages]
  cases handleEcall env (mapConf env m) siSyscall with
  | error why => simp only [List.append_nil]; rfl
  | ok mid => simp only [writeLog_append]; rfl

/-- After any run from boot an `ecall` writes to file descriptor 2 what its messages say,
and the magic one before that a title and five lines, from which the numbers of the events
of the run are read back. -/
theorem counters_report {b : BootData} {es : List Event} {m : Machine} (h : Run Step (boot b) es m)
    (floats : Floats) (env : Host) (siSyscall : BitVec 32) (stderr : List (BitVec 8)) :
    ∃ (ps : List (Machine × Event)) (lines : List (List (BitVec 8))),
      ps.map Prod.snd = es ∧ Run (Visit Step) (boot b) ps m ∧
      ecallHandler floats env siSyscall m stderr =
        .ok (handler env (.sigsys siSyscall) m,writeLog (ecallMessages env siSyscall m)
          (if m.regs 10 = 0xdeadbeefdeadbeef then
            (countersTitle++lines.flatten).reverse++stderr else stderr)) ∧
      (∀ line ∈ lines, line.getLast? = some (ch '\n') ∧ line.count (ch '\n') = 1) ∧
      lines.map readSigned = [asCounter (ps.countP fun p => isIll p.2),
        asCounter (ps.countP fun p => isSegv p.2),asCounter (ps.countP fun p => isSretEvent p.1 p.2),
        asCounter (ps.countP fun p => isUecall p.1 p.2),
        asCounter (ps.countP fun p => isSecall p.1 p.2)] := by
  obtain ⟨ps,hes,hrun⟩ := h.visits
  have haccounts : Accounts ps m := accounts_of_run hrun
  refine ⟨ps,reportLines m.priv,hes,hrun,ecallHandler_eq floats env siSyscall m stderr,
    count_reportLines m.priv,?_⟩
  rw [readSigned_reportLines,haccounts.ill,haccounts.segv,haccounts.sret,haccounts.uecall,
    haccounts.secall]
  simp only [toInt_counter]

def noFloats : Floats := ⟨fun _ _ _ _ => [],fun _ _ _ _ => []⟩

/-- After two privileged instructions the guest has the magic number and a deadline that
is the same number. -/
def magicEvents : List Event :=
  sv39Start 0x200800cf++[.guest (sv39Tables 0x200800cf (boot (smallData sv39Kernel)).ram)
    (Function.update (smallRegs (kernelStart+12) 0 0) 10 0xdeadbeefdeadbeef)]

def magicMachine : Machine := smallAfter sv39Kernel magicEvents

/-- The call sets the timer, and before its message the first line reads as two. -/
theorem counters_report_magic :
    ∃ (ps : List (Machine × Event)) (lines : List (List (BitVec 8))),
      ps.map Prod.snd = magicEvents ∧
      Run (Visit Step) (boot (smallData sv39Kernel)) ps magicMachine ∧
      ecallHandler noFloats smallHost 0 magicMachine [] =
        .ok (handler smallHost (.sigsys 0) magicMachine,
          (countersTitle++lines.flatten++logLine ['S','e','t',' ','t','i','m','e','r']).reverse) ∧
      lines.map readSigned = [2,0,0,0,0] := by
  have hreplays : Replays sv39Kernel magicEvents := by decide +kernel
  have hmagic : magicMachine.regs 10 = 0xdeadbeefdeadbeef := by decide +kernel
  have hmessages : ecallMessages smallHost 0 magicMachine = [['S','e','t',' ','t','i','m','e','r']] := by
    decide +kernel
  have hcounters : magicMachine.priv.counterIll.toInt = 2 ∧ magicMachine.priv.counterSegv.toInt = 0 ∧
      magicMachine.priv.counterSret.toInt = 0 ∧ magicMachine.priv.counterUecall.toInt = 0 ∧
      magicMachine.priv.counterSecall.toInt = 0 := by decide +kernel
  have hall : Run Step (boot (smallData sv39Kernel)) magicEvents magicMachine := small_run hreplays
  obtain ⟨ps,lines,hes,hrun,hhandler,-,hlines⟩ := counters_report hall noFloats smallHost 0 []
  have haccounts : Accounts ps magicMachine := accounts_of_run hrun
  refine ⟨ps,lines,hes,hrun,?_,?_⟩
  · rw [if_pos hmagic,hmessages,writeLog,List.append_nil] at hhandler
    rw [List.reverse_append]
    exact hhandler
  · obtain ⟨hill,hsegv,hsret,huecall,hsecall⟩ := hcounters
    rw [hlines,← toInt_counter,← toInt_counter,← toInt_counter,← toInt_counter,← toInt_counter,
      ← haccounts.ill,← haccounts.segv,← haccounts.sret,← haccounts.uecall,← haccounts.secall,hill,
      hsegv,hsret,huecall,hsecall]

end Printf
end Urvirt
