import Urvirt.GuestCode

/-!
# When the emulator can see the guest's code

The guest fetches through pages with the right to execute, the handler reads the same
bytes through the right to read. The two differ at pages whose leaf is execute-only,
and at an instruction whose second half has not been faulted in.
-/

namespace Urvirt

open AddressSpace PageTable Rv64gc Transition

def Machine.fetchByte (m : Machine) (env : Host) (a : Word) : Option (BitVec 8) :=
  match m.map (pageOf a) with
  | none => none
  | some page =>
    if page.prot.exec then
      some (match page.back with
        | .ram off => m.ram (off.toNat+a.toNat%4096)
        | _ => env.own a)
    else none

/-- The instruction at the pc as the guest fetches it. -/
def Fetches (env : Host) (m : Machine) : Instr → Prop
  | .half h _ => m.fetchByte env m.pc = some (h.setWidth 8) ∧
      m.fetchByte env (m.pc+1) = some ((h >>> 8).setWidth 8)
  | .word w _ => m.fetchByte env m.pc = some (w.setWidth 8) ∧
      m.fetchByte env (m.pc+1) = some ((w >>> 8).setWidth 8) ∧
      m.fetchByte env (m.pc+2) = some ((w >>> 16).setWidth 8) ∧
      m.fetchByte env (m.pc+3) = some ((w >>> 24).setWidth 8)

def ExecuteOnly (m : Machine) (a : Word) : Prop := m.executable a = true ∧ m.readable a = false

section Fetch

variable {env : Host} {m : Machine} {a : Word} {c : BitVec 8} {i : Instr}

theorem executable_of_fetchByte (h : m.fetchByte env a = some c) : m.executable a = true := by
  simp only [Machine.fetchByte] at h
  simp only [Machine.executable]
  cases hp : m.map (pageOf a) with
  | none => simp [hp] at h
  | some page =>
    rw [hp] at h
    dsimp only at h
    split_ifs at h with hx
    exact hx

theorem mapConf_executable (hconf : Free m.map env.confPage (pages confSize))
    (hx : m.executable a = true) : (mapConf env m).map (pageOf a) = m.map (pageOf a) := by
  rw [mapConf_map]
  apply mapRange_of_not
  intro hin
  simp [Machine.executable,hconf _ hin] at hx

theorem mapConf_readable (hconf : Free m.map env.confPage (pages confSize))
    (hx : m.executable a = true) : (mapConf env m).readable a = true ↔ ¬ExecuteOnly m a := by
  have hsame : (mapConf env m).readable a = m.readable a := by
    simp only [Machine.readable,mapConf_executable hconf hx]
  simp [hsame,ExecuteOnly,hx]

/-- What can be read is what was fetched. -/
theorem deref8_fetched (hconf : Free m.map env.confPage (pages confSize))
    (h : m.fetchByte env a = some c) (hr : (mapConf env m).readable a = true) :
    deref8 env (mapConf env m) a = .ok c := by
  have hsame := mapConf_executable hconf (executable_of_fetchByte h)
  simp only [Machine.readable,hsame] at hr
  simp only [Machine.fetchByte] at h
  simp only [deref8,Machine.hostByte,hsame]
  cases hp : m.map (pageOf a) with
  | none => simp [hp] at h
  | some page =>
    rw [hp] at h hr
    dsimp only at h hr ⊢
    split_ifs at h
    rw [if_pos hr]
    exact congrArg Except.ok (Option.some.inj h)

theorem canRead_iff {long : BitVec 8 → Prop} (hconf : Free m.map env.confPage (pages confSize))
    (h : m.fetchByte env m.pc = some c) : CanRead env (mapConf env m) long ↔
      ¬ExecuteOnly m m.pc ∧ (long c → (mapConf env m).readable (m.pc+2) = true) := by
  have hfirst := mapConf_readable hconf (executable_of_fetchByte h)
  constructor
  · rintro ⟨hr,hsecond⟩
    exact ⟨hfirst.mp hr,hsecond c (deref8_fetched hconf h hr)⟩
  · rintro ⟨hne,hsecond⟩
    have hr := hfirst.mpr hne
    refine ⟨hr,fun c' hc' => ?_⟩
    have hc := deref8_fetched hconf h hr
    obtain rfl := Except.ok.inj (hc.symm.trans hc')
    exact hsecond

theorem Fetches.first (hi : Fetches env m i) : m.fetchByte env m.pc = some i.firstByte := by
  cases i with
  | half h short => exact hi.1
  | word w long => exact hi.1

def AvoidsExecuteOnly (m : Machine) (i : Instr) : Prop :=
  ¬ExecuteOnly m m.pc ∧ (i.IsWord → ¬ExecuteOnly m (m.pc+2))

theorem canRead_fetched {long : BitVec 8 → Prop} (hconf : Free m.map env.confPage (pages confSize))
    (hi : Fetches env m i) (hlong : long i.firstByte ↔ i.IsWord) :
    CanRead env (mapConf env m) long ↔ AvoidsExecuteOnly m i := by
  rw [canRead_iff hconf hi.first,hlong,AvoidsExecuteOnly]
  refine and_congr_right fun _ => forall_congr' fun hw => ?_
  cases i with
  | half h short => exact absurd hw id
  | word w long => exact mapConf_readable hconf (executable_of_fetchByte hi.2.2.1)

end Fetch

section FirstByte

variable {i : Instr}

theorem firstByte_and (width : ℕ) (hk : width ≤ 8) {y : BitVec 8} (hy : y.toNat = 2^width-1)
    {n : ℕ} (w : BitVec n) : w.setWidth 8 &&& y = y ↔ field 0 width w = 2^width-1 := by
  rw [← BitVec.toNat_inj,low_bits width hk w hy,hy]

theorem illegal_long (i : Instr) :
    (i.firstByte &&& 0b11 = 0b11 ∧ i.firstByte &&& 0b11111 ≠ 0b11111) ↔ i.IsWord := by
  cases i with
  | half h short =>
    simp only [Instr.firstByte,Instr.IsWord,iff_false]
    rw [firstByte_and 2 (by decide) rfl]
    exact fun hl => short hl.1
  | word w long =>
    simp only [Instr.firstByte,Instr.IsWord]
    rw [firstByte_and 2 (by decide) rfl,Ne,firstByte_and 5 (by decide) rfl]
    exact and_iff_right long

theorem access_isWord (h : i.AccessesMemory) : i.firstByte &&& 1 ≠ 0 ↔ i.IsWord := by
  cases i with
  | half h short =>
    obtain ⟨k,hk⟩ := h
    have hq := hk.quadrant
    simp only [Instr.firstByte,Instr.IsWord,iff_false]
    rw [odd_byte]
    intro hodd
    rw [field_zero] at hq hodd
    have hlow : k.quadrant%2 = 0 := by cases k <;> rfl
    omega
  | word w long =>
    obtain ⟨k,hk⟩ := h
    have hop := hk.opcode
    have hlow : k.opcode%32 ≠ 31 := by cases k <;> simp [WordInstr.opcode]
    have hw : field 0 5 w ≠ 31 := by
      rw [field_zero] at hop ⊢
      omega
    have hodd : field 0 1 w = 1 := by
      rw [field_zero] at long ⊢
      omega
    simp only [Instr.firstByte,Instr.IsWord]
    rw [odd_byte]
    exact iff_of_true hodd hw

end FirstByte

/-- What can raise a `SIGILL` or `SIGSEGV` at the pc: an illegal instruction, the fetch
of an instruction or of its second half, or the access of a load, store or atomic. -/
inductive Occasion
  | illegal (i : Instr)
  | fetch
  | fetchSecond (c : BitVec 8)
  | data (i : Instr) (a : Word)

namespace Occasion

def signal (m : Machine) : Occasion → Signal
  | illegal _ => .sigill
  | fetch => .sigsegv m.pc
  | fetchSecond _ => .sigsegv (m.pc+2)
  | data _ a => .sigsegv a

def Occurs (env : Host) (m : Machine) : Occasion → Prop
  | illegal i => Fetches env m i
  | fetch => m.executable m.pc = false
  | fetchSecond c => m.fetchByte env m.pc = some c ∧ c &&& 0b11 = 0b11 ∧
      m.executable (m.pc+2) = false
  | data i _ => Fetches env m i ∧ i.AccessesMemory

end Occasion

/-- The handler reads nothing that is not readable, and takes the fault of a second
half for a fetch fault. -/
structure CodeSafe (env : Host) (m : Machine) (o : Occasion) : Prop where
  no_fault : handler env (o.signal m) m ≠ .error .nestedSegv
  straddle : ∀ c, o = .fetchSecond c →
    segvCause env (mapConf env m) (m.pc+2) = .ok scauseInstrPf

def AccessOpcode (c : BitVec 8) : Prop :=
  (c &&& 0b1111111).setWidth 32 = opcodeLoad ∨ (c &&& 0b1111111).setWidth 32 = opcodeStore ∨
    (c &&& 0b1111111).setWidth 32 = opcodeAmo

/-- What is read of an instruction is not on an execute-only page: all of an instruction
that is emulated, and the first half of one whose access faults. A fetch from outside
RAM, and the fetch of a second half from there, fault at a page that can nevertheless be
read. The first half of an instruction is taken for a load or store by its opcode. -/
def CodeVisible (env : Host) (m : Machine) : Occasion → Prop
  | .illegal i => m.priv.privMode = privS → AvoidsExecuteOnly m i
  | .fetch => LeafOutside m m.pc → CanRead env (mapConf env m) (fun c => c &&& 1 ≠ 0)
  | .fetchSecond c => ¬ExecuteOnly m m.pc ∧ ¬AccessOpcode c ∧
      (LeafOutside m (m.pc+2) → (mapConf env m).readable (m.pc+2) = true)
  | .data i a => (a ≠ m.pc → ¬ExecuteOnly m m.pc) ∧ (LeafOutside m a → AvoidsExecuteOnly m i)

section Visible

variable {env : Host} {m : Machine} {a : Word}

/-- The first byte of an instruction of 32 bits decides the cause. -/
theorem segvCause_long {c : BitVec 8} (hne : a ≠ m.pc) (hc : deref8 env m m.pc = .ok c)
    (hl : c &&& 0b11 = 0b11) :
    segvCause env m a = .ok
      (if (c &&& 0b1111111).setWidth 32 = opcodeLoad then scauseLoadPf
        else if (c &&& 0b1111111).setWidth 32 = opcodeStore then scauseStorePf
        else if (c &&& 0b1111111).setWidth 32 = opcodeAmo then scauseStorePf
        else scauseInstrPf) := by
  rw [segvCause,if_neg hne,hc]
  exact if_neg (not_not.mpr hl)

theorem segvCause_ok (heven : m.pc.toNat%2 = 0) (h : a ≠ m.pc → m.readable m.pc = true) :
    ∃ scause, segvCause env m a = .ok scause := by
  by_cases ha : a = m.pc
  · exact ⟨_,if_pos ha⟩
  · obtain ⟨c,hc⟩ := deref8_readable env (h ha)
    by_cases hl : c &&& 0b11 = 0b11
    · exact ⟨_,segvCause_long ha hc hl⟩
    · obtain ⟨x,hx⟩ := deref16_readable env heven (h ha)
      simp only [segvCause,if_neg ha,hc,hx,bind,Except.bind,if_pos hl]
      exact ⟨_,rfl⟩

theorem handler_nested_iff {sig : Signal} :
    handler env sig m = .error .nestedSegv ↔ emulate env sig m = .error .nestedSegv :=
  bind_nested_iff fun _ => by simp

/-- Where a `SIGSEGV` ends in a nested fault: in finding the cause, or in decoding a
store to a device. -/
theorem handler_sigsegv_nested_iff (heven : m.pc.toNat%2 = 0)
    (hsatp : getSatpMode m.priv.satp = satpModeSv39) (hfree : FreeChoice m.map env (.sigsegv a)) :
    handler env (.sigsegv a) m = .error .nestedSegv ↔
      (a ≠ m.pc ∧ ¬(mapConf env m).readable m.pc = true) ∨
      (LeafOutside m a ∧ ¬CanRead env (mapConf env m) (fun c => c &&& 1 ≠ 0)) := by
  have hfault : ∀ scause, handlePageFault env (countSegv (mapConf env m)) scause a =
      .error .nestedSegv ↔
        LeafOutside m a ∧ ¬CanRead env (mapConf env m) (fun c => c &&& 1 ≠ 0) := fun scause =>
    handlePageFault_nested_iff (m:=countSegv (mapConf env m)) heven hsatp
      (mapConf_free hfree a rfl)
  rw [handler_nested_iff,Bool.not_eq_true]
  constructor
  · intro h
    rcases bind_error.mp h with h | ⟨scause,-,h⟩
    · have hne : a ≠ m.pc := by
        rintro rfl
        have hok : segvCause env (mapConf env m) m.pc = .ok scauseInstrPf := if_pos rfl
        rw [hok] at h
        cases h
      exact .inl ⟨hne,(segvCause_nested_iff (m:=mapConf env m) heven hne).mp h⟩
    · exact .inr ((hfault scause).mp h)
  · intro h
    by_cases hcause : a ≠ m.pc → (mapConf env m).readable m.pc = true
    · obtain ⟨scause,hs⟩ := segvCause_ok (m:=mapConf env m) heven hcause
      rw [emulate_sigsegv hs,hfault]
      exact h.resolve_left fun hn => Bool.false_ne_true (hn.2.symm.trans (hcause hn.1))
    · obtain ⟨hne,hn⟩ := Classical.not_imp.mp hcause
      exact bind_error.mpr (.inl ((segvCause_nested_iff (m:=mapConf env m) heven hne).mpr
        (Bool.eq_false_of_not_eq_true hn)))

theorem codeSafe_iff {o : Occasion} (ho : ∀ c, o ≠ .fetchSecond c) :
    CodeSafe env m o ↔ handler env (o.signal m) m ≠ .error .nestedSegv :=
  ⟨fun h => h.no_fault,fun h => ⟨h,fun c hc => absurd hc (ho c)⟩⟩

theorem illegal_safe_iff {i : Instr} (heven : m.pc.toNat%2 = 0)
    (hfree : FreeChoice m.map env .sigill) (hi : Fetches env m i) :
    CodeSafe env m (.illegal i) ↔ CodeVisible env m (.illegal i) := by
  have hcan : CanRead env (mapConf env m)
      (fun c => c &&& 0b11 = 0b11 ∧ c &&& 0b11111 ≠ 0b11111) ↔ AvoidsExecuteOnly m i :=
    canRead_fetched hfree.conf_free hi (illegal_long i)
  have hnested : handler env .sigill m = .error .nestedSegv ↔
      m.priv.privMode = privS ∧ ¬AvoidsExecuteOnly m i := by
    rw [handler_nested_iff,← hcan]
    exact handleIllegal_nested_iff (m:=mapConf env m) heven
  rw [codeSafe_iff fun c hc => by cases hc]
  exact (not_congr hnested).trans not_and_not_right

theorem fetch_safe_iff (heven : m.pc.toNat%2 = 0)
    (hsatp : getSatpMode m.priv.satp = satpModeSv39)
    (hfree : FreeChoice m.map env (.sigsegv m.pc)) :
    CodeSafe env m .fetch ↔ CodeVisible env m .fetch := by
  have hnested := handler_sigsegv_nested_iff heven hsatp hfree
  rw [or_iff_right fun h => h.1 rfl] at hnested
  rw [codeSafe_iff fun c hc => by cases hc]
  exact (not_congr hnested).trans not_and_not_right

theorem data_safe_iff {i : Instr} (heven : m.pc.toNat%2 = 0)
    (hsatp : getSatpMode m.priv.satp = satpModeSv39) (hfree : FreeChoice m.map env (.sigsegv a))
    (hi : Fetches env m i) (hacc : i.AccessesMemory) :
    CodeSafe env m (.data i a) ↔ CodeVisible env m (.data i a) := by
  have hnested := handler_sigsegv_nested_iff heven hsatp hfree
  rw [canRead_fetched hfree.conf_free hi (access_isWord hacc),
    mapConf_readable hfree.conf_free (executable_of_fetchByte hi.first)] at hnested
  rw [codeSafe_iff fun c hc => by cases hc]
  refine (not_congr hnested).trans (not_or.trans (and_congr ?_ ?_))
  · exact not_and_not_right
  · exact not_and_not_right

theorem add_two_ne (a : Word) : a+2 ≠ a := by simp

theorem secondCause_iff {c : BitVec 8} (hc : deref8 env m m.pc = .ok c) (hl : c &&& 0b11 = 0b11) :
    segvCause env m (m.pc+2) = .ok scauseInstrPf ↔ ¬AccessOpcode c := by
  rw [segvCause_long (add_two_ne m.pc) hc hl,AccessOpcode]
  generalize (c &&& 0b1111111).setWidth 32 = opcode
  split_ifs with hload hstore hamo
  · simp [hload,scauseLoadPf,scauseInstrPf]
  · simp [hstore,scauseStorePf,scauseInstrPf]
  · simp [hamo,scauseStorePf,scauseInstrPf]
  · simp [hload,hstore,hamo]

theorem fetchSecond_safe_iff {c : BitVec 8} (heven : m.pc.toNat%2 = 0)
    (hsatp : getSatpMode m.priv.satp = satpModeSv39)
    (hfree : FreeChoice m.map env (.sigsegv (m.pc+2))) (hfetch : m.fetchByte env m.pc = some c)
    (hl : c &&& 0b11 = 0b11) :
    CodeSafe env m (.fetchSecond c) ↔ CodeVisible env m (.fetchSecond c) := by
  have hodd : ∀ c : BitVec 8, c &&& 0b11 = 0b11 → c &&& 1 ≠ 0 := by decide
  have hnested := handler_sigsegv_nested_iff heven hsatp hfree
  rw [canRead_iff hfree.conf_free hfetch,imp_iff_right (hodd c hl),
    mapConf_readable hfree.conf_free (executable_of_fetchByte hfetch)] at hnested
  have hcause : ¬ExecuteOnly m m.pc →
      (segvCause env (mapConf env m) (m.pc+2) = .ok scauseInstrPf ↔ ¬AccessOpcode c) := fun hx =>
    secondCause_iff (m:=mapConf env m) (deref8_fetched hfree.conf_free hfetch
      ((mapConf_readable hfree.conf_free (executable_of_fetchByte hfetch)).mpr hx)) hl
  constructor
  · intro h
    have hx : ¬ExecuteOnly m m.pc := fun hx =>
      h.no_fault (hnested.mpr (.inl ⟨add_two_ne m.pc,not_not.mpr hx⟩))
    refine ⟨hx,(hcause hx).mp (h.straddle c rfl),fun hout => ?_⟩
    by_contra hr
    exact h.no_fault (hnested.mpr (.inr ⟨hout,fun hcan => hr hcan.2⟩))
  · rintro ⟨hx,hop,hr⟩
    refine ⟨fun hn => ?_,fun _ _ => (hcause hx).mpr hop⟩
    rcases hnested.mp hn with ⟨-,hn⟩ | ⟨hout,hn⟩
    · exact hn hx
    · exact hn ⟨hx,hr hout⟩

end Visible

section Run

variable {b : Boot} {es : List Event} {m : Machine}

theorem executeOnly_iff {a : Word} (h : Run Step (boot b.toBootData) es m)
    (hsatp : getSatpMode m.priv.satp = satpModeSv39) (hlt : pageOf a < taskPages)
    (hstub : ¬InStub m.priv (pageOf a)) :
    ExecuteOnly m a ↔
      ∃ l, InstalledFrom b es m (pageOf a) l ∧ Entry.x l.pte = true ∧ Entry.r l.pte = false := by
  have hk := StubKept.run h
  constructor
  · rintro ⟨hx,hr⟩
    cases hp : m.map (pageOf a) with
    | none => simp [Machine.executable,hp] at hx
    | some pg =>
      rcases mapped_origin h hlt (fun hin => hstub ((hk.inStub _).mpr hin)) hp with
        ⟨-,-,hfree⟩ | ⟨l,hl,rfl⟩
      · exact absurd hfree (not_flushFree_of_sv39 hsatp)
      · simp only [Machine.executable,Machine.readable,hp,leafPage_eq,leafProt] at hx hr
        exact ⟨l,hl,hx,hr⟩
  · rintro ⟨l,hl,hx,hr⟩
    have hp := InstalledSince.mapped ⟨l,hl,rfl⟩
    simp only [ExecuteOnly,Machine.executable,Machine.readable,hp,leafPage_eq,leafProt]
    exact ⟨hx,hr⟩

/-- In a reachable state under translation the handler reads the guest's code safely
exactly when it is visible, and outside the stub the pages that hide it are those of
execute-only leaves. -/
theorem guest_code_read_safely (h : Run Step (boot b.toBootData) es m)
    (hsatp : getSatpMode m.priv.satp = satpModeSv39) (heven : m.pc.toNat%2 = 0) :
    (∀ env (o : Occasion), FreeChoice m.map env (o.signal m) → o.Occurs env m →
      (CodeSafe env m o ↔ CodeVisible env m o)) ∧
    (∀ a, pageOf a < taskPages → ¬InStub m.priv (pageOf a) →
      (ExecuteOnly m a ↔ ∃ l, InstalledFrom b es m (pageOf a) l ∧
        Entry.x l.pte = true ∧ Entry.r l.pte = false)) := by
  refine ⟨fun env o hfree ho => ?_,fun a => executeOnly_iff h hsatp⟩
  cases o with
  | illegal i => exact illegal_safe_iff heven hfree ho
  | fetch => exact fetch_safe_iff heven hsatp hfree
  | fetchSecond c => exact fetchSecond_safe_iff heven hsatp hfree ho.1 ho.2.1
  | data i a => exact data_safe_iff heven hsatp hfree ho.1 ho.2

end Run

/-- The store of the small guest in U-mode, from a page that can be read. -/
theorem guest_code_read_safely_store :
    CodeSafe smallHost (storeMachine 0x200c0013)
      (.data (.word 0x00533023 (by decide)) (storePage+8)) := by
  have hreplays : Replays storeKernel (storeUser 0x200c0013 (kernelStart+16) 5 (storePage+8)) := by
    decide +kernel
  have hi : Fetches smallHost (storeMachine 0x200c0013) (.word 0x00533023 (by decide)) :=
    ⟨by decide +kernel,by decide +kernel,by decide +kernel,by decide +kernel⟩
  have hacc : (Instr.word 0x00533023 (by decide)).AccessesMemory :=
    ⟨.sd,by decide,by decide,by simp [WordInstr.funct5],by simp [WordInstr.rs2]⟩
  have hfree : FreeChoice (storeMachine 0x200c0013).map smallHost (.sigsegv (storePage+8)) :=
    (small_free hreplays).freeChoice (by decide)
  have hfirst : (storeMachine 0x200c0013).readable (storeMachine 0x200c0013).pc = true := by
    decide +kernel
  have hsecond : (storeMachine 0x200c0013).readable ((storeMachine 0x200c0013).pc+2) = true := by
    decide +kernel
  refine ((guest_code_read_safely (b:=smallBoot storeKernel) (small_run hreplays)
    (by decide +kernel) (by decide +kernel)).1 smallHost
    (.data (.word 0x00533023 (by decide)) (storePage+8)) hfree ⟨hi,hacc⟩).mpr
    ⟨fun _ => ?_,fun _ => ⟨?_,fun _ => ?_⟩⟩
  · exact fun h => absurd (hfirst.symm.trans h.2) (by decide)
  · exact fun h => absurd (hfirst.symm.trans h.2) (by decide)
  · exact fun h => absurd (hsecond.symm.trans h.2) (by decide)

/-- A kernel whose own page is execute-only turns on translation. -/
def hiddenEvents : List Event :=
  sv39Start 0x20080009++[.signal smallHost (.sigsegv (kernelStart+8))]

/-- A kernel jumps to a load whose second half is on a page not faulted in yet. -/
def straddleEvents : List Event :=
  storeStart 0x200c000b++
    [.guest (poke 0x200ffe 0x03 (storeTables 0x200c000b storeRam)) (smallRegs 0x80200ffe 0 0)]

/-- At the first kernel's `sret` the handler faults itself, and the fetch of the second
kernel's load is taken for a load. -/
theorem hidden_code_misread :
    (∃ m, Run Step (boot (smallData sv39Kernel)) hiddenEvents m ∧
      getSatpMode m.priv.satp = satpModeSv39 ∧ m.pc = 0x80200008 ∧
      m.walk m.pc = .leaf ⟨0x80200008,0x20080009⟩ ∧
      FreeChoice m.map smallHost .sigill ∧ Fetches smallHost m (.word 0x10200073 (by decide)) ∧
      handler smallHost .sigill m = .error .nestedSegv) ∧
    (∃ m, Run Step (boot (smallData storeKernel)) straddleEvents m ∧
      getSatpMode m.priv.satp = satpModeSv39 ∧ m.pc = 0x80200ffe ∧
      FreeChoice m.map smallHost (.sigsegv (m.pc+2)) ∧
      (Occasion.fetchSecond 0x03).Occurs smallHost m ∧
      segvCause smallHost (mapConf smallHost m) (m.pc+2) = .ok scauseLoadPf) := by
  constructor
  · have hreplays : Replays sv39Kernel hiddenEvents := by decide +kernel
    refine ⟨_,small_run hreplays,by decide +kernel,by decide +kernel,by decide +kernel,
      (small_free hreplays).freeChoice (by decide),?_,error_of_haltOf (by decide +kernel)⟩
    exact ⟨by decide +kernel,by decide +kernel,by decide +kernel,by decide +kernel⟩
  · have hreplays : Replays storeKernel straddleEvents := by decide +kernel
    refine ⟨_,small_run hreplays,by decide +kernel,by decide +kernel,
      (small_free hreplays).freeChoice (by decide +kernel),?_,by decide +kernel⟩
    exact ⟨by decide +kernel,by decide,by decide +kernel⟩

end Urvirt
