import Urvirt.InstructionDecoding

/-!
# Reading the guest's code

To classify a fault or to emulate an instruction the handler reads the instruction
through the host address space, where it may find less than the guest could fetch:
a page without the right to read, or no page at all for the second half of an
instruction. Such a read faults in the handler itself.
-/

namespace Urvirt

open AddressSpace PageTable Rv64gc Transition

namespace Machine

def readable (m : Machine) (a : Word) : Bool :=
  match m.map (pageOf a) with
  | none => false
  | some page => page.prot.read

def executable (m : Machine) (a : Word) : Bool :=
  match m.map (pageOf a) with
  | none => false
  | some page => page.prot.exec

end Machine

section Deref

variable (env : Host) {m : Machine} {a : Word}

theorem deref8_readable (h : m.readable a = true) : ∃ b, deref8 env m a = .ok b := by
  simp only [Machine.readable] at h
  cases hp : m.map (pageOf a) with
  | none => simp [hp] at h
  | some page =>
    rw [hp] at h
    simp [deref8,Machine.hostByte,hp,h]

theorem deref8_not_readable (h : m.readable a = false) : deref8 env m a = .error .nestedSegv := by
  simp only [Machine.readable] at h
  cases hp : m.map (pageOf a) with
  | none => simp [deref8,Machine.hostByte,hp]
  | some page =>
    rw [hp] at h
    simp [deref8,Machine.hostByte,hp,h]

/-- An instruction starts at an even address, so its halves do not cross a page. -/
theorem pageOf_succ (heven : a.toNat%2 = 0) : pageOf (a+1) = pageOf a := by
  have hone : (1 : Word).toNat = 1 := rfl
  have hlt := a.isLt
  simp only [pageOf,BitVec.toNat_add,hone]
  omega

theorem even_add_two (heven : a.toNat%2 = 0) : (a+2).toNat%2 = 0 := by
  have htwo : (2 : Word).toNat = 2 := rfl
  simp only [BitVec.toNat_add,htwo]
  omega

theorem readable_succ (heven : a.toNat%2 = 0) : m.readable (a+1) = m.readable a := by
  rw [Machine.readable,pageOf_succ heven]
  rfl

theorem deref16_readable (heven : a.toNat%2 = 0) (h : m.readable a = true) :
    ∃ x, deref16 env m a = .ok x := by
  obtain ⟨b₀,h₀⟩ := deref8_readable env h
  obtain ⟨b₁,h₁⟩ := deref8_readable env ((readable_succ heven).trans h)
  exact ⟨_,bind_ok.mpr ⟨b₀,h₀,bind_ok.mpr ⟨b₁,h₁,rfl⟩⟩⟩

theorem deref32_readable (heven : a.toNat%2 = 0) (h : m.readable a = true)
    (h' : m.readable (a+2) = true) : ∃ x, deref32 env m a = .ok x := by
  have hthree : a+3 = a+2+1 := by rw [BitVec.add_assoc]; rfl
  obtain ⟨b₀,h₀⟩ := deref8_readable env h
  obtain ⟨b₁,h₁⟩ := deref8_readable env ((readable_succ heven).trans h)
  obtain ⟨b₂,h₂⟩ := deref8_readable env h'
  obtain ⟨b₃,h₃⟩ := deref8_readable env ((readable_succ (even_add_two heven)).trans h')
  rw [← hthree] at h₃
  exact ⟨_,bind_ok.mpr ⟨b₀,h₀,bind_ok.mpr ⟨b₁,h₁,bind_ok.mpr ⟨b₂,h₂,bind_ok.mpr ⟨b₃,h₃,rfl⟩⟩⟩⟩⟩

theorem deref32_not_readable (heven : a.toNat%2 = 0) (h : m.readable a = true)
    (h' : m.readable (a+2) = false) : deref32 env m a = .error .nestedSegv := by
  obtain ⟨b₀,h₀⟩ := deref8_readable env h
  obtain ⟨b₁,h₁⟩ := deref8_readable env ((readable_succ heven).trans h)
  exact bind_error.mpr (.inr ⟨b₀,h₀,bind_error.mpr (.inr ⟨b₁,h₁,
    bind_error.mpr (.inl (deref8_not_readable env h'))⟩)⟩)

end Deref

/-- The first half of the instruction at the pc is readable, and the second one if the
first byte asks for it. -/
def CanRead (env : Host) (m : Machine) (long : BitVec 8 → Prop) : Prop :=
  m.readable m.pc = true ∧
    ∀ c, deref8 env m m.pc = .ok c → long c → m.readable (m.pc+2) = true

section Nested

variable {env : Host} {m : Machine}

/-- A computation that reads the first byte of the instruction, and for some bytes all
of it, ends in a nested fault exactly when something it reads is not readable. -/
theorem nested_iff {α : Type} {long : BitVec 8 → Prop} {f : BitVec 8 → Except Halt α}
    (heven : m.pc.toNat%2 = 0)
    (hlong : ∀ c, long c → (f c = .error .nestedSegv ↔ deref32 env m m.pc = .error .nestedSegv))
    (hshort : ∀ c, m.readable m.pc = true → ¬long c → f c ≠ .error .nestedSegv) :
    deref8 env m m.pc >>= f = .error .nestedSegv ↔ ¬CanRead env m long := by
  constructor
  · intro h hcan
    rcases bind_error.mp h with h | ⟨c,hc,h⟩
    · obtain ⟨c,hc⟩ := deref8_readable env hcan.1
      rw [hc] at h
      cases h
    · by_cases hl : long c
      · obtain ⟨w,hw⟩ := deref32_readable env heven hcan.1 (hcan.2 c hc hl)
        have hw' := (hlong c hl).mp h
        rw [hw] at hw'
        cases hw'
      · exact hshort c hcan.1 hl h
  · intro hn
    by_cases hr : m.readable m.pc = true
    · by_contra hne
      refine hn ⟨hr,fun c hc hl => ?_⟩
      by_contra hr₂
      have hw := deref32_not_readable env heven hr (by simpa using hr₂)
      exact hne (bind_error.mpr (.inr ⟨c,hc,(hlong c hl).mpr hw⟩))
    · exact bind_error.mpr (.inl (deref8_not_readable env (by simpa using hr)))

theorem bind_nested_iff {α β : Type} {x : Except Halt α} {f : α → Except Halt β}
    (hf : ∀ a, f a ≠ .error .nestedSegv) :
    x >>= f = .error .nestedSegv ↔ x = .error .nestedSegv := by
  rw [bind_error]
  exact ⟨fun h => h.resolve_right fun ⟨a,_,ha⟩ => hf a ha,.inl⟩

theorem ite_ne_nested {α : Type} {c : Prop} [Decidable c] {x y : Except Halt α}
    (hx : x ≠ .error .nestedSegv) (hy : y ≠ .error .nestedSegv) :
    (if c then x else y) ≠ .error .nestedSegv := by
  split_ifs
  · exact hx
  · exact hy

theorem deref16_ne_nested (heven : m.pc.toNat%2 = 0) (hr : m.readable m.pc = true) :
    deref16 env m m.pc ≠ .error .nestedSegv := by
  obtain ⟨x,hx⟩ := deref16_readable env heven hr
  simp [hx]

theorem segvCause_nested_iff {a : Word} (heven : m.pc.toNat%2 = 0) (hne : a ≠ m.pc) :
    segvCause env m a = .error .nestedSegv ↔ m.readable m.pc = false := by
  rw [segvCause,if_neg hne]
  constructor
  · intro h
    by_contra hr
    have hr : m.readable m.pc = true := Bool.eq_true_of_not_eq_false hr
    obtain ⟨c,hc⟩ := deref8_readable env hr
    obtain ⟨x,hx⟩ := deref16_readable env heven hr
    simp only [hc,hx,bind,Except.bind] at h
    split_ifs at h
  · exact fun hr => bind_error.mpr (.inl (deref8_not_readable env hr))

theorem decodeSd_nested_iff (heven : m.pc.toNat%2 = 0) :
    decodeSd env m m.pc = .error .nestedSegv ↔ ¬CanRead env m (fun c => c &&& 1 ≠ 0) := by
  rw [decodeSd]
  apply nested_iff heven
  · intro c hl
    rw [if_pos hl]
    exact bind_nested_iff fun w => by split_ifs <;> simp
  · intro c hr hl
    rw [if_neg hl,Ne,bind_nested_iff fun x => by dsimp only; split_ifs <;> simp]
    exact deref16_ne_nested heven hr

end Nested

section Device

variable {env : Host} {m : Machine}

theorem storeBytes_ne_nested (buf : Word) (data : ℕ → BitVec 8) (n : ℕ) :
    storeBytes m buf data n ≠ .error .nestedSegv := by
  induction n with
  | zero => simp [storeBytes]
  | succ n ih =>
    rw [storeBytes,Ne,bind_nested_iff]
    · exact ih
    · intro m'
      simp only [storeByte]
      split
      · simp
      · split <;> simp

theorem blockCommand_ne_nested (data : Word) : blockCommand env m data ≠ .error .nestedSegv := by
  simp only [blockCommand]
  split_ifs
  · simp only [sPread64]
    split_ifs
    · simp
    · exact storeBytes_ne_nested _ _ _
  · simp
  · simp

theorem skipStore_ne_nested {m' : Machine} (hmap : m'.map = m.map) (hpc : m'.pc = m.pc)
    (hr : m.readable m.pc = true) : skipStore env m' ≠ .error .nestedSegv := by
  have hr' : m'.readable m'.pc = true := by
    simp only [Machine.readable,hmap,hpc]
    exact hr
  obtain ⟨c,hc⟩ := deref8_readable env hr'
  simp [skipStore,hc,bind,Except.bind]

theorem deviceStore_ne_nested {pa data : Word} (hr : m.readable m.pc = true)
    (hdec : decodeSd env m m.pc ≠ .error .nestedSegv) :
    deviceStore env m pa data ≠ .error .nestedSegv := by
  simp only [deviceStore]
  split_ifs
  · intro h
    rcases bind_error.mp h with h | ⟨m',hm',h⟩
    · exact blockCommand_ne_nested data h
    · obtain ⟨ram,block,rfl⟩ := blockCommand_ok hm'
      have hmap : ({ m with ram := ram, block := block } : Machine).map = m.map := rfl
      exact skipStore_ne_nested hmap rfl hr h
  · exact skipStore_ne_nested (m:=m) rfl rfl hr
  · exact skipStore_ne_nested (m:=m) rfl rfl hr
  · rw [Ne,bind_nested_iff fun _ => by simp]
    exact hdec

theorem getStoreData_nested_iff :
    getStoreData env m = .error .nestedSegv ↔ decodeSd env m m.pc = .error .nestedSegv := by
  apply bind_nested_iff
  intro found
  cases found with
  | none => simp
  | some rs2 =>
    dsimp only
    split_ifs <;> simp

theorem deviceAccess_nested_iff (heven : m.pc.toNat%2 = 0) (scause pa : Word) :
    deviceAccess env m scause pa = .error .nestedSegv ↔
      decodeSd env m m.pc = .error .nestedSegv := by
  simp only [deviceAccess]
  split_ifs with hs
  · constructor
    · intro h
      by_contra hdec
      have hcan := not_not.mp (mt (decodeSd_nested_iff heven).mpr hdec)
      rcases bind_error.mp h with h | ⟨found,-,h⟩
      · exact hdec (getStoreData_nested_iff.mp h)
      · cases found with
        | none => simp at h
        | some data => exact deviceStore_ne_nested hcan.1 hdec h
    · exact fun hdec => bind_error.mpr (.inl (getStoreData_nested_iff.mpr hdec))
  · exact bind_nested_iff fun _ => by simp

def LeafOutside (m : Machine) (a : Word) : Prop := ∃ l, m.walk a = .leaf l ∧ ¬inRam l.pa

theorem handlePageFault_nested_iff {scause a : Word} (heven : m.pc.toNat%2 = 0)
    (hsatp : getSatpMode m.priv.satp = satpModeSv39)
    (hfree : Free m.map env.ramPage (pages ramSize)) :
    handlePageFault env m scause a = .error .nestedSegv ↔
      LeafOutside m a ∧ ¬CanRead env m (fun c => c &&& 1 ≠ 0) := by
  rw [← decodeSd_nested_iff heven]
  cases hw : m.walk a with
  | halt why =>
    have hwhy : why ≠ .nestedSegv := by
      rintro rfl
      rcases walk_halt hsatp hw with h | h <;> cases h
    simp [handlePageFault,lookupPa,hw,bind,Except.bind,hwhy,LeafOutside]
  | fault => simp [handlePageFault_fault scause hfree hw,LeafOutside,hw]
  | leaf l =>
    rw [handlePageFault_leaf scause hfree hw (leaf_ne_zero hsatp hw)]
    by_cases hram : inRam l.pa
    · have hne : ramAccess m scause a l.pte ≠ .error .nestedSegv := by
        simp only [ramAccess]
        split_ifs
        · split <;> simp
        · simp
        · simp
      simp [hram,hne,LeafOutside,hw]
    · rw [if_neg hram,deviceAccess_nested_iff heven]
      simp [LeafOutside,hw,hram]

end Device

section Illegal

variable {env : Host} {m : Machine}

theorem readCsr_ne_nested (priv : PrivState) (csr : BitVec 32) :
    readCsr priv csr ≠ .error .nestedSegv := by
  simp only [readCsr]
  repeat' apply ite_ne_nested
  all_goals simp

theorem writeCsr_ne_nested (priv : PrivState) (csr : BitVec 32) (value : Word) :
    writeCsr priv csr value ≠ .error .nestedSegv := by
  simp only [writeCsr]
  repeat' apply ite_ne_nested
  all_goals simp

theorem csrInstr_ne_nested (instr : BitVec 32) : csrInstr m instr ≠ .error .nestedSegv := by
  have hread : ∀ rd, csrReadRd m (insCsr instr) rd ≠ .error .nestedSegv := by
    intro rd
    simp only [csrReadRd]
    split_ifs
    · cases hr : readCsr m.priv (insCsr instr) with
      | error why =>
        intro h
        cases h
        exact readCsr_ne_nested _ _ hr
      | ok old => simp [Except.map]
    · simp
  have hmodify : ∀ willWrite combine,
      csrModify m (insCsr instr) (insRd instr) willWrite combine ≠ .error .nestedSegv := by
    intro willWrite combine h
    rcases bind_error.mp h with h | ⟨orig,-,h⟩
    · exact readCsr_ne_nested _ _ h
    · rw [bind_nested_iff fun _ => by simp,writeCsrIf] at h
      split_ifs at h
      exact writeCsr_ne_nested _ _ _ h
  simp only [csrInstr]
  split_ifs
  · intro h
    rcases bind_error.mp h with h | ⟨m',-,h⟩
    · exact hread _ h
    · rw [bind_nested_iff fun _ => by simp] at h
      exact writeCsr_ne_nested _ _ _ h
  · exact hmodify _ _
  · exact hmodify _ _
  · simp

theorem handlePrivInstr_ne_nested (instr : BitVec 32) :
    handlePrivInstr m instr ≠ .error .nestedSegv := by
  simp only [handlePrivInstr]
  split_ifs
  · simp
  · simp
  · simp
  · simp
  · rw [Ne,bind_nested_iff fun _ => by simp]
    exact csrInstr_ne_nested instr
  · simp

theorem handleIllegal_nested_iff (heven : m.pc.toNat%2 = 0) :
    handleIllegal env m = .error .nestedSegv ↔ m.priv.privMode = privS ∧
      ¬CanRead env m (fun c => c &&& 0b11 = 0b11 ∧ c &&& 0b11111 ≠ 0b11111) := by
  by_cases hs : m.priv.privMode = privS
  · rw [handleIllegal,if_pos hs,and_iff_right hs]
    apply nested_iff heven
    · intro c hl
      rw [if_pos hl]
      exact bind_nested_iff fun instr => handlePrivInstr_ne_nested instr
    · intro c _ hl
      rw [if_neg hl]
      simp
  · simp [handleIllegal,hs]

end Illegal

end Urvirt
