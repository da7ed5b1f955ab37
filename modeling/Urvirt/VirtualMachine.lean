import Urvirt.BlockTransfer
import Urvirt.CodeVisibility
import Urvirt.Hart
import Urvirt.SeccompBpf

/-!
# The virtual machine

The guest's instructions run on the host: accesses go through the host address space,
and what the host refuses comes back as a signal to the handler. The guest keeps to
`Sound` steps when it stays out of the emulator's known gaps; the emulator's own pages
are no memory of the guest, and no step goes there, nor is a call that the filter lets
through to the host a step.
-/

namespace Urvirt

open AddressSpace PageTable Rv64gc MemoryProgram Transition

variable {σ : Type}

namespace Machine

variable (m : Machine)

/-- The byte of RAM that a native access reaches. -/
def Native (k : Kind) (a : Word) (o : ℕ) : Prop :=
  pageOf a < taskPages ∧ ∃ page off, m.map (pageOf a) = some page ∧ page.back = .ram off ∧
    page.prot.allows k = true ∧ o = off.toNat+a.toNat%4096

def Faults (k : Kind) (a : Word) : Prop :=
  taskPages ≤ pageOf a ∨ ∀ page, m.map (pageOf a) = some page → page.prot.allows k = false

def Decodes (i : Instr) : Prop := Finishes m.Native (fetch m.pc) m.ram i m.ram

end Machine

/-- What the guest has beside the emulator's state: the state of its other instructions,
and as ghost state the time that was last looked at and its deadline. -/
structure Unemulated (σ : Type) where
  ext : σ
  clock : Word
  timecmp : Option Word

/-- A call from S-mode looks at the time, and can give a deadline. -/
def Unemulated.called (x : Unemulated σ) (m : Machine) (time : Word) : Unemulated σ :=
  if m.priv.privMode = privS then
    { x with clock := time, timecmp := if m.regs 17 = sbiSetTimer then some (m.regs 10) else x.timecmp }
  else x

structure Vm (σ : Type) where
  machine : Machine
  other : Unemulated σ

def Vm.boot (b : BootData) (x : σ) : Vm σ := ⟨Urvirt.boot b,⟨x,0,none⟩⟩

namespace Machine

variable {m : Machine} {i j : Instr}

theorem Native.unique {k : Kind} {a : Word} {o o' : ℕ} (h : m.Native k a o) (h' : m.Native k a o') :
    o' = o := by
  obtain ⟨-,page,off,hp,hb,-,rfl⟩ := h
  obtain ⟨-,page',off',hp',hb',-,rfl⟩ := h'
  obtain rfl := Option.some.inj (hp.symm.trans hp')
  rw [Backing.ram.inj (hb.symm.trans hb')]

theorem Decodes.unique (h : m.Decodes i) (h' : m.Decodes j) : j = i := by
  have hnative : ∀ k a o o', m.Native k a o → m.Native k a o' → o' = o := fun _ _ _ _ => Native.unique
  exact (Finishes.det hnative h h').1

end Machine

/-- The registers that Linux reports for an `ecall`: the pc is behind it, and `a7` is
taken from elsewhere. -/
structure EcallContext (x ctx : Regs) : Prop where
  pc : ctx 0 = x 0+4
  regs : ∀ i, i ≠ 0 → i ≠ 17 → ctx i = x i

inductive VmEvent
  | retire
  | fault (env : Host) (k : Kind) (a : Word)
  | ecall (env : Host)
  | illegal (env : Host)
  | alarm (env : Host)

inductive VmStep (isa : Isa σ) : Vm σ → VmEvent → Vm σ → Prop
  | retire {m : Machine} {x : Unemulated σ} {i : Instr} {p : Prog Kind Word (BitVec 8) (σ × Regs)} {y : σ}
      {regs : Regs} {ram : Ram} : m.Decodes i → isa x.ext m.regs i (.run p) →
      Finishes m.Native p m.ram (y,regs) ram →
      VmStep isa ⟨m,x⟩ .retire ⟨{ m with ram := ram, regs := regs },{ x with ext := y }⟩
  | fault {m m' : Machine} {x : Unemulated σ} {env : Host} {k : Kind} {a : Word} :
      Demands isa m.Native m.ram x.ext m.regs k a → m.Faults k a →
      Step m (.signal env (.sigsegv a)) m' → VmStep isa ⟨m,x⟩ (.fault env k a) ⟨m',x⟩
  | ecall {m m' : Machine} {x : Unemulated σ} {env : Host} {i : Instr} {ctx : Regs}
      {d : SeccompBpf.SeccompData} : m.Decodes i → isa x.ext m.regs i .ecall →
      SeccompBpf.ecallVerdict m.priv.stubStart m.priv.stubSize m.pc d =
        .ret SeccompBpf.seccompRetTrap →
      EcallContext m.regs ctx → x.clock ≤ env.time →
      Step { m with regs := ctx } (.signal env (.sigsys ((m.regs 17).setWidth 32))) m' →
      VmStep isa ⟨m,x⟩ (.ecall env) ⟨m',x.called m env.time⟩
  | illegal {m m' : Machine} {x : Unemulated σ} {env : Host} {i : Instr} : m.Decodes i →
      isa x.ext m.regs i .illegal → Step m (.signal env .sigill) m' →
      VmStep isa ⟨m,x⟩ (.illegal env) ⟨m',x⟩
  | alarm {m m' : Machine} {x : Unemulated σ} {env : Host} : x.clock ≤ env.time →
      Step m (.signal env (.sigalrm siTimer)) m' →
      VmStep isa ⟨m,x⟩ (.alarm env) ⟨m',{ x with clock := env.time }⟩

/-- Native execution is one of the things a guest can do. -/
theorem VmStep.run {isa : Isa σ} {s s' : Vm σ} {e : VmEvent} (h : VmStep isa s e s') :
    ∃ es, Run Step s.machine es s'.machine := by
  cases h with
  | @retire m => exact ⟨_,.cons (.guest m _ _) (.nil _)⟩
  | fault _ _ hs => exact ⟨_,.cons hs (.nil _)⟩
  | @ecall m _ _ _ _ _ _ _ _ _ _ _ hs => exact ⟨_,.cons (.guest m m.ram _) (.cons hs (.nil _))⟩
  | illegal _ _ hs => exact ⟨_,.cons hs (.nil _)⟩
  | alarm _ hs => exact ⟨_,.cons hs (.nil _)⟩

/-- The page is for the mode of the guest, and neither A nor D is missing. -/
structure EntrySound (m : Machine) (e : Entry) : Prop where
  user : e.u = decide (m.priv.privMode = privU)
  accessed : e.a = true
  dirty : e.w = true → e.d = true

/-- The host map shows all of the buffer, the block is in the image, and the store that
starts the transfer stays a store. -/
structure TransferSound (env : Host) (m : Machine) (command : Word) : Prop where
  inside : BlockInside m
  read : command = urvirtBlockCmdRead → ∀ j < 512,
    ∃ o, m.Native .store (m.priv.urvbBuf+BitVec.ofNat 64 j) o
  write : command = urvirtBlockCmdWrite → ∀ j < 512,
    ∃ o, m.Native .load (m.priv.urvbBuf+BitVec.ofNat 64 j) o
  length : command = urvirtBlockCmdRead → KeepsLength env (faultMachine env m)

/-- The device is stored to by an `sd` or `c.sd` at the address itself, from a register
other than `x0`, through a writable page of a canonical address. -/
structure DeviceSound (isa : Isa σ) (env : Host) (m : Machine) (x : σ) (a : Word) (l : Leaf) :
    Prop where
  canonical : Canonical 39 a
  writable : Entry.w l.pte = true
  entry : EntrySound m l.pte
  source : ∀ i, m.Decodes i → ∃ r, i.sdSource = some r ∧ r ≠ 0
  first : ∀ i p, m.Decodes i → isa x m.regs i (.run p) → StoresFirst p a
  transfer : l.pa = urvirtBlock+urvirtBlockCommand → ∀ i r, m.Decodes i → i.sdSource = some r →
    TransferSound env m (archReg m.regs r)

/-- The emulator guesses the cause right, a load does not count on MXR, and the page or
the device is one that the emulator knows how to give. -/
structure FaultSound (isa : Isa σ) (env : Host) (m : Machine) (x : σ) (k : Kind) (a : Word) :
    Prop where
  guess : segvCause env (mapConf env m) a = .ok k.cause
  readable : k = .load → m.priv.sstatus.getLsbD 19 = false
  entry : ∀ l, m.walk a = .leaf l → inRam l.pa → (leafProt l.pte).allows k = true →
    EntrySound m l.pte
  device : ∀ l, m.walk a = .leaf l → ¬inRam l.pa → DeviceSound isa env m x a l

/-- `sip.STIP` is left alone, and bit 0 of `sepc` is not set. -/
def WriteSound (old v : Word) : Csr → Prop
  | .sip => v.getLsbD 5 = old.getLsbD 5
  | .sepc => v.getLsbD 0 = false
  | _ => True

/-- What the word would write to a CSR is nothing that the emulator takes too literally. -/
def InstrSound (m : Machine) (w : BitVec 32) : Prop :=
  ∀ i c, Zicsr.decode w = some i → i.Writes → Csr.ofNumber (BitVec.ofNat 32 i.csr) = some c →
    WriteSound (c.value m.priv) (i.op.combine (c.value m.priv) (i.src (archReg m.regs))) c

/-- A call number has 32 bits, and an alarm is one of the deadline that was given last. -/
def Sound (isa : Isa σ) (s : Vm σ) : VmEvent → Prop
  | .retire => True
  | .fault env k a => FaultSound isa env s.machine s.other.ext k a
  | .ecall _ => s.machine.regs 17 = ((s.machine.regs 17).setWidth 32).signExtend 64
  | .illegal _ => ∀ w long, s.machine.Decodes (.word w long) → InstrSound s.machine w
  | .alarm env => ∃ d, s.other.timecmp = some d ∧ d ≤ env.time

def SoundStep (isa : Isa σ) (s : Vm σ) (e : VmEvent) (s' : Vm σ) : Prop :=
  VmStep isa s e s' ∧ Sound isa s e

theorem native_of_map {m : Machine} {k : Kind} {a off : Word} {prot : Prot}
    (hlt : pageOf a < taskPages) (hp : m.map (pageOf a) = some ⟨.ram off,prot⟩)
    (hk : prot.allows k = true) : m.Native k a (off.toNat+a.toNat%4096) :=
  ⟨hlt,_,off,hp,rfl,hk,rfl⟩

section Fetch

variable {C : Type} [DecidableEq C] {tr : Kind → Word → C → Prop} {mem mem' : C → BitVec 8}
  {pc : Word} {i : Instr}

def FetchedFrom (tr : Kind → Word → C → Prop) (mem : C → BitVec 8) (pc : Word) : Instr → Prop
  | .half x _ => ∃ c₀ c₁, tr .fetch pc c₀ ∧ tr .fetch (pc+1) c₁ ∧ x = mem c₁ ++ mem c₀
  | .word w _ => ∃ c₀ c₁ c₂ c₃, tr .fetch pc c₀ ∧ tr .fetch (pc+1) c₁ ∧ tr .fetch (pc+2) c₂ ∧
      tr .fetch (pc+3) c₃ ∧ w = mem c₃ ++ mem c₂ ++ mem c₁ ++ mem c₀

theorem fetch_finishes (h : Finishes tr (fetch pc) mem i mem') :
    mem' = mem ∧ FetchedFrom tr mem pc i := by
  rw [fetch] at h
  cases h with
  | @read _ _ c₀ _ _ _ _ h₀ h =>
    cases h with
    | @read _ _ c₁ _ _ _ _ h₁ h =>
      split_ifs at h with hlong
      · cases h with
        | @read _ _ c₂ _ _ _ _ h₂ h =>
          cases h with
          | @read _ _ c₃ _ _ _ _ h₃ h =>
            cases h
            exact ⟨rfl,c₀,c₁,c₂,c₃,h₀,h₁,h₂,h₃,rfl⟩
      · cases h
        exact ⟨rfl,c₀,c₁,h₀,h₁,rfl⟩

theorem finishes_fetch (h : FetchedFrom tr mem pc i) : Finishes tr (fetch pc) mem i mem := by
  cases i with
  | half x short =>
    obtain ⟨c₀,c₁,h₀,h₁,rfl⟩ := h
    rw [fetch]
    refine .read h₀ (.read h₁ ?_)
    rw [dif_neg fun long => short ((field_append _ _ (by decide)).trans long)]
    exact .done _ _
  | word w long =>
    obtain ⟨c₀,c₁,c₂,c₃,h₀,h₁,h₂,h₃,rfl⟩ := h
    rw [fetch]
    refine .read h₀ (.read h₁ ?_)
    rw [dif_pos ((field_append _ _ (by decide)).symm.trans long)]
    exact .read h₂ (.read h₃ (.done _ _))

theorem fetch_wants {k : Kind} {a : Word} (h : Wants tr (fetch pc) mem k a) :
    k = .fetch ∧ ∃ j < 4, a = pc+BitVec.ofNat 64 j := by
  rw [fetch] at h
  cases h with
  | read => exact ⟨rfl,0,by decide,(BitVec.add_zero pc).symm⟩
  | afterRead _ h =>
    cases h with
    | read => exact ⟨rfl,1,by decide,rfl⟩
    | afterRead _ h =>
      split_ifs at h
      · cases h with
        | read => exact ⟨rfl,2,by decide,rfl⟩
        | afterRead _ h =>
          cases h with
          | read => exact ⟨rfl,3,by decide,rfl⟩
          | afterRead _ h => cases h
      · cases h

end Fetch

section Reads

variable {env : Host} {m : Machine} {a : Word} {o : ℕ} {k : Kind} {i : Instr}

theorem Machine.Native.fetchByte (env : Host) (h : m.Native .fetch a o) :
    m.fetchByte env a = some (m.ram o) := by
  obtain ⟨-,⟨back,prot⟩,off,hp,hb,hx,rfl⟩ := h
  have hx' : prot.exec = true := hx
  cases hb
  simp only [Machine.fetchByte,hp,hx',if_true]

theorem Machine.Native.deref8 (hconf : Free m.map env.confPage (pages confSize)) {c : BitVec 8}
    (h : m.Native .fetch a o) (hc : Urvirt.deref8 env (mapConf env m) a = .ok c) : c = m.ram o := by
  have hr : (mapConf env m).readable a = true := by
    by_contra hno
    rw [deref8_not_readable env (Bool.eq_false_of_not_eq_true hno)] at hc
    cases hc
  exact Except.ok.inj (hc.symm.trans (deref8_fetched hconf (h.fetchByte env) hr))

theorem Machine.Decodes.deref32 {w : BitVec 32} (hconf : Free m.map env.confPage (pages confSize))
    (h : m.Decodes i) (hw : Urvirt.deref32 env (mapConf env m) m.pc = .ok w) :
    match i with
    | .half x _ => w.setWidth 16 = x
    | .word w' _ => w = w' := by
  have hfrom := (fetch_finishes h).2
  obtain ⟨b₀,h₀,hw⟩ := bind_ok.mp hw
  obtain ⟨b₁,h₁,hw⟩ := bind_ok.mp hw
  obtain ⟨b₂,h₂,hw⟩ := bind_ok.mp hw
  obtain ⟨b₃,h₃,hw⟩ := bind_ok.mp hw
  cases hw
  cases i with
  | half x short =>
    obtain ⟨c₀,c₁,hn₀,hn₁,rfl⟩ := hfrom
    obtain rfl := hn₀.deref8 hconf h₀
    obtain rfl := hn₁.deref8 hconf h₁
    change (b₃ ++ b₂ ++ m.ram c₁ ++ m.ram c₀).setWidth 16 = m.ram c₁ ++ m.ram c₀
    rw [BitVec.append_assoc]
    exact BitVec.setWidth_append_eq_right
  | word w' long =>
    obtain ⟨c₀,c₁,c₂,c₃,hn₀,hn₁,hn₂,hn₃,rfl⟩ := hfrom
    obtain rfl := hn₀.deref8 hconf h₀
    obtain rfl := hn₁.deref8 hconf h₁
    obtain rfl := hn₂.deref8 hconf h₂
    obtain rfl := hn₃.deref8 hconf h₃
    rfl

theorem Machine.Decodes.deref16 {x : BitVec 16} (hconf : Free m.map env.confPage (pages confSize))
    (h : m.Decodes i) (hx : Urvirt.deref16 env (mapConf env m) m.pc = .ok x) :
    match i with
    | .half x' _ => x = x'
    | .word w _ => x = w.setWidth 16 := by
  have hfrom := (fetch_finishes h).2
  obtain ⟨b₀,h₀,hx⟩ := bind_ok.mp hx
  obtain ⟨b₁,h₁,hx⟩ := bind_ok.mp hx
  cases hx
  cases i with
  | half x' short =>
    obtain ⟨c₀,c₁,hn₀,hn₁,rfl⟩ := hfrom
    obtain rfl := hn₀.deref8 hconf h₀
    obtain rfl := hn₁.deref8 hconf h₁
    rfl
  | word w' long =>
    obtain ⟨c₀,c₁,c₂,c₃,hn₀,hn₁,-,-,rfl⟩ := hfrom
    obtain rfl := hn₀.deref8 hconf h₀
    obtain rfl := hn₁.deref8 hconf h₁
    change m.ram c₁ ++ m.ram c₀ = (m.ram c₃ ++ m.ram c₂ ++ m.ram c₁ ++ m.ram c₀).setWidth 16
    rw [BitVec.append_assoc]
    exact BitVec.setWidth_append_eq_right.symm

end Reads

end Urvirt
