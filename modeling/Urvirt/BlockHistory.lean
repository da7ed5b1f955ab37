import Urvirt.HartSteps

/-!
# The block image over a run

Each byte of the image is what the last `WRITE` of it took from its buffer, and a `READ`
gives this back.
-/

namespace Urvirt

open AddressSpace Transition Scatter

/-- The event is a `WRITE` that copies to byte `i` of the image. -/
def WritesByte (i : ℕ) (m : Machine) (e : Event) : Prop :=
  ∃ env a l, e = .signal env (.sigsegv a) ∧ StoreFault env m a l urvirtBlockCmdWrite ∧
    l.pa = urvirtBlock+urvirtBlockCommand ∧ m.blockOffset.msb = false ∧
    InRange m.blockOffset.toNat (writeCount env (faultMachine env m)) i

def Unwritten (i : ℕ) (m : Machine) (e : Event) (m' : Machine) : Prop := Step m e m' ∧ ¬WritesByte i m e

section Step

variable {env : Host} {m mid m' t : Machine} {e : Event} {a data : Word} {l : Leaf} {i : ℕ}

theorem leading_true {p : ℕ → Bool} {n : ℕ} (hi : i < leading p n) : p i = true := by
  have hlen : i < ((List.range n).takeWhile p).length := hi
  have hget : ((List.range n).takeWhile p)[i] = i := by
    rw [(List.takeWhile_prefix p).getElem hlen,List.getElem_range]
  have hmem : i ∈ (List.range n).takeWhile p := List.mem_iff_getElem.mpr ⟨i,hlen,hget⟩
  exact List.mem_takeWhile_imp hmem

theorem transferred_true {p : ℕ → Bool} {n : ℕ} (hi : i < transferred env p n) : p i = true := by
  rw [transferred] at hi
  split_ifs at hi with hall
  · exact leading_true (hall.symm ▸ hi)
  · exact leading_true (Nat.lt_of_lt_of_le hi (Nat.min_le_right _ _))

theorem resume_block (env : Host) (m : Machine) :
    (unmapConf env (clearVm (takeInterrupt m))).block = m.block := by
  simp only [unmapConf,clearVm,takeInterrupt]
  split_ifs <;> rfl

theorem resume_ram (env : Host) (m : Machine) :
    (unmapConf env (clearVm (takeInterrupt m))).ram = m.ram := by
  simp only [unmapConf,clearVm,takeInterrupt]
  split_ifs <;> rfl

theorem skipStore_keeps (h : skipStore env t = .ok mid) : mid.block = t.block ∧ mid.ram = t.ram := by
  obtain ⟨c,-,rfl⟩ := skipStore_pc h
  exact ⟨rfl,rfl⟩

theorem blockCommand_byte (h : blockCommand env m data = .ok t)
    (hout : data = urvirtBlockCmdWrite → m.blockOffset.msb = false →
      ¬InRange m.blockOffset.toNat (writeCount env m) i) : t.block.byte i = m.block.byte i := by
  by_cases hread : data = urvirtBlockCmdRead
  · rw [hread,blockCommand_read] at h
    obtain rfl := storeBytes_scatter h
    rfl
  · by_cases hwrite : data = urvirtBlockCmdWrite
    · cases hmsb : m.blockOffset.msb with
      | true =>
        have hmsb' : (urvirtBlockSize*m.priv.urvbBlockId).msb = true := hmsb
        rw [blockCommand,if_neg hread,if_pos hwrite,sPwrite64,if_pos hmsb'] at h
        cases h
        rfl
      | false =>
        rw [hwrite,blockCommand_write env hmsb] at h
        cases h
        exact if_neg (hout hwrite hmsb)
    · rw [blockCommand,if_neg hread,if_neg hwrite] at h
      cases h

theorem SignalEffect.byte {sig : Signal} (hfree : FreeChoice m.map env sig)
    (h : SignalEffect env (mapConf env m) sig mid) (hno : ¬WritesByte i m (.signal env sig)) :
    mid.block.byte i = m.block.byte i := by
  cases h with
  | privInstr _ _ _ hp => cases hp <;> rfl
  | fault hcause heff =>
    cases heff with
    | device hw hz hram hstore hdev =>
      subst hstore
      rw [deviceAccess,if_pos rfl] at hdev
      obtain ⟨data,hdata,hdev⟩ := bind_ok.mp hdev
      cases data with
      | none => cases hdev
      | some v =>
        simp only [deviceStore] at hdev
        split_ifs at hdev with hcmd hid hbuf
        · obtain ⟨t,ht,hskip⟩ := bind_ok.mp hdev
          rw [(skipStore_keeps hskip).1]
          refine blockCommand_byte (m:=faultMachine env m) ht fun hwrite hmsb hin => hno ?_
          exact ⟨env,_,_,rfl,⟨hfree,hcause,hw,hz,hram,hwrite ▸ hdata⟩,hcmd,hmsb,hin⟩
        · rw [(skipStore_keeps hdev).1]
          rfl
        · rw [(skipStore_keeps hdev).1]
          rfl
        · obtain ⟨_,-,hdev⟩ := bind_ok.mp hdev
          cases hdev
    | _ => rfl
  | _ => rfl

/-- A step that does not write the byte keeps it. -/
theorem step_byte (hs : Step m e m') (hno : ¬WritesByte i m e) : m'.block.byte i = m.block.byte i := by
  cases hs with
  | guest ram regs => rfl
  | signal hfree hh =>
    obtain ⟨mid,-,heff,rfl⟩ := handler_effect hfree hh
    rw [resume_block]
    exact heff.byte hfree hno

theorem StoreFault.command (hf : StoreFault env m a l data) (hs : Step m (.signal env (.sigsegv a)) m')
    (hpa : l.pa = urvirtBlock+urvirtBlockCommand) : ∃ t,
      blockCommand env (faultMachine env m) data = .ok t ∧ m'.block = t.block ∧ m'.ram = t.ram := by
  cases hs with
  | signal hfree hh =>
    obtain ⟨mid,hmid,-,rfl⟩ := handler_effect hfree hh
    rw [hf.emulate,deviceStore,if_pos hpa] at hmid
    obtain ⟨t,ht,hskip⟩ := bind_ok.mp hmid
    obtain ⟨hblock,hram⟩ := skipStore_keeps hskip
    exact ⟨t,ht,(resume_block env mid).trans hblock,(resume_ram env mid).trans hram⟩

/-- The byte that is written comes from the buffer. -/
theorem step_written (hs : Step m (.signal env (.sigsegv a)) m')
    (hw : WritesByte i m (.signal env (.sigsegv a))) :
    (mapConf env m).hostByte env (m.priv.urvbBuf+BitVec.ofNat 64 (i-m.blockOffset.toNat)) =
      some (m'.block.byte i) := by
  obtain ⟨env',a',l,he,hf,hpa,hmsb,hin⟩ := hw
  cases he
  obtain ⟨t,ht,hblock,-⟩ := hf.command hs hpa
  rw [blockCommand_write (m:=faultMachine env m) env hmsb] at ht
  cases ht
  have hlt : i-m.blockOffset.toNat < writeCount env (faultMachine env m) := by
    have := hin.1
    have := hin.2
    omega
  rw [writeCount,pwriteCount] at hlt
  obtain ⟨v,hv⟩ := Option.isSome_iff_exists.mp (transferred_true hlt)
  have hbyte : m'.block.byte i = ((faultMachine env m).hostByte env
      (m.priv.urvbBuf+BitVec.ofNat 64 (i-m.blockOffset.toNat))).getD 0 := by
    rw [hblock]
    exact if_pos hin
  rw [hbyte]
  exact hv.trans (congrArg some (congrArg (Option.getD · 0) hv).symm)

end Step

/-- The last `WRITE` of the byte took `v` from its buffer, or there was none and `v` is
what the image held at the start. -/
def LastWritten (b : BootData) (es : List Event) (m : Machine) (i : ℕ) (v : BitVec 8) : Prop :=
  (v = b.block.byte i ∧ Run (Unwritten i) (boot b) es m) ∨
  ∃ es₁ env a es₂ m₁ m₂, es = es₁++.signal env (.sigsegv a)::es₂ ∧ Run Step (boot b) es₁ m₁ ∧
    Step m₁ (.signal env (.sigsegv a)) m₂ ∧ WritesByte i m₁ (.signal env (.sigsegv a)) ∧
    (mapConf env m₁).hostByte env (m₁.priv.urvbBuf+BitVec.ofNat 64 (i-m₁.blockOffset.toNat)) =
      some v ∧ Run (Unwritten i) m₂ es₂ m

theorem unwritten_byte {i : ℕ} {m m' : Machine} {es : List Event} (h : Run (Unwritten i) m es m') :
    m'.block.byte i = m.block.byte i :=
  h.frame (fun m : Machine => m.block.byte i) fun _ _ _ hs => step_byte hs.1 hs.2

theorem lastWritten {b : BootData} {es : List Event} {m : Machine} (h : Run Step (boot b) es m)
    (i : ℕ) : LastWritten b es m i (m.block.byte i) := by
  rcases h.last (WritesByte i) with hrun | ⟨es₁,e,es₂,m₁,m₂,rfl,hrun,hs,hw,hrest⟩
  · exact .inl ⟨unwritten_byte hrun,hrun⟩
  · obtain ⟨env,a,l,rfl,-⟩ := id hw
    refine .inr ⟨es₁,env,a,es₂,m₁,m₂,rfl,hrun,hs,hw,?_,hrest⟩
    rw [unwritten_byte hrest]
    exact step_written hs hw

theorem native_offset {b : Boot} {es : List Event} {m : Machine} {k : Kind} {a : Word} {o : ℕ}
    (h : Run Step (boot b.toBootData) es m) (hn : m.Native k a o) : o%4096 = a.toNat%4096 := by
  obtain ⟨hlt,page,off,hp,hb,-,rfl⟩ := hn
  have hoff : off.toNat%4096 = 0 := by
    by_cases hin : InStub b.config (pageOf a)
    · have hstub := (StubKept.run h).page _ hin
      rw [hp] at hstub
      have hback : (b.stubPage (pageOf a)).back = .ram off := Option.some.inj hstub ▸ hb
      simp only [Boot.stubPage] at hback
      split_ifs at hback
    · rcases mapped_origin h hlt hin hp with ⟨-,rfl,-⟩ | ⟨l,-,rfl⟩
      · obtain rfl := Backing.ram.inj hb
        rw [BitVec.toNat_ofNat]
        omega
      · obtain rfl := Backing.ram.inj hb
        have hs : ramStart.toNat = 0x80000000 := rfl
        rw [BitVec.toNat_sub,BitVec.toNat_shiftLeft,Nat.shiftLeft_eq,hs]
        omega
  omega

theorem buffer_injective {b : Boot} {es : List Event} {m : Machine} {k : Kind} {buf : Word} {g : ℕ → ℕ}
    (h : Run Step (boot b.toBootData) es m)
    (hg : ∀ j < 512, m.Native k (buf+BitVec.ofNat 64 j) (g j)) :
    ∀ i < 512, ∀ j < 512, g i = g j → i = j := by
  intro i hi j hj hij
  have hoffi := native_offset h (hg i hi)
  have hoffj := native_offset h (hg j hj)
  rw [toNat_bufferByte buf hi] at hoffi
  rw [toNat_bufferByte buf hj] at hoffj
  omega

theorem read_byte {b : Boot} {es : List Event} {env : Host} {m m' : Machine} {a : Word}
    {l : Leaf} {g : ℕ → ℕ} (h : Run Step (boot b.toBootData) es m)
    (hf : StoreFault env m a l urvirtBlockCmdRead) (hpa : l.pa = urvirtBlock+urvirtBlockCommand)
    (hin : BlockInside m)
    (hg : ∀ j < 512, m.Native .store (m.priv.urvbBuf+BitVec.ofNat 64 j) (g j))
    (hs : Step m (.signal env (.sigsegv a)) m') {j : ℕ} (hj : j < 512) :
    m'.ram (g j) = m.block.byte (512*m.priv.urvbBlockId.toNat+j) := by
  obtain ⟨hoff,-⟩ := hin.offset
  obtain ⟨t,ht,-,hram⟩ := hf.command hs hpa
  have hconf := hf.free.conf_free
  obtain ⟨t',ht',hbytes,-⟩ := read_done (m:=faultMachine env m) (readCount_full hconf hin hg)
    (buffer_injective h hg) fun j hj => ((hg j hj).withConf hconf).hostRam
  obtain rfl := Except.ok.inj (ht.symm.trans ht')
  rw [hram,hbytes j hj,← hoff]
  rfl

/-- The image is a store: in every run a byte of it is the last one that was written
there, and this is what a `READ` of its block puts into the guest's memory. -/
theorem block_store {b : Boot} {es : List Event} {m : Machine}
    (h : Run Step (boot b.toBootData) es m) :
    (∀ i, LastWritten b.toBootData es m i (m.block.byte i)) ∧
    ∀ env a l (g : ℕ → ℕ) m', StoreFault env m a l urvirtBlockCmdRead →
      l.pa = urvirtBlock+urvirtBlockCommand → BlockInside m →
      (∀ j < 512, m.Native .store (m.priv.urvbBuf+BitVec.ofNat 64 j) (g j)) →
      Step m (.signal env (.sigsegv a)) m' →
      ∀ j < 512, LastWritten b.toBootData es m (512*m.priv.urvbBlockId.toNat+j) (m'.ram (g j)) := by
  refine ⟨lastWritten h,fun env a l g m' hf hpa hin hg hs j hj => ?_⟩
  rw [read_byte h hf hpa hin hg hs hj]
  exact lastWritten h _

/-- The small guest reads back what it has written from its code. -/
theorem block_store_own : ∃ m',
    Run Step (boot (smallData storeKernel)) (diskEvents (kernelStart+64) 1)
      (diskMachine (kernelStart+64) 1) ∧
    Step (diskMachine (kernelStart+64) 1) (.signal smallHost (.sigsegv storePage)) m' ∧
    ∀ j < 512, LastWritten (smallData storeKernel) (diskEvents (kernelStart+64) 1)
      (diskMachine (kernelStart+64) 1)
      (512*(diskMachine (kernelStart+64) 1).priv.urvbBlockId.toNat+j) (m'.ram (0x200040+j)) := by
  have hreplays : Replays storeKernel (diskEvents (kernelStart+64) 1++[diskSignal]) := by
    decide +kernel
  have hrun : Run Step (boot (smallBoot storeKernel).toBootData) (diskEvents (kernelStart+64) 1)
      (diskMachine (kernelStart+64) 1) := small_run hreplays.left
  have hf := diskMachine_storeFault hreplays.left (by decide +kernel) (by decide +kernel)
    (by decide +kernel)
  have hin : BlockInside (diskMachine (kernelStart+64) 1) :=
    diskMachine_inside (by decide +kernel) (by decide +kernel)
  have hbuf : (diskMachine (kernelStart+64) 1).priv.urvbBuf = kernelStart+64 := by decide +kernel
  have hmap : (diskMachine (kernelStart+64) 1).map (pageOf kernelStart) =
      some ⟨.ram 0x200000,protRwx⟩ := by decide +kernel
  have hg : ∀ j < 512, (diskMachine (kernelStart+64) 1).Native .store
      ((diskMachine (kernelStart+64) 1).priv.urvbBuf+BitVec.ofNat 64 j) (0x200040+j) := by
    intro j hj
    have hadd : (kernelStart+64+BitVec.ofNat 64 j).toNat = 0x80200040+j := by
      have hk : (kernelStart+64).toNat = 0x80200040 := rfl
      rw [toNat_bufferByte _ hj,hk]
      omega
    have hpage : pageOf (kernelStart+64+BitVec.ofNat 64 j) = pageOf kernelStart := by
      have hk : pageOf kernelStart = 0x80200 := rfl
      rw [hk,pageOf,hadd]
      omega
    have hnat := native_of_map (k:=.store) (by rw [hpage]; decide) (hpage ▸ hmap) rfl
    have hoff : (0x200000 : Word).toNat+(kernelStart+64+BitVec.ofNat 64 j).toNat%4096 = 0x200040+j := by
      have ho : (0x200000 : Word).toNat = 0x200000 := rfl
      rw [hadd,ho]
      omega
    rw [hbuf,← hoff]
    exact hnat
  have hs := small_step hreplays
  exact ⟨_,hrun,hs,(block_store hrun).2 _ _ _ _ _ hf rfl hin hg hs⟩

end Urvirt
