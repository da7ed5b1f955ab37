import Urvirt.HartState

/-!
# What the handler does as steps of the hart

Calls of the firmware, privileged instructions and device stores: each time the handler
completes one, the hart behind the emulator has made the step.
-/

namespace Urvirt

open AddressSpace Bitfield PageTable Rv64gc MemoryProgram Transition Scatter

variable {σ : Type}

namespace Csr

theorem value_put (priv : PrivState) (v : Word) (c d : Csr) :
    d.value (c.put priv v) = if d = c then v else d.value priv := by
  cases c <;> cases d <;> rfl

theorem value_write (priv : PrivState) (v : Word) (c : Csr) :
    (fun d : Csr => d.value (c.write priv v)) =
      Function.update (fun d : Csr => d.value priv) c (c.legal (c.value priv) v) := by
  have hclear : ∀ (d : Csr) (priv : PrivState) (b : Bool),
      d.value { priv with shouldClearVm := b } = d.value priv := fun d priv b => by cases d <;> rfl
  funext d
  rw [Function.update_apply,write]
  split_ifs with hset
  all_goals simp_all [value_put]

theorem write_rest (priv : PrivState) (v : Word) (c : Csr) :
    (c.write priv v).privMode = priv.privMode ∧ (c.write priv v).urvbBlockId = priv.urvbBlockId ∧
      (c.write priv v).urvbBuf = priv.urvbBuf := by
  rw [write]
  split_ifs
  all_goals cases c <;> exact ⟨rfl,rfl,rfl⟩

theorem satpSupported_iff (v : Word) :
    SatpSupported v ↔ v.toNat/2^60 = 0 ∨ v.toNat/2^60 = 8 := by
  have hlt := v.isLt
  have hbare := @get_eq_iff 64 60 4 (by decide) v satpModeBare
  have hsv39 := @get_eq_iff 64 60 4 (by decide) v satpModeSv39
  have hmodes : satpModeBare.toNat = 0 ∧ satpModeSv39.toNat = 8 := ⟨rfl,rfl⟩
  rw [SatpSupported,getSatpMode,hbare,hsv39,hmodes.1,hmodes.2]
  omega

theorem sanitizeStvec_eq (v : Word) :
    sanitizeStvec v = if v.toNat%4 < 2 then v else v &&& ~~~3 := by
  have hmask : stvecModeMask.toNat = 2^2-1 := rfl
  have hmodes : stvecDirect.toNat = 0 ∧ stvecVectored.toNat = 1 := ⟨rfl,rfl⟩
  have hmode : (v &&& stvecModeMask = stvecDirect ∨ v &&& stvecModeMask = stvecVectored) ↔
      v.toNat%4 < 2 := by
    rw [and_eq_iff hmask,and_eq_iff hmask,hmodes.1,hmodes.2]
    omega
  simp only [sanitizeStvec,hmode]
  rfl

theorem legal_hart {priv : PrivState} {c : Csr} {v : Word} (hl : Legal priv)
    (hw : WriteSound (c.value priv) v c) :
    c.legal (c.value priv) v = Hart.legal (c.value priv) v c := by
  have hmask : sixWritableMask = 0x20 := by decide
  cases c with
  | sstatus =>
    have hmask : sstatusWritableMask = 0xc0122 := by decide
    change mergeMasked sstatusWritableMask _ _ = _
    rw [mergeMasked,hmask]
    rfl
  | sie =>
    have hold : priv.sie &&& ~~~0x20 = 0 := hmask ▸ hl.sie
    change mergeMasked sixWritableMask priv.sie v = v &&& 0x20
    rw [mergeMasked,hmask,hold]
    exact BitVec.or_zero
  | sip =>
    have hw : v.getLsbD 5 = priv.sip.getLsbD 5 := hw
    have htwo : (0x20 : Word) = BitVec.twoPow 64 5 := by decide
    change mergeMasked sixWritableMask priv.sip v = priv.sip
    apply BitVec.eq_of_getLsbD_eq
    intro i hi
    rw [mergeMasked,hmask,htwo,BitVec.getLsbD_or,BitVec.getLsbD_and,BitVec.getLsbD_and,
      BitVec.getLsbD_not,Hart.getLsbD_bit hi]
    by_cases h5 : i = 5
    · rw [h5,hw]
      simp
    · simp [h5,hi]
  | stvec => exact sanitizeStvec_eq v
  | sepc =>
    have hw : v.getLsbD 0 = false := hw
    change v = v &&& ~~~1
    apply BitVec.eq_of_getLsbD_eq
    intro i hi
    have htwo : (1 : Word) = BitVec.twoPow 64 0 := by decide
    rw [htwo,BitVec.getLsbD_and,BitVec.getLsbD_not,Hart.getLsbD_bit hi]
    by_cases h0 : i = 0
    · rw [h0,hw]
      rfl
    · simp [h0,hi]
  | satp =>
    have hset : setSatpAsid v 0 = v &&& 0xf0000fffffffffff := by
      have hkeep : ~~~mask 44 16 = (0xf0000fffffffffff : Word) := by decide
      rw [setSatpAsid,Bitfield.set,hkeep]
      simp
    change (if SatpSupported v then setSatpAsid v 0 else priv.satp) =
      if v.toNat/2^60 = 0 ∨ v.toNat/2^60 = 8 then v &&& 0xf0000fffffffffff else priv.satp
    simp only [satpSupported_iff,hset]
  | _ => rfl

end Csr

section Word

variable {w : BitVec 32}

theorem toNat_fields (w : BitVec 32) : w.toNat = field 0 7 w+2^7*field 7 5 w+2^12*field 12 3 w+
    2^15*field 15 5 w+2^20*field 20 5 w+2^25*field 25 7 w := by
  have hlt := w.isLt
  simp only [field]
  omega

theorem insFields : (insOpcode w).toNat = field 0 7 w ∧ (insFunct3 w).toNat = field 12 3 w ∧
    (insRs2 w).toNat = field 20 5 w ∧ (insFunct7 w).toNat = field 25 7 w :=
  ⟨toNat_get (by decide) w,toNat_get (by decide) w,toNat_get (by decide) w,toNat_get (by decide) w⟩

/-- The tests for `wfi` and `sret` leave one word each. -/
theorem eq_of_fields {v : BitVec 32} (hop : insOpcode w = insOpcode v)
    (hf3 : insFunct3 w = insFunct3 v) (hf7 : insFunct7 w = insFunct7 v)
    (hrs2 : insRs2 w = insRs2 v) (hrs1 : insRs1 w = insRs1 v) (hrd : insRd w = insRd v) : w = v := by
  obtain ⟨h₁,h₂,h₃,h₄⟩ := insFields (w:=w)
  obtain ⟨h₁',h₂',h₃',h₄'⟩ := insFields (w:=v)
  apply BitVec.eq_of_toNat_eq
  rw [toNat_fields w,toNat_fields v,← h₁,← h₂,← h₃,← h₄,← insRd_toNat,← insRs1_toNat,← h₁',← h₂',
    ← h₃',← h₄',← insRd_toNat,← insRs1_toNat,hop,hf3,hf7,hrs2,hrs1,hrd]

end Word

section Privileged

variable {m m' : Machine} {x : Unemulated σ} {tlb : ℕ → Mapping → Prop} {w : BitVec 32}

theorem hartOf_write {c : Csr} {v v' : Word} {regs : Regs} (hv : c.legal (c.value m.priv) v = v') :
    hartOf { m with priv := c.write m.priv v, regs := regs } x tlb =
      { hartOf m x tlb with csr := Function.update (hartOf m x tlb).csr c v', regs := regs } := by
  obtain ⟨hmode,hid,hbuf⟩ := Csr.write_rest m.priv v c
  have hval := Csr.value_write m.priv v c
  rw [hv] at hval
  rw [Hart.mk.injEq]
  exact ⟨congrArg (fun v => decide (v = privU)) hmode,hval,rfl,rfl,rfl,rfl,hid,hbuf,rfl,rfl,rfl,rfl⟩

theorem hart_csrInstr (hl : Legal m.priv) (hsys : field 0 7 w = 0b1110011) (hf3 : field 12 3 w ≠ 0)
    (hwrite : InstrSound m w) (h : handlePrivInstr m w = .ok m') :
    (hartOf m x tlb).Privileged w (hartOf m' x tlb) := by
  rw [handlePrivInstr_csr m hsys hf3] at h
  cases hc : Csr.ofNumber (insCsr w) with
  | none =>
    obtain ⟨why,hwhy⟩ := csrInstr_unimplemented m hc
    rw [hwhy] at h
    cases h
  | some c =>
    have hcsr := (Csr.ofNumber_eq_some hc).symm
    cases hop : Zicsr.Op.ofFunct3 (field 12 3 w) with
    | none =>
      have hzero := Zicsr.ofFunct3_eq_none.mp hop
      have hcode : csrOpRw.toNat = 1 ∧ csrOpRs.toNat = 2 ∧ csrOpRc.toNat = 3 := by decide
      have herr : csrInstr m w = .error .invalidCsrOperation := by
        simp only [csrInstr,csrOp_iff,hzero,hcode]
        rfl
      rw [herr] at h
      cases h
    | some op =>
      rw [csrInstr_number m hcsr hop] at h
      have hm' := (Except.ok.inj h).symm
      have hn : Csr.ofNumber (BitVec.ofNat 32 (instrOf op w).csr) = some c := by
        rw [← hc,insCsr_eq]
        rfl
      have hstep : Zicsr.step Hart.csrs w (archReg m.regs) (hartOf m x tlb).csr = some
          ((instrOf op w).setRd (c.value m.priv) (archReg m.regs),
            if (instrOf op w).Writes then Function.update (hartOf m x tlb).csr c
              (Hart.legal (c.value m.priv)
                (op.combine (c.value m.priv) ((instrOf op w).src (archReg m.regs))) c)
            else (hartOf m x tlb).csr) := by
        simp only [Zicsr.step,decode_of_op hop,Option.bind_some,Zicsr.exec,Hart.csrs,hn,Option.map_some]
        rfl
      have hpriv := Hart.Privileged.csr hsys hf3 hstep
      rw [@setPc_rdRegs w op] at hm'
      rw [hm']
      by_cases hwr : (instrOf op w).Writes
      · have hsound : WriteSound (c.value m.priv)
            (op.combine (c.value m.priv) ((instrOf op w).src (archReg m.regs))) c :=
          hwrite (instrOf op w) c (decode_of_op hop) hwr hn
        rw [if_pos hwr] at hpriv ⊢
        rw [hartOf_write (Csr.legal_hart hl hsound)]
        exact hpriv
      · rw [if_neg hwr] at hpriv ⊢
        exact hpriv

theorem hartOf_sret (m : Machine) (x : Unemulated σ) (tlb : ℕ → Mapping → Prop) :
    hartOf (sret m) x tlb = (hartOf m x tlb).sret := by
  have hspp : (getSstatusSpp m.priv.sstatus = sstatusSppU) ↔ m.priv.sstatus.getLsbD 8 = false := by
    rw [getSstatusSpp,get_one (by decide)]
    cases m.priv.sstatus.getLsbD 8 <;> decide
  have huser : (hartOf (sret m) x tlb).user = (hartOf m x tlb).sret.user := by
    change decide ((sret m).priv.privMode = privU) = !m.priv.sstatus.getLsbD 8
    rw [sret_privMode]
    simp only [hspp]
    cases m.priv.sstatus.getLsbD 8 <;> decide
  have hcsr : (hartOf (sret m) x tlb).csr = (hartOf m x tlb).sret.csr := by
    funext c
    cases c with
    | sstatus => exact @sretStatus_eq σ m x tlb
    | _ => rfl
  exact Hart.with_congr (hartOf m x tlb) huser hcsr rfl

/-- A privileged instruction that the handler completes is one of the hart's. Only a
fence takes translations out of the cache, and then the handler asks for a flush. -/
theorem hart_privInstr (hl : Legal m.priv) (hwrite : InstrSound m w)
    (h : handlePrivInstr m w = .ok m') : ∃ tlb',
    (hartOf m x tlb).Privileged w (hartOf m' x tlb') ∧ (m'.priv.shouldClearVm = true ∨ tlb' = tlb) := by
  obtain ⟨hop,hf3,-,hf7⟩ := insFields (w:=w)
  by_cases hcsr : field 0 7 w = 0b1110011 ∧ field 12 3 w ≠ 0
  · exact ⟨tlb,hart_csrInstr hl hcsr.1 hcsr.2 hwrite h,.inr rfl⟩
  simp only [handlePrivInstr] at h
  split_ifs at h with hsys hnot hfence hwfi hsret
  · cases h
    have hsys' : field 0 7 w = 0b1110011 := by rw [← hop,hsys]; rfl
    have hnot' : field 12 3 w = 0 := by rw [← hf3,hnot]; rfl
    have hfn : field 25 7 w = 0b0001001 := by rw [← hf7,hfence.1]; rfl
    have hrd : field 7 5 w = 0 := by rw [← insRd_toNat,hfence.2]; rfl
    exact ⟨_,.sfenceVma hsys' hnot' hfn hrd,.inl rfl⟩
  · cases h
    have hw : w = 0x10500073 := eq_of_fields (hsys.trans (by decide)) (hnot.trans (by decide))
      (hwfi.1.trans (by decide)) (hwfi.2.1.trans (by decide)) (hwfi.2.2.1.trans (by decide))
      (hwfi.2.2.2.trans (by decide))
    exact ⟨tlb,.wfi hw,.inr rfl⟩
  · cases h
    have hw : w = 0x10200073 := eq_of_fields (hsys.trans (by decide)) (hnot.trans (by decide))
      (hsret.1.trans (by decide)) (hsret.2.1.trans (by decide)) (hsret.2.2.1.trans (by decide))
      (hsret.2.2.2.trans (by decide))
    refine ⟨tlb,?_,.inr rfl⟩
    rw [hartOf_sret]
    exact .sret hw
  · refine absurd ⟨?_,fun hzero => hnot ?_⟩ hcsr
    · rw [← hop,hsys]
      rfl
    · apply BitVec.eq_of_toNat_eq
      rw [hf3,hzero]
      rfl

end Privileged

section Sbi

variable {m mid : Machine} {x : Unemulated σ} {tlb : ℕ → Mapping → Prop} {env : Host} {ctx : Regs}
  {n : BitVec 32}

theorem EcallContext.fixed {x : Regs} (h : EcallContext x ctx) (hn : x 17 = n.signExtend 64) :
    Function.update ctx 17 (n.signExtend 64) = Function.update x 0 (x 0+4) := by
  funext i
  by_cases h17 : i = 17
  · subst h17
    rw [Function.update_self,Function.update_of_ne (by decide),hn]
  · rw [Function.update_of_ne h17]
    by_cases h0 : i = 0
    · subst h0
      rw [Function.update_self,h.pc]
    · rw [Function.update_of_ne h0,h.regs i h0 h17]

theorem hartOf_sbiReturn {M : Machine} {regs : Regs}
    (hregs : M.regs = Function.update regs 0 (regs 0+4)) (ret : Word) :
    hartOf (M.setReg 10 ret) x tlb = ({ hartOf M x tlb with regs := regs }).sbiReturn ret := by
  have hswap : Function.update M.regs 10 ret =
      Function.update (Function.update regs 10 ret) 0 (regs 0+4) := by
    rw [hregs]
    exact Function.update_comm (by decide) _ _ _
  exact Hart.with_congr (hartOf M x tlb) rfl rfl hswap

theorem Unemulated.called_quiet (hs : m.priv.privMode = privS) (hne : m.regs 17 ≠ sbiSetTimer)
    (time : Word) : x.called m time = { x with clock := time } := by
  rw [called,if_pos hs,if_neg hne]

theorem hartOf_setTimer {M : Machine} {time : Word} (hpriv : M.priv = { m.priv with
      counterSecall := m.priv.counterSecall+1
      sip := setSixSti m.priv.sip (elapsedFlag (m.regs 10) time) })
    (hram : M.ram = m.ram) (hblock : M.block = m.block) (hstdout : M.stdout = m.stdout) :
    { hartOf M { x with clock := time, timecmp := some (m.regs 10) } tlb with regs := m.regs } =
      { (hartOf m x tlb).atTime time with timecmp := some (m.regs 10) }.setPending
        (decide (m.regs 10 ≤ time)) := by
  have hflag : IsFlag (elapsedFlag (m.regs 10) time) := isFlag_ite isFlag_one isFlag_zero
  have hbit : (elapsedFlag (m.regs 10) time).getLsbD 0 = decide (m.regs 10 ≤ time) := by
    rw [elapsedFlag]
    by_cases hle : m.regs 10 ≤ time <;> simp [hle]
  have hsip := setSixSti_eq m.priv.sip hflag
  rw [hbit] at hsip
  have hcsr : (fun c : Csr => c.value M.priv) = Function.update (hartOf m x tlb).csr .sip
      (Hart.withBit m.priv.sip 5 (decide (m.regs 10 ≤ time))) := by
    funext c
    rw [hpriv,hsip]
    cases c <;> rfl
  rw [Hart.mk.injEq]
  refine ⟨?_,hcsr,rfl,rfl,hram,hblock,?_,?_,hstdout,rfl,rfl,rfl⟩ <;>
    simp only [hartOf,hpriv] <;> rfl

theorem hart_sbi (hctx : EcallContext m.regs ctx) (hn : m.regs 17 = n.signExtend 64)
    (hs : m.priv.privMode = privS)
    (h : handleEcall env (mapConf env { m with regs := ctx }) n = .ok mid) :
    ((hartOf m x tlb).atTime env.time).sbi env.read = some (hartOf mid (x.called m env.time) tlb) := by
  have hs' : (mapConf env { m with regs := ctx }).priv.privMode = privS := hs
  rw [handleEcall,if_pos hs'] at h
  obtain ⟨⟨m',ret⟩,hcall,h⟩ := bind_ok.mp h
  cases h
  have hfix : (fixA7 (mapConf env { m with regs := ctx }) n).regs =
      Function.update m.regs 0 (m.regs 0+4) := hctx.fixed hn
  have harg : (fixA7 (mapConf env { m with regs := ctx }) n).regs 10 = m.regs 10 := by
    rw [hfix,Function.update_of_ne (by decide)]
  rw [harg,← hn] at hcall
  have hret : ∀ (M : Machine) (y : Unemulated σ) (ret : Word),
      M.regs = (fixA7 (mapConf env { m with regs := ctx }) n).regs →
      hartOf (M.setReg 10 ret) y tlb = ({ hartOf M y tlb with regs := m.regs }).sbiReturn ret :=
    fun M y ret hM => hartOf_sbiReturn (hM.trans hfix) ret
  simp only [handleLegacySbiCall] at hcall
  simp only [Hart.sbi]
  change (if m.regs 17 = sbiSetTimer then _ else if m.regs 17 = sbiConsolePutchar then _
    else if m.regs 17 = sbiConsoleGetchar then _ else if m.regs 17 = sbiShutdown then _ else _) = _
  split_ifs at hcall with hput hget hshut hset
  · cases hcall
    have hne : m.regs 17 ≠ sbiSetTimer := by
      rw [hput]
      decide
    rw [if_neg hne,if_pos hput,Unemulated.called_quiet hs hne]
    refine congrArg some (Eq.symm ?_)
    exact hret _ _ 0 (by rfl)
  · have hne : m.regs 17 ≠ sbiSetTimer := by
      rw [hget]
      decide
    rw [if_neg hne,if_neg hput,if_pos hget,Unemulated.called_quiet hs hne]
    cases hr : env.read with
    | wouldBlock =>
      rw [hr] at hcall
      cases hcall
      refine congrArg some (Eq.symm ?_)
      exact hret _ _ 0 (by rfl)
    | failed => simp [hr] at hcall
    | byte ch =>
      rw [hr] at hcall
      cases hcall
      refine congrArg some (Eq.symm ?_)
      exact hret _ _ _ (by rfl)
  · cases hcall
    have hrest : x.called m env.time = { x with clock := env.time, timecmp := some (m.regs 10) } := by
      rw [Unemulated.called,if_pos hs,if_pos hset]
    rw [if_pos hset,hrest]
    refine congrArg some (Eq.symm ?_)
    refine (hret _ _ 0 (by rfl)).trans ?_
    exact congrArg (fun h : Hart σ => h.sbiReturn 0) (hartOf_setTimer rfl rfl rfl rfl)
  · cases hcall
    rw [if_neg hset,if_neg hput,if_neg hget,if_neg hshut,Unemulated.called_quiet hs hset]
    refine congrArg some (Eq.symm ?_)
    exact hret _ _ _ (by rfl)

end Sbi

section Decode

variable {env : Host} {m : Machine} {i : Instr} {r : ℕ} {k : Option ℤ} {c : BitVec 8} {v : Word}

theorem sdSource_even {x : BitVec 16} {short : field 0 2 x ≠ 3}
    (hr : (Instr.half x short).sdSource = some r) : field 0 1 x = 0 := by
  have hquad : field 0 2 x = 0 ∨ field 0 2 x = 2 := by
    simp only [Instr.sdSource] at hr
    split_ifs at hr with h₁ h₂
    · exact .inl h₁.1
    · exact .inr h₂.1
  rw [field_zero] at hquad ⊢
  omega

theorem field_one_of_long {w : BitVec 32} (long : field 0 2 w = 3) : field 0 1 w = 1 := by
  rw [field_zero] at long ⊢
  omega

theorem Machine.Decodes.holds (hconf : Free m.map env.confPage (pages confSize))
    (hi : m.Decodes i) (hr : i.sdSource = some r)
    (hdec : decodeSd env (mapConf env m) m.pc = .ok k) : Holds env (mapConf env m) i := by
  obtain ⟨c,hc,hdec⟩ := bind_ok.mp hdec
  split_ifs at hdec with hodd
  · obtain ⟨w',hw',-⟩ := bind_ok.mp hdec
    cases i with
    | word w long =>
      have hw : w' = w := hi.deref32 hconf hw'
      rw [hw] at hw'
      exact hw'
    | half x short =>
      have hx : w'.setWidth 16 = x := hi.deref32 hconf hw'
      obtain rfl := Except.ok.inj (hc.symm.trans (deref8_of_deref32 hw'))
      have hone := (odd_byte w').mp hodd
      rw [← field_setWidth (k:=16) (by decide) w',hx,sdSource_even hr] at hone
      exact absurd hone (by decide)
  · obtain ⟨x',hx',-⟩ := bind_ok.mp hdec
    cases i with
    | half x short =>
      have hx : x' = x := hi.deref16 hconf hx'
      rw [hx] at hx'
      exact hx'
    | word w long =>
      have hx : x' = w.setWidth 16 := hi.deref16 hconf hx'
      obtain rfl := Except.ok.inj (hc.symm.trans (deref8_of_deref16 hx'))
      refine absurd ((odd_byte x').mpr ?_) hodd
      rw [hx,field_setWidth (by decide)]
      exact field_one_of_long long

theorem getStoreData_source (hi : Holds env m i) (hr : i.sdSource = some r) (hne : r ≠ 0)
    (h : getStoreData env m = .ok (some v)) : v = archReg m.regs r := by
  obtain ⟨k,hdec,h⟩ := bind_ok.mp h
  rw [archReg,if_neg hne]
  cases i with
  | word w long =>
    rw [decodeSd_word hi long] at hdec
    simp only [Instr.sdSource] at hr
    split_ifs at hr with hsd
    cases hr
    rw [if_pos hsd.1,if_pos hsd.2] at hdec
    cases hdec
    exact (Option.some.inj (Except.ok.inj h)).symm
  | half x short =>
    rw [decodeSd_half hi (sdSource_even hr)] at hdec
    cases hdec
    simp only [Instr.sdSource] at hr
    split_ifs at hr with hsd hsdsp
    · cases hr
      rw [if_pos hsd] at h
      exact (Option.some.inj (Except.ok.inj h)).symm
    · -- `c.sdsp` is not decoded
      rw [if_neg hsd,if_neg fun hld => by rw [hsdsp.2] at hld; exact absurd hld.2 (by decide)] at h
      cases h

theorem sd_length (hi : Holds env m i) (hr : i.sdSource = some r) (hc : deref8 env m m.pc = .ok c) :
    (if c &&& 1 ≠ 0 then 4 else 2 : Word) = Instr.length i := by
  cases i with
  | word w long =>
    obtain rfl := Except.ok.inj (hc.symm.trans (deref8_of_deref32 hi))
    rw [if_pos ((odd_byte w).mpr (field_one_of_long long))]
    rfl
  | half x short =>
    obtain rfl := Except.ok.inj (hc.symm.trans (deref8_of_deref16 hi))
    rw [if_neg fun hodd => by rw [odd_byte,sdSource_even hr] at hodd; exact absurd hodd (by decide)]
    rfl

/-- What the handler emulates in S-mode is a whole instruction of 32 bits. -/
theorem Machine.Decodes.emulated {mid : Machine} (hconf : Free m.map env.confPage (pages confSize))
    (hi : m.Decodes i) (hmode : m.priv.privMode = privS)
    (h : handleIllegal env (mapConf env m) = .ok mid) :
    ∃ w long, i = .word w long ∧ handlePrivInstr (countIll (mapConf env m)) w = .ok mid := by
  rw [handleIllegal,if_pos (by exact hmode)] at h
  obtain ⟨c,hc,h⟩ := bind_ok.mp h
  split_ifs at h with hlong
  obtain ⟨w,hw,h⟩ := bind_ok.mp h
  obtain rfl := Except.ok.inj (hc.symm.trans (deref8_of_deref32 hw))
  have hlow : field 0 2 w = 3 := by
    rw [← low_bits (k:=8) (y:=0b11) 2 (by decide) w rfl,hlong.1]
    rfl
  cases i with
  | half x short =>
    have hx : w.setWidth 16 = x := hi.deref32 hconf hw
    refine absurd ?_ short
    rw [← hx,field_setWidth (by decide)]
    exact hlow
  | word w' long =>
    obtain rfl : w = w' := hi.deref32 hconf hw
    exact ⟨w,long,rfl,h⟩

end Decode

section Buffer

variable {env : Host} {m : Machine} {k : Kind} {a : Word} {o : ℕ}

theorem Machine.Native.withConf (hconf : Free m.map env.confPage (pages confSize))
    (h : m.Native k a o) : (mapConf env m).Native k a o := by
  obtain ⟨hlt,page,off,hp,hrest⟩ := h
  refine ⟨hlt,page,off,?_,hrest⟩
  rw [mapConf_map,mapRange_of_not fun hin => ?_,hp]
  rw [hconf _ hin] at hp
  cases hp

theorem Machine.Native.hostRam (h : m.Native k a o) : Machine.hostRam m a = some o := by
  obtain ⟨-,⟨back,prot⟩,off,hp,hb,-,rfl⟩ := h
  cases hb
  simp only [Machine.hostRam,hp]

theorem Machine.Native.writable (h : m.Native .store a o) : Machine.writable m a = true := by
  obtain ⟨-,page,off,hp,-,hw,-⟩ := h
  simp only [Machine.writable,hp]
  exact hw

theorem Machine.Native.hostByte (h : m.Native .load a o) : Machine.hostByte m env a = some (m.ram o) := by
  have hread : m.readable a = true := by
    obtain ⟨-,page,off,hp,-,hr,-⟩ := h
    simp only [readable,hp]
    exact hr
  rw [hostByte_eq,hread,h.hostRam]
  rfl

end Buffer

section Transfer

variable {b : Boot} {env : Host} {m mid t : Machine} {x : Unemulated σ} {tlb : ℕ → Mapping → Prop}
  {a v : Word} {l : Leaf}

theorem readCount_full {g : ℕ → ℕ} (hconf : Free m.map env.confPage (pages confSize))
    (hin : BlockInside m)
    (hg : ∀ j < 512, m.Native .store (m.priv.urvbBuf+BitVec.ofNat 64 j) (g j)) :
    readCount env (faultMachine env m) = 512 := by
  obtain ⟨hoff,hmsb⟩ := hin.offset
  have hsize : (faultMachine env m).blockOffset.toNat+512 ≤ (faultMachine env m).block.size :=
    le_of_eq_of_le (congrArg (·+512) hoff) hin.inside
  exact (readCount_eq_iff (m:=faultMachine env m) env hmsb hsize).mpr fun j hj =>
    ((hg j hj).withConf hconf).writable

theorem hart_read (h : Shadows b m tlb) (hconf : Free m.map env.confPage (pages confSize))
    (hin : BlockInside m)
    (hbuf : ∀ j < 512, ∃ o, m.Native .store (m.priv.urvbBuf+BitVec.ofNat 64 j) o)
    (ht : blockCommand env (faultMachine env m) urvirtBlockCmdRead = .ok t) :
    (hartOf m x tlb).DeviceStore 1 0x10400000 (hartOf t x tlb) := by
  obtain ⟨hoff,-⟩ := hin.offset
  choose! g hg using hbuf
  rw [blockCommand_read,readCount_full hconf hin hg] at ht
  obtain rfl := storeBytes_scatter ht
  have hram : scatter ((faultMachine env m).place (faultMachine env m).priv.urvbBuf)
        (fun j => (faultMachine env m).block.byte ((faultMachine env m).blockOffset.toNat+j))
        (faultMachine env m).ram 512 =
      scatter (fun j => some (g j)) (fun j => m.block.byte (512*m.priv.urvbBlockId.toNat+j))
        m.ram 512 := by
    have hdata : (fun j => (faultMachine env m).block.byte ((faultMachine env m).blockOffset.toNat+j)) =
        fun j => m.block.byte (512*m.priv.urvbBlockId.toNat+j) :=
      funext fun j => congrArg (fun o => m.block.byte (o+j)) hoff
    rw [hdata]
    exact scatter_congr_place fun j hj => ((hg j hj).withConf hconf).hostRam
  have hread := Hart.DeviceStore.read (h:=hartOf m x tlb) (g:=g) rfl
    (fun j hj => h.cell x _ _ _ (hg j hj)) hin.inside
  refine cast (congrArg ((hartOf m x tlb).DeviceStore 1 0x10400000) ?_) hread
  rw [Hart.mk.injEq]
  exact ⟨rfl,rfl,rfl,rfl,hram.symm,rfl,rfl,rfl,rfl,rfl,rfl,rfl⟩

theorem hart_write (h : Shadows b m tlb) (hconf : Free m.map env.confPage (pages confSize))
    (hin : BlockInside m)
    (hbuf : ∀ j < 512, ∃ o, m.Native .load (m.priv.urvbBuf+BitVec.ofNat 64 j) o)
    (ht : blockCommand env (faultMachine env m) urvirtBlockCmdWrite = .ok t) :
    (hartOf m x tlb).DeviceStore 2 0x10400000 (hartOf t x tlb) := by
  obtain ⟨hoff,hmsb⟩ := hin.offset
  choose! g hg using hbuf
  have hbyte : ∀ j < 512, (faultMachine env m).hostByte env (m.priv.urvbBuf+BitVec.ofNat 64 j) =
      some (m.ram (g j)) := fun j hj => ((hg j hj).withConf hconf).hostByte
  have hcount : writeCount env (faultMachine env m) = 512 :=
    (writeCount_eq_iff env _).mpr fun j hj => Option.isSome_iff_exists.mpr ⟨_,hbyte j hj⟩
  rw [blockCommand_write (m:=faultMachine env m) env hmsb,hcount] at ht
  cases ht
  have hblock : m.block.overwrite (faultMachine env m).blockOffset.toNat 512
        (fun j => ((faultMachine env m).hostByte env (m.priv.urvbBuf+BitVec.ofNat 64 j)).getD 0) =
      { m.block with
        byte := fun i =>
          if 512*m.priv.urvbBlockId.toNat ≤ i ∧ i < 512*m.priv.urvbBlockId.toNat+512 then
            m.ram (g (i-512*m.priv.urvbBlockId.toNat))
          else m.block.byte i } := by
    have hoff' : (faultMachine env m).blockOffset.toNat = 512*m.priv.urvbBlockId.toNat := hoff
    rw [BlockImage.overwrite,hoff',if_neg (by decide),Nat.max_eq_left hin.inside,BlockImage.mk.injEq]
    refine ⟨rfl,funext fun i => ?_⟩
    split_ifs with hi
    · rw [hbyte _ (by omega)]
      rfl
    · rfl
  have hwrite := Hart.DeviceStore.write (h:=hartOf m x tlb) (g:=g) rfl
    (fun j hj => h.cell x _ _ _ (hg j hj)) hin.inside
  refine cast (congrArg ((hartOf m x tlb).DeviceStore 2 0x10400000) ?_) hwrite
  rw [Hart.mk.injEq]
  exact ⟨rfl,rfl,rfl,rfl,rfl,hblock.symm,rfl,rfl,rfl,rfl,rfl,rfl⟩

theorem device_address (h : Shadows b m tlb) (hcan : Canonical 39 a) (he : EntrySound m l.pte)
    (hk : Entry.w l.pte = true) (hw : m.walk a = .leaf l) (hz : l.pte ≠ 0) :
    (hartOf m x tlb).Address .store a l.pa.toNat := by
  have hbare : ¬Hart.Bare m.priv.satp := fun hb => hz ((walk_leaf_bare hw).mpr (bare_iff.mp hb))
  have hsatp := sv39_of_not_bare h.legal.1.1 hbare
  have hk : (leafProt l.pte).allows .store = true := hk
  have hpa : l.pa.toNat = Entry.ppn l.pte*4096+a.toNat%4096 :=
    (congrArg BitVec.toNat (walk_leaf_pa hsatp hw)).trans (toNat_pa a l.pte)
  rw [hpa]
  have ht := h.current hbare a _ (found_of_leaf hsatp hcan hw hk)
  exact .mapped (t:=⟨Entry.ppn l.pte,l.pte⟩) hbare ht (he.grants hk)

theorem Demands.decodes {isa : Isa σ} {y : σ} {k : Kind}
    (h : Demands isa m.Native m.ram y m.regs k a) (hk : k ≠ .fetch) :
    ∃ i p, m.Decodes i ∧ isa y m.regs i (.run p) := by
  cases h with
  | fetch hw => exact absurd (fetch_wants hw).1 hk
  | data hi hisa _ => exact ⟨_,_,hi,hisa⟩

theorem hart_blockCommand {c : BitVec 8} (h : Shadows b m tlb)
    (hconf : Free m.map env.confPage (pages confSize)) (hts : TransferSound env m v)
    (ht : blockCommand env (faultMachine env m) v = .ok t)
    (hc : deref8 env (faultMachine env m) (faultMachine env m).pc = .ok c) :
    (hartOf m x tlb).DeviceStore v 0x10400000 (hartOf t x tlb) ∧ t.pc = m.pc ∧
      ∀ c₁, deref8 env t t.pc = .ok c₁ → (c₁ &&& 1 ≠ 0 ↔ c &&& 1 ≠ 0) := by
  have hpc : t.pc = m.pc := by
    obtain ⟨ram,block,rfl⟩ := blockCommand_ok ht
    rfl
  have hcases : v = urvirtBlockCmdRead ∨ v = urvirtBlockCmdWrite := by
    by_contra hno
    rw [not_or] at hno
    rw [blockCommand,if_neg hno.1,if_neg hno.2] at ht
    cases ht
  rcases hcases with rfl | rfl
  · refine ⟨hart_read h hconf hts.inside (hts.read rfl) ht,hpc,fun c₁ hc₁ => ?_⟩
    exact (keepsLength_iff ht hc hc₁).mp (hts.length rfl)
  · refine ⟨hart_write h hconf hts.inside (hts.write rfl) ht,hpc,fun c₁ hc₁ => ?_⟩
    rw [deref8_write (by decide) ht hc hc₁]

/-- A device store that the handler completes is one of the hart's. -/
theorem hart_device {isa : Isa σ} (h : Shadows b m tlb) (hfree : FreeChoice m.map env (.sigsegv a))
    (hdemand : Demands isa m.Native m.ram x.ext m.regs .store a)
    (hsound : DeviceSound isa env m x.ext a l) (hw : m.walk a = .leaf l) (hz : l.pte ≠ 0)
    (hdev : deviceAccess env (faultMachine env m) scauseStorePf l.pa = .ok mid) :
    Hart.Exec isa (hartOf m x tlb) .device (hartOf mid x tlb) := by
  have hconf := hfree.conf_free
  obtain ⟨i,p,hi,hisa⟩ := hdemand.decodes (by decide)
  obtain ⟨r,hr,hr0⟩ := hsound.source i hi
  rw [deviceAccess,if_pos rfl] at hdev
  obtain ⟨data,hdata,hdev⟩ := bind_ok.mp hdev
  cases data with
  | none => cases hdev
  | some v =>
    obtain ⟨k,hdec,-⟩ := bind_ok.mp hdata
    have hdata' : getStoreData env (mapConf env m) = .ok (some v) := hdata
    have hholds : Holds env (mapConf env m) i := hi.holds hconf hr hdec
    obtain rfl : v = archReg m.regs r :=
      getStoreData_source (m:=mapConf env m) hholds hr hr0 hdata'
    obtain ⟨c,hc⟩ := getStoreData_deref8 hdata
    have hlen := sd_length hholds hr hc
    -- the store to the register comes first, then the pc moves
    have hmoved : ∀ {t : Machine} {pa : ℕ}, skipStore env t = .ok mid → t.pc = m.pc →
        (∀ c₁, deref8 env t t.pc = .ok c₁ → (c₁ &&& 1 ≠ 0 ↔ c &&& 1 ≠ 0)) → l.pa.toNat = pa →
        (hartOf m x tlb).DeviceStore (archReg m.regs r) pa (hartOf t x tlb) →
        Hart.Exec isa (hartOf m x tlb) .device (hartOf mid x tlb) := by
      intro t pa hskip hpc hsame hpa hstore
      obtain ⟨c₁,hc₁,rfl⟩ := skipStore_pc hskip
      have hlen₁ : (if c₁ &&& 1 ≠ 0 then 4 else 2 : Word) = Instr.length i := by
        rw [← hlen]
        simp only [hsame c₁ hc₁]
      rw [hlen₁,hpc]
      exact .device (hi.mono (h.cell x)) hr hisa (hsound.first i p hi hisa)
        (hpa ▸ device_address h hsound.canonical hsound.entry hsound.writable hw hz) hstore
    simp only [deviceStore] at hdev
    split_ifs at hdev with hcmd hid hbuf
    · obtain ⟨t,ht,hskip⟩ := bind_ok.mp hdev
      have hpa : l.pa.toNat = 0x10400000 := congrArg BitVec.toNat hcmd
      obtain ⟨hstore,hpc,hsame⟩ := hart_blockCommand h hconf (hsound.transfer hcmd i r hi hr) ht hc
      exact hmoved hskip hpc hsame hpa hstore
    · have hpa : l.pa.toNat = 0x10400008 := congrArg BitVec.toNat hid
      refine hmoved hdev rfl (fun c₁ hc₁ => ?_) hpa .blockId
      rw [Except.ok.inj (hc₁.symm.trans hc)]
    · have hpa : l.pa.toNat = 0x10400010 := congrArg BitVec.toNat hbuf
      refine hmoved hdev rfl (fun c₁ hc₁ => ?_) hpa .buf
      rw [Except.ok.inj (hc₁.symm.trans hc)]
    · obtain ⟨_,-,hdev⟩ := bind_ok.mp hdev
      cases hdev

end Transfer

end Urvirt
