import Urvirt.Replay

/-!
# Legal privileged state

The CSR words only ever hold values the emulated hart supports. Everything that
writes them keeps this: CSR instructions through their write masks, trap entry
and `sret` because the values they shift into `sstatus` are single bits.
-/

namespace Urvirt

open Bitfield Transition

/-- The bits of `sstatus` that are always set. -/
def sstatusFixed : Word := maskSstatusSd ||| maskSstatusXs ||| maskSstatusFs

structure Legal (priv : PrivState) : Prop where
  mode : priv.privMode = privU ∨ priv.privMode = privS
  satp_mode : getSatpMode priv.satp = satpModeBare ∨ getSatpMode priv.satp = satpModeSv39
  satp_asid : getSatpAsid priv.satp = 0
  stvec : priv.stvec &&& stvecModeMask = stvecDirect ∨ priv.stvec &&& stvecModeMask = stvecVectored
  sie : priv.sie &&& ~~~sixWritableMask = 0
  sip : priv.sip &&& ~~~sixWritableMask = 0
  sstatus : priv.sstatus &&& ~~~sstatusWritableMask = sstatusFixed

theorem sanitizeStvec_mode (v : Word) :
    sanitizeStvec v &&& stvecModeMask = stvecDirect ∨
      sanitizeStvec v &&& stvecModeMask = stvecVectored := by
  simp only [sanitizeStvec]
  split_ifs with h
  · exact h
  · left
    rw [BitVec.and_assoc]
    have : ~~~stvecModeMask &&& stvecModeMask = 0 := by decide
    rw [this]
    exact BitVec.and_zero

theorem mergeMasked_and {mask old value keep : Word} (h : mask &&& keep = 0)
    (hk : ~~~mask &&& keep = keep) : mergeMasked mask old value &&& keep = old &&& keep :=
  merge_and h hk

theorem getSatpMode_setSatpAsid (v : Word) : getSatpMode (setSatpAsid v 0) = getSatpMode v := by
  have hkeep : setSatpAsid v 0 &&& mask 60 4 = v &&& mask 60 4 := set_and (by decide) (by decide)
  exact get_congr (by decide) hkeep (by decide)

theorem getSatpAsid_setSatpAsid (v : Word) : getSatpAsid (setSatpAsid v 0) = 0 :=
  get_set_zero (by decide) v

theorem setSixSti_and {v f : Word} (hf : IsFlag f) :
    setSixSti v f &&& ~~~sixWritableMask = v &&& ~~~sixWritableMask :=
  set_flag_and (by decide) hf (by decide)

section Status

variable {v f : Word} (hf : IsFlag f)
include hf

theorem setSstatusSie_and :
    setSstatusSie v f &&& ~~~sstatusWritableMask = v &&& ~~~sstatusWritableMask :=
  set_flag_and (by decide) hf (by decide)

theorem setSstatusSpie_and :
    setSstatusSpie v f &&& ~~~sstatusWritableMask = v &&& ~~~sstatusWritableMask :=
  set_flag_and (by decide) hf (by decide)

theorem setSstatusSpp_and :
    setSstatusSpp v f &&& ~~~sstatusWritableMask = v &&& ~~~sstatusWritableMask :=
  set_flag_and (by decide) hf (by decide)

end Status

theorem trapStatus_and (mode sstatus : Word) :
    trapStatus mode sstatus &&& ~~~sstatusWritableMask = sstatus &&& ~~~sstatusWritableMask :=
  (setSstatusSie_and isFlag_zero).trans
    ((setSstatusSpie_and (isFlag_get (by decide) _ _)).trans (setSstatusSpp_and (isFlag_spp mode)))

theorem sretStatus_and (sstatus : Word) :
    sretStatus sstatus &&& ~~~sstatusWritableMask = sstatus &&& ~~~sstatusWritableMask :=
  (setSstatusSpp_and isFlag_zero).trans
    ((setSstatusSpie_and isFlag_one).trans (setSstatusSie_and (isFlag_get (by decide) _ _)))

namespace Legal

theorem initializePriv (priv : PrivState) (timerid : Word) :
    Legal { initializePriv priv with timerid := timerid } := by
  have hmode : getSatpMode 0 = satpModeBare := by decide
  have hasid : getSatpAsid 0 = 0 := by decide
  have hstatus : setSstatusSd (setSstatusXs (setSstatusFs 0 sstatusXsDirty) sstatusXsDirty) 1 &&&
      ~~~sstatusWritableMask = sstatusFixed := by decide
  exact ⟨.inr rfl,.inl hmode,hasid,.inl BitVec.zero_and,BitVec.zero_and,BitVec.zero_and,hstatus⟩

theorem writeCsr {priv priv' : PrivState} {csr : BitVec 32} {value : Word} (h : Legal priv)
    (hw : writeCsr priv csr value = .ok priv') : Legal priv' := by
  cases writeCsr_effect hw with
  | stvec _ => exact { h with stvec := sanitizeStvec_mode value }
  | sstatus _ => exact { h with sstatus := (mergeMasked_and (by decide) (by decide)).trans h.sstatus }
  | sie _ => exact { h with sie := (mergeMasked_and (by decide) (by decide)).trans h.sie }
  | sip _ => exact { h with sip := (mergeMasked_and (by decide) (by decide)).trans h.sip }
  | satp _ hmode =>
    exact { h with
      satp_mode := by rw [getSatpMode_setSatpAsid]; exact hmode.symm
      satp_asid := getSatpAsid_setSatpAsid value }
  | satpIgnored _ _ => exact h
  | _ => exact { h with }

theorem sret {m : Machine} (h : Legal m.priv) : Legal (sret m).priv :=
  { h with
    mode := by
      rw [sret_privMode]
      split_ifs
      · exact .inl rfl
      · exact .inr rfl
    sstatus := (sretStatus_and _).trans h.sstatus }

theorem enterTrap {m : Machine} (h : Legal m.priv) (scause stval : Word) :
    Legal (enterTrap m scause stval).priv :=
  { h with
    mode := .inr rfl
    sstatus := (trapStatus_and _ _).trans h.sstatus }

theorem privEffect {m m' : Machine} {instr : BitVec 32} (h : Legal m.priv)
    (he : PrivEffect m instr m') : Legal m'.priv := by
  cases he with
  | sfenceVma _ _ => exact { h with }
  | wfi _ _ => exact h
  | sret _ _ => exact h.sret
  | csrRead _ _ => exact h
  | csrWrite _ _ _ hw => exact h.writeCsr hw

theorem faultEffect {env : Host} {m m' : Machine} {scause stval : Word} (h : Legal m.priv)
    (he : FaultEffect env m scause stval m') : Legal m'.priv := by
  cases he with
  | noLeaf _ => exact h.enterTrap scause stval
  | denied _ _ _ _ _ => exact h.enterTrap scause stval
  | mapped _ _ _ _ _ => exact h
  | device _ _ _ _ _ hframe =>
    obtain ⟨blockId,buf,ram,block,pc,rfl⟩ := hframe
    exact { h with }

theorem signalEffect {env : Host} {m m' : Machine} {sig : Signal} (h : Legal m.priv)
    (he : SignalEffect env m sig m') : Legal m'.priv := by
  cases he with
  | sbiQuiet _ _ => exact { h with }
  | sbiSetTimer _ _ =>
    have hf : IsFlag (elapsedFlag (m.regs 10) env.time) := isFlag_ite isFlag_one isFlag_zero
    exact { h with sip := (setSixSti_and hf).trans h.sip }
  | uecall _ => exact enterTrap (m:=(countUecall (fixA7 m _)).setPc _) { h with } scauseUecall 0
  | privInstr _ _ _ hp => exact privEffect (m:=countIll m) { h with } hp
  | illegal _ => exact enterTrap (m:=countIll m) { h with } scauseIllegal 0
  | alarm => exact { h with sip := (setSixSti_and isFlag_one).trans h.sip }
  | fault _ hf => exact faultEffect (m:=countSegv m) { h with } hf

theorem takeInterrupt {m : Machine} (h : Legal m.priv) : Legal (takeInterrupt m).priv := by
  simp only [Urvirt.takeInterrupt]
  split_ifs
  · exact h.enterTrap scauseTimer 0
  · exact h

theorem resume {m : Machine} (h : Legal m.priv) (env : Host) :
    Legal (unmapConf env (clearVm m)).priv := by
  rw [resume_priv]
  exact { h with }

end Legal

/-- What holds of the privileged state whenever the guest runs. -/
def GuestLegal (m : Machine) : Prop := Legal m.priv ∧ m.priv.shouldClearVm = false

theorem step_legal {m m' : Machine} {e : Event} (h : GuestLegal m) (hs : Step m e m') :
    GuestLegal m' := by
  cases hs with
  | guest ram regs => exact h
  | signal hfree hh =>
    obtain ⟨mid,-,heff,rfl⟩ := handler_effect hfree hh
    have hmid : Legal mid.priv := Legal.signalEffect (m:=mapConf _ m) h.1 heff
    exact ⟨hmid.takeInterrupt.resume _,by rw [resume_priv]⟩

theorem run_legal {b : BootData} {es : List Event} {m : Machine}
    (h : Run Step (boot b) es m) : GuestLegal m :=
  h.invariant (fun _ _ _ => step_legal) ⟨Legal.initializePriv b.config b.timerid,rfl⟩

theorem sstatus_of_fixed {sstatus : Word} (h : sstatus &&& ~~~sstatusWritableMask = sstatusFixed) :
    getSstatusFs sstatus = 3 ∧ getSstatusXs sstatus = 3 ∧ getSstatusSd sstatus = 1 ∧
    sstatus &&& ~~~(maskSstatusSd ||| maskSstatusXs ||| maskSstatusFs ||| maskSstatusMxr |||
      maskSstatusSum ||| maskSstatusSpp ||| maskSstatusSpie ||| maskSstatusSie) = 0 := by
  have hfix : sstatus &&& ~~~sstatusWritableMask = sstatusFixed &&& ~~~sstatusWritableMask :=
    h.trans (by decide)
  refine ⟨?_,?_,?_,?_⟩
  · exact (get_congr (by decide) hfix (by decide)).trans (by decide : getSstatusFs sstatusFixed = 3)
  · exact (get_congr (by decide) hfix (by decide)).trans (by decide : getSstatusXs sstatusFixed = 3)
  · exact (get_congr (by decide) hfix (by decide)).trans (by decide : getSstatusSd sstatusFixed = 1)
  · have hsplit : ~~~(maskSstatusSd ||| maskSstatusXs ||| maskSstatusFs ||| maskSstatusMxr |||
        maskSstatusSum ||| maskSstatusSpp ||| maskSstatusSpie ||| maskSstatusSie) =
        ~~~sstatusWritableMask &&& ~~~sstatusFixed := by decide
    rw [hsplit,← BitVec.and_assoc,h]
    decide

/-- In every state a run reaches, the privileged state is one the hart supports
and no flush is outstanding. -/
theorem privileged_state_legal {b : BootData} {es : List Event} {m : Machine}
    (h : Run Step (boot b) es m) :
    (m.priv.privMode = privU ∨ m.priv.privMode = privS) ∧
    (getSatpMode m.priv.satp = satpModeBare ∨ getSatpMode m.priv.satp = satpModeSv39) ∧
    getSatpAsid m.priv.satp = 0 ∧
    (m.priv.stvec &&& 0b11 = 0b00 ∨ m.priv.stvec &&& 0b11 = 0b01) ∧
    m.priv.sie &&& ~~~maskSixSti = 0 ∧ m.priv.sip &&& ~~~maskSixSti = 0 ∧
    getSstatusFs m.priv.sstatus = 3 ∧ getSstatusXs m.priv.sstatus = 3 ∧
    getSstatusSd m.priv.sstatus = 1 ∧
    m.priv.sstatus &&& ~~~(maskSstatusSd ||| maskSstatusXs ||| maskSstatusFs ||| maskSstatusMxr |||
      maskSstatusSum ||| maskSstatusSpp ||| maskSstatusSpie ||| maskSstatusSie) = 0 ∧
    m.priv.shouldClearVm = false := by
  obtain ⟨hl,hclear⟩ := run_legal h
  obtain ⟨hfs,hxs,hsd,hrest⟩ := sstatus_of_fixed hl.sstatus
  exact ⟨hl.mode,hl.satp_mode,hl.satp_asid,hl.stvec,hl.sie,hl.sip,hfs,hxs,hsd,hrest,hclear⟩

/-- The small guest in U-mode under Sv39. -/
theorem privileged_state_legal_user : ∃ m,
    Run Step (boot (smallData sv39Kernel)) (sv39Events 0x2008001f) m ∧
    m.priv.privMode = privU ∧ getSatpMode m.priv.satp = satpModeSv39 ∧
    getSatpAsid m.priv.satp = 0 ∧ m.priv.sie &&& ~~~maskSixSti = 0 ∧
    getSstatusFs m.priv.sstatus = 3 ∧ m.priv.shouldClearVm = false := by
  have hreplays : Replays sv39Kernel (sv39Events 0x2008001f) := by decide +kernel
  have hrun := small_run hreplays
  obtain ⟨-,-,hasid,-,hsie,-,hfs,-,-,-,hclear⟩ := privileged_state_legal hrun
  exact ⟨_,hrun,by decide +kernel,by decide +kernel,hasid,hsie,hfs,hclear⟩

end Urvirt
