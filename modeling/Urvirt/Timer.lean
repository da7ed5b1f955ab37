import Urvirt.TrapDelivery

/-!
# The timer

The machine next to a clock and the one-shot timer of `timer_create`. Time passes
and the timer expires at any moment, also while the handler of a `set_timer`
call runs; a `SIGALRM` raised then stays pending until the guest runs again, and
re-arming the timer does not withdraw it.
-/

namespace Urvirt

open Bitfield Transition

def Itimerspec.ns (spec : Itimerspec) : ℕ := spec.tvSec.toNat*1000000000+spec.tvNsec.toNat

/-- When a timer set at `now` expires; a zero value disarms it. -/
def Itimerspec.deadline (spec : Itimerspec) (now : ℕ) : Option ℕ :=
  if spec.ns = 0 then none else some (now+spec.ns)

theorem timerSpec_ns (arg0 curTime : Word) :
    (timerSpec arg0 curTime).ns = ((arg0-curTime)*1000).toNat := by
  have hgiga : (1000000000 : Word).toNat = 1000000000 := rfl
  have h := Nat.div_add_mod ((arg0-curTime)*1000).toNat 1000000000
  simp only [Itimerspec.ns,timerSpec]
  simp only [BitVec.toNat_udiv,BitVec.toNat_umod,hgiga]
  omega

theorem timerSpec_ns_mod {arg0 curTime : Word} (h : curTime.toNat < arg0.toNat) :
    (timerSpec arg0 curTime).ns = (arg0.toNat-curTime.toNat)*1000%2^64 := by
  have hmille : (1000 : Word).toNat = 1000 := rfl
  have hsub : (arg0-curTime).toNat = arg0.toNat-curTime.toNat := by
    rw [BitVec.toNat_sub]
    have := arg0.isLt
    omega
  rw [timerSpec_ns,BitVec.toNat_mul,hsub,hmille]

theorem timerSpec_ns_of_lt {arg0 curTime : Word} (h : curTime.toNat < arg0.toNat)
    (hfit : (arg0.toNat-curTime.toNat)*1000 < 2^64) :
    (timerSpec arg0 curTime).ns = (arg0.toNat-curTime.toNat)*1000 := by
  rw [timerSpec_ns_mod h,Nat.mod_eq_of_lt hfit]

/-- What `timer_settime` is to be given for a deadline in the future: the time until
then, or a long time when that does not fit. -/
structure ArmsFor (curTime arg0 : Word) (spec : Itimerspec) : Prop where
  nsec : spec.tvNsec.toNat < 1000000000
  fits : (arg0.toNat-curTime.toNat)*1000 < 2^64 → spec.ns = (arg0.toNat-curTime.toNat)*1000
  saturated : 2^64 ≤ (arg0.toNat-curTime.toNat)*1000 → 2^63 ≤ spec.ns

theorem ArmsFor.ns_pos {curTime arg0 : Word} {spec : Itimerspec} (h : ArmsFor curTime arg0 spec)
    (hlt : curTime.toNat < arg0.toNat) : 0 < spec.ns := by
  rcases Nat.lt_or_ge ((arg0.toNat-curTime.toNat)*1000) (2^64) with hfit | hfar
  · rw [h.fits hfit]
    omega
  · exact Nat.lt_of_lt_of_le (by decide) (h.saturated hfar)

theorem armsFor_timerSpec_iff {arg0 curTime : Word} (h : curTime.toNat < arg0.toNat) :
    ArmsFor curTime arg0 (timerSpec arg0 curTime) ↔
      (arg0.toNat-curTime.toNat)*1000 < 2^64 ∨
        2^63 ≤ (arg0.toNat-curTime.toNat)*1000%2^64 := by
  have hns := timerSpec_ns_mod h
  constructor
  · intro harm
    rcases Nat.lt_or_ge ((arg0.toNat-curTime.toNat)*1000) (2^64) with hfit | hfar
    · exact .inl hfit
    · exact .inr (hns ▸ harm.saturated hfar)
  · intro hcond
    refine ⟨?_,timerSpec_ns_of_lt h,fun hfar => ?_⟩
    · simp only [timerSpec,BitVec.toNat_umod]
      exact Nat.mod_lt _ (by decide)
    · rw [hns]
      exact hcond.resolve_left (Nat.not_lt.mpr hfar)

/-- `set_timer` arms the timer for a deadline in the future and clears STIP, and sets
STIP for one that has passed. -/
def SetsTimer (env : Host) (m : Machine) (arg0 : Word) : Prop :=
  ∃ m' spec, handleLegacySbiCall env m sbiSetTimer arg0 = .ok (m',0) ∧
    m'.settimes = spec :: m.settimes ∧
    (env.time.toNat < arg0.toNat →
      ArmsFor env.time arg0 spec ∧ 0 < spec.ns ∧ getSixSti m'.priv.sip = 0) ∧
    (arg0.toNat ≤ env.time.toNat → getSixSti m'.priv.sip = 1)

theorem handleLegacySbiCall_setTimer (env : Host) (m : Machine) (arg0 : Word) :
    handleLegacySbiCall env m sbiSetTimer arg0 = .ok ({ m with
      settimes := timerSpec arg0 env.time :: m.settimes
      priv := { m.priv with sip := setSixSti m.priv.sip (elapsedFlag arg0 env.time) } },0) := rfl

/-- The duration is right exactly when its nanoseconds fit a word or happen to wrap
to a long time. -/
theorem set_timer_arms_iff (env : Host) (m : Machine) (arg0 : Word) :
    SetsTimer env m arg0 ↔ arg0.toNat ≤ env.time.toNat ∨
      (arg0.toNat-env.time.toNat)*1000 < 2^64 ∨
      2^63 ≤ (arg0.toNat-env.time.toNat)*1000%2^64 := by
  have hsti : getSixSti (setSixSti m.priv.sip (elapsedFlag arg0 env.time)) =
      if arg0.toNat ≤ env.time.toNat then 1 else 0 :=
    get_set_same (by decide) _ (isFlag_ite isFlag_one isFlag_zero)
  constructor
  · rintro ⟨m',spec,hcall,hspec,harm,-⟩
    rw [handleLegacySbiCall_setTimer] at hcall
    cases hcall
    obtain ⟨rfl,-⟩ := List.cons.inj hspec
    rcases Nat.lt_or_ge env.time.toNat arg0.toNat with hlt | hle
    · exact .inr ((armsFor_timerSpec_iff hlt).mp (harm hlt).1)
    · exact .inl hle
  · intro hcond
    refine ⟨_,_,handleLegacySbiCall_setTimer env m arg0,rfl,fun hlt => ?_,fun hle => ?_⟩
    · have harm := (armsFor_timerSpec_iff hlt).mpr (hcond.resolve_left (Nat.not_le.mpr hlt))
      exact ⟨harm,harm.ns_pos hlt,hsti.trans (if_neg (Nat.not_le.mpr hlt))⟩
    · exact hsti.trans (if_pos hle)

/-- A deadline in 2^61 ticks disarms the timer, and one in 18446744073709552 ticks
is armed for 384 nanoseconds. -/
theorem far_deadline_wraps :
    (timerSpec 0x2000000000000000 0).ns = 0 ∧ (timerSpec 18446744073709552 0).ns = 384 ∧
    ¬SetsTimer smallHost (boot (smallData [])) 0x2000000000000000 ∧
    ¬SetsTimer smallHost (boot (smallData [])) 18446744073709552 := by
  refine ⟨by decide,by decide,fun h => ?_,fun h => ?_⟩
  · obtain ⟨m',spec,hcall,hspec,harm,-⟩ := h
    cases hcall
    obtain ⟨rfl,-⟩ := List.cons.inj hspec
    exact absurd (harm (by decide)).2.1 (by decide)
  · obtain ⟨m',spec,hcall,hspec,harm,-⟩ := h
    cases hcall
    obtain ⟨rfl,-⟩ := List.cons.inj hspec
    exact absurd ((harm (by decide)).1.saturated (by decide)) (by decide)

/-- `now` is in nanoseconds, of which 1000 make a tick of the `time` CSR; `armed` is
the deadline of the timer, `reading` what a running `set_timer` handler read from
`time`, and `lastSet` (ghost) the `stime_value` of the latest `set_timer` call. -/
structure Timed where
  machine : Machine
  now : ℕ
  armed : Option ℕ
  pending : Bool
  reading : Option Word
  lastSet : Option Word

def Timed.time (s : Timed) : Word := BitVec.ofNat 64 (s.now/1000)

inductive TimedEvent
  | tick (now : ℕ)
  | expire
  | enter
  | settime (env : Host) (siSyscall : BitVec 32)
  | alarm (env : Host)
  | other (e : Event)

def IsSetTimer (m : Machine) : Event → Prop
  | .signal _ (.sigsys siSyscall) =>
    m.priv.privMode = privS ∧ siSyscall.signExtend 64 = sbiSetTimer
  | _ => False

def IsAlarm : Event → Prop
  | .signal _ (.sigalrm _) => True
  | _ => False

/-- One step of the clocked machine. A `set_timer` handler reads `time` when it is
entered and calls `timer_settime` later. The `time` CSR does not overflow, the
nanoseconds of a deadline fit a word, and the guest does not write `sip`. -/
inductive TimedStep : Timed → TimedEvent → Timed → Prop
  | tick {s : Timed} {now : ℕ} : s.now ≤ now → now/1000 < 2^64 →
      TimedStep s (.tick now) { s with now := now }
  | expire {s : Timed} {d : ℕ} : s.armed = some d → d ≤ s.now →
      TimedStep s .expire { s with armed := none, pending := true }
  | enter {s : Timed} : s.reading = none →
      TimedStep s .enter { s with reading := some s.time }
  | settime {s : Timed} {t : Word} {env : Host} {siSyscall : BitVec 32} {m' : Machine}
      {spec : Itimerspec} : s.reading = some t → env.time = t →
      IsSetTimer s.machine (.signal env (.sigsys siSyscall)) →
      ((s.machine.regs 10).toNat-t.toNat)*1000 < 2^64 →
      Step s.machine (.signal env (.sigsys siSyscall)) m' →
      m'.settimes = spec :: s.machine.settimes →
      TimedStep s (.settime env siSyscall)
        { s with
          machine := m'
          armed := spec.deadline s.now
          reading := none
          lastSet := some (s.machine.regs 10) }
  | alarm {s : Timed} {env : Host} {m' : Machine} : s.reading = none → s.pending = true →
      Step s.machine (.signal env (.sigalrm siTimer)) m' →
      TimedStep s (.alarm env) { s with machine := m', pending := false }
  | other {s : Timed} {e : Event} {m' : Machine} : s.reading = none → ¬IsSetTimer s.machine e →
      ¬IsAlarm e → ¬WritesCsr csrSip s.machine e → Step s.machine e m' →
      TimedStep s (.other e) { s with machine := m' }

def timedBoot (b : BootData) (now : ℕ) : Timed := ⟨boot b,now,none,false,none,none⟩

theorem takeInterrupt_sip (m : Machine) : (takeInterrupt m).priv.sip = m.priv.sip := by
  simp only [takeInterrupt]
  split_ifs <;> rfl

theorem resume_sip (env : Host) (m : Machine) :
    (unmapConf env (clearVm (takeInterrupt m))).priv.sip = m.priv.sip := by
  rw [resume_priv]
  exact takeInterrupt_sip m

theorem resume_settimes (env : Host) (m : Machine) :
    (unmapConf env (clearVm (takeInterrupt m))).settimes = m.settimes := by
  simp only [unmapConf,clearVm,takeInterrupt]
  split_ifs <;> rfl

theorem PrivEffect.sip {m m' : Machine} {instr : BitVec 32} (h : PrivEffect m instr m')
    (hno : ¬(insFunct3 instr ≠ funct3NotCsr ∧ insCsr instr = csrSip ∧ csrWrites m.regs instr)) :
    m'.priv.sip = m.priv.sip := by
  cases h with
  | csrWrite hf3 hwr _ hw =>
    cases writeCsr_effect hw with
    | sip hn => exact absurd ⟨hf3,hn,hwr⟩ hno
    | _ => rfl
  | _ => rfl

theorem step_sip {m m' : Machine} {e : Event} (hset : ¬IsSetTimer m e) (halarm : ¬IsAlarm e)
    (hcsr : ¬WritesCsr csrSip m e) (hs : Step m e m') : m'.priv.sip = m.priv.sip := by
  cases hs with
  | guest ram regs => rfl
  | @signal _ env sig hfree hh =>
    obtain ⟨mid,-,heff,rfl⟩ := handler_effect hfree hh
    refine (resume_sip env mid).trans ?_
    cases heff with
    | sbiQuiet _ _ => rfl
    | sbiSetTimer hs heq => exact absurd ⟨hs,heq⟩ hset
    | uecall _ => rfl
    | @privInstr instr _ hs hi _ hp => exact hp.sip fun h => hcsr ⟨hs,instr,hi,h⟩
    | illegal _ => rfl
    | alarm => exact absurd trivial halarm
    | fault _ hf =>
      cases hf with
      | device _ _ _ _ _ hframe =>
        obtain ⟨blockId,buf,ram,block,pc,rfl⟩ := hframe
        rfl
      | _ => rfl

theorem step_setTimer {m m' : Machine} {env : Host} {siSyscall : BitVec 32}
    (hset : IsSetTimer m (.signal env (.sigsys siSyscall)))
    (hs : Step m (.signal env (.sigsys siSyscall)) m') :
    m'.priv.sip = setSixSti m.priv.sip (elapsedFlag (m.regs 10) env.time) ∧
      m'.settimes = timerSpec (m.regs 10) env.time :: m.settimes := by
  cases hs with
  | signal hfree hh =>
    obtain ⟨mid,-,heff,rfl⟩ := handler_effect hfree hh
    rw [resume_sip,resume_settimes]
    cases heff with
    | sbiQuiet _ hne => exact absurd hset.2 hne
    | sbiSetTimer _ _ => exact ⟨rfl,rfl⟩
    | uecall hu => exact absurd hset.1 hu

theorem step_alarm {m m' : Machine} {env : Host}
    (hs : Step m (.signal env (.sigalrm siTimer)) m') :
    getSixSti m'.priv.sip = 1 := by
  cases hs with
  | signal hfree hh =>
    obtain ⟨mid,-,heff,rfl⟩ := handler_effect hfree hh
    rw [resume_sip]
    cases heff with
    | alarm => exact get_set_same (by decide) _ isFlag_one

/-- A set `sip.STIP` means that the latest deadline has passed. -/
def Truthful (s : Timed) : Prop :=
  getSixSti s.machine.priv.sip ≠ 0 → ∃ v, s.lastSet = some v ∧ v ≤ s.time

/-- A `SIGALRM` that is pending when the timer is set is not one of a deadline
before the new one. -/
def PromptStep (s : Timed) (e : TimedEvent) (s' : Timed) : Prop :=
  TimedStep s e s' ∧ ∀ env siSyscall, e = .settime env siSyscall → s.pending = true →
    s.machine.regs 10 ≤ s.time

def Elapsed (lastSet : Option Word) (ns : ℕ) : Prop := ∃ v, lastSet = some v ∧ v.toNat ≤ ns/1000

theorem Elapsed.mono {lastSet : Option Word} {ns ns' : ℕ} (h : Elapsed lastSet ns)
    (hle : ns ≤ ns') : Elapsed lastSet ns' := by
  obtain ⟨v,hv,hns⟩ := h
  exact ⟨v,hv,Nat.le_trans hns (Nat.div_le_div_right hle)⟩

/-- Whatever sets `sip.STIP` sooner or later can only do so after the latest deadline. -/
structure TimerInv (s : Timed) : Prop where
  clock : s.now/1000 < 2^64
  stip : getSixSti s.machine.priv.sip ≠ 0 → Elapsed s.lastSet s.now
  pending : s.pending = true → Elapsed s.lastSet s.now
  armed : ∀ d, s.armed = some d → Elapsed s.lastSet d
  reading : ∀ t, s.reading = some t → t.toNat ≤ s.now/1000

theorem Timed.time_toNat {s : Timed} (h : s.now/1000 < 2^64) : s.time.toNat = s.now/1000 := by
  rw [Timed.time,BitVec.toNat_ofNat,Nat.mod_eq_of_lt h]

namespace TimerInv

variable {s s' : Timed} {e : TimedEvent}

theorem truthful (h : TimerInv s) : Truthful s := by
  intro hstip
  obtain ⟨v,hv,hle⟩ := h.stip hstip
  exact ⟨v,hv,by rw [BitVec.le_def,Timed.time_toNat h.clock]; exact hle⟩

theorem boot (b : BootData) {now : ℕ} (h : now/1000 < 2^64) : TimerInv (timedBoot b now) where
  clock := h
  stip := by
    have hsip : getSixSti 0 = 0 := by decide
    exact fun hne => absurd hsip hne
  pending := by rintro ⟨⟩
  armed := by rintro d ⟨⟩
  reading := by rintro t ⟨⟩

/-- The deadline just set lies behind whatever the new timer waits for. -/
theorem elapsed_deadline {arg0 t : Word} {now d : ℕ} (ht : t.toNat ≤ now/1000)
    (hfit : (arg0.toNat-t.toNat)*1000 < 2^64)
    (hd : (timerSpec arg0 t).deadline now = some d) : Elapsed (some arg0) d := by
  refine ⟨arg0,rfl,?_⟩
  simp only [Itimerspec.deadline] at hd
  split_ifs at hd
  cases hd
  by_cases hlt : t.toNat < arg0.toNat
  · rw [timerSpec_ns_of_lt hlt hfit]
    omega
  · omega

theorem settime {t : Word} {env : Host} {siSyscall : BitVec 32} {m' : Machine} {spec : Itimerspec}
    (h : TimerInv s) (hread : s.reading = some t) (henv : env.time = t)
    (hset : IsSetTimer s.machine (.signal env (.sigsys siSyscall)))
    (hfit : ((s.machine.regs 10).toNat-t.toNat)*1000 < 2^64)
    (hs : Step s.machine (.signal env (.sigsys siSyscall)) m')
    (hspec : m'.settimes = spec :: s.machine.settimes)
    (hprompt : s.pending = true → s.machine.regs 10 ≤ s.time) :
    TimerInv { s with
      machine := m'
      armed := spec.deadline s.now
      reading := none
      lastSet := some (s.machine.regs 10) } := by
  obtain ⟨hsip,hlog⟩ := step_setTimer hset hs
  rw [henv] at hsip hlog
  have ht := h.reading t hread
  have hspec' : spec = timerSpec (s.machine.regs 10) t := (List.cons.inj (hspec.symm.trans hlog)).1
  have hflag : getSixSti m'.priv.sip = elapsedFlag (s.machine.regs 10) t := by
    rw [hsip]
    exact get_set_same (by decide) _ (isFlag_ite isFlag_one isFlag_zero)
  refine ⟨h.clock,fun hne => ?_,fun hp => ?_,fun d hd => ?_,by rintro t ⟨⟩⟩
  · have hle : s.machine.regs 10 ≤ t := by
      by_contra hn
      exact hne (hflag.trans (if_neg hn))
    exact ⟨_,rfl,Nat.le_trans (BitVec.le_def.mp hle) ht⟩
  · have hle := BitVec.le_def.mp (hprompt hp)
    rw [Timed.time_toNat h.clock] at hle
    exact ⟨_,rfl,hle⟩
  · exact elapsed_deadline ht hfit (hspec' ▸ hd)

theorem step (h : TimerInv s) (hs : PromptStep s e s') : TimerInv s' := by
  obtain ⟨hs,hprompt⟩ := hs
  cases hs with
  | tick hle hclock =>
    exact ⟨hclock,fun hne => (h.stip hne).mono hle,fun hp => (h.pending hp).mono hle,h.armed,
      fun t ht => Nat.le_trans (h.reading t ht) (Nat.div_le_div_right hle)⟩
  | expire harmed hle =>
    exact ⟨h.clock,h.stip,fun _ => (h.armed _ harmed).mono hle,by rintro d ⟨⟩,h.reading⟩
  | enter _ =>
    refine ⟨h.clock,h.stip,h.pending,h.armed,?_⟩
    rintro t ⟨⟩
    exact Nat.le_of_eq (Timed.time_toNat h.clock)
  | settime hread henv hset hfit hm hspec =>
    exact h.settime hread henv hset hfit hm hspec (hprompt _ _ rfl)
  | alarm _ hp _ =>
    exact ⟨h.clock,fun _ => h.pending hp,by rintro ⟨⟩,h.armed,h.reading⟩
  | other _ hset halarm hcsr hm =>
    have hsip := step_sip hset halarm hcsr hm
    exact ⟨h.clock,fun hne => h.stip (hsip ▸ hne),h.pending,h.armed,h.reading⟩

end TimerInv

/-- In every run in which no `SIGALRM` of an earlier deadline is pending when the
timer is set, `sip.STIP` is truthful throughout; and where one is pending, its
delivery makes the timer just set appear elapsed. -/
theorem stip_truthful (b : BootData) :
    (∀ now es s, now/1000 < 2^64 → Run PromptStep (timedBoot b now) es s → Truthful s) ∧
    (∀ s env siSyscall s₁ env' s₂, TimedStep s (.settime env siSyscall) s₁ → s.pending = true →
      s.time < s.machine.regs 10 → TimedStep s₁ (.alarm env') s₂ → ¬Truthful s₂) := by
  refine ⟨fun now es s hnow h => ?_,fun s env siSyscall s₁ env' s₂ h₁ _ hlt h₂ htrue => ?_⟩
  · have hinv := h.invariant (I:=TimerInv) (fun _ _ _ hi hs => hi.step hs) (TimerInv.boot b hnow)
    exact hinv.truthful
  · cases h₁
    cases h₂ with
    | alarm _ _ hm =>
      have hstip := step_alarm hm
      obtain ⟨v,hv,hle⟩ := htrue (by rw [hstip]; decide)
      cases hv
      exact absurd hle (BitVec.not_le.mpr hlt)

/-- Two calls: the timer is set to tick 10 and, when that is about to come, to 1000. -/
def setTimerKernel : List (BitVec 32) := [0x00000073,0x00000073]

def setTimerRegs (pc a0 : Word) : Regs := Function.update (smallRegs pc 0 0) 10 a0

def hostAt (time : Word) : Host := { smallHost with time := time }

def setTimerEvent : ℕ → Event
  | 0 => .guest (boot (smallData setTimerKernel)).ram (setTimerRegs (kernelStart+4) 10)
  | 1 => .signal (hostAt 0) (.sigsys 0)
  | 2 => .guest (boot (smallData setTimerKernel)).ram (setTimerRegs (kernelStart+8) 1000)
  | 3 => .signal (hostAt 9) (.sigsys 0)
  | _ => .signal smallHost (.sigalrm siTimer)

def setTimerMachine (n : ℕ) : Machine := smallAfter setTimerKernel (stages [] setTimerEvent n)

theorem setTimer_step {n : ℕ} (hn : n < 5) :
    Step (setTimerMachine n) (setTimerEvent n) (setTimerMachine (n+1)) := by
  have hall : Replays setTimerKernel (stages [] setTimerEvent 5) := by decide +kernel
  exact hall.stages_step hn

theorem setTimer_settime {n now : ℕ} {t arg0 : Word} {spec : Itimerspec}
    {armed armed' : Option ℕ} {pending : Bool} {lastSet : Option Word} (hn : n < 5)
    (he : setTimerEvent n = .signal (hostAt t) (.sigsys 0))
    (hmode : (setTimerMachine n).priv.privMode = privS) (harg : (setTimerMachine n).regs 10 = arg0)
    (hfit : (arg0.toNat-t.toNat)*1000 < 2^64)
    (hspec : (setTimerMachine (n+1)).settimes = spec :: (setTimerMachine n).settimes)
    (hd : spec.deadline now = armed') :
    TimedStep ⟨setTimerMachine n,now,armed,pending,some t,lastSet⟩ (.settime (hostAt t) 0)
      ⟨setTimerMachine (n+1),now,armed',pending,none,some arg0⟩ := by
  subst harg hd
  have hs := setTimer_step hn
  rw [he] at hs
  exact .settime rfl rfl ⟨hmode,by decide⟩ hfit hs hspec

theorem first_setTimer : Run PromptStep (timedBoot (smallData setTimerKernel) 0)
    [.other (setTimerEvent 0),.enter,.settime (hostAt 0) 0]
    ⟨setTimerMachine 2,0,some 10000,false,none,some 10⟩ := by
  have hguest : TimedStep (timedBoot (smallData setTimerKernel) 0) (.other (setTimerEvent 0))
      ⟨setTimerMachine 1,0,none,false,none,none⟩ :=
    .other rfl id id id (setTimer_step (n:=0) (by decide))
  have henter : TimedStep ⟨setTimerMachine 1,0,none,false,none,none⟩ .enter
      ⟨setTimerMachine 1,0,none,false,some 0,none⟩ := .enter rfl
  have hspec : (setTimerMachine 2).settimes = ⟨0,10000⟩ :: (setTimerMachine 1).settimes := by
    decide +kernel
  have hset : TimedStep ⟨setTimerMachine 1,0,none,false,some 0,none⟩ (.settime (hostAt 0) 0)
      ⟨setTimerMachine 2,0,some 10000,false,none,some 10⟩ :=
    setTimer_settime (n:=1) (by decide) rfl (by decide +kernel) (by decide +kernel) (by decide) hspec
      (by decide)
  exact .cons ⟨hguest,by rintro env n ⟨⟩⟩ (.cons ⟨henter,by rintro env n ⟨⟩⟩
    (.cons ⟨hset,by rintro env n _ ⟨⟩⟩ (.nil _)))

def alarmMachine : Machine :=
  smallAfter setTimerKernel (stages [] setTimerEvent 2++[.signal smallHost (.sigalrm siTimer)])

theorem first_alarm : Run PromptStep ⟨setTimerMachine 2,0,some 10000,false,none,some 10⟩
    [.tick 10000,.expire,.alarm smallHost] ⟨alarmMachine,10000,none,false,none,some 10⟩ := by
  have hreplays : Replays setTimerKernel
      (stages [] setTimerEvent 2++[.signal smallHost (.sigalrm siTimer)]) := by decide +kernel
  have halarm : TimedStep ⟨setTimerMachine 2,10000,none,true,none,some 10⟩ (.alarm smallHost)
      ⟨alarmMachine,10000,none,false,none,some 10⟩ := .alarm rfl rfl (small_step hreplays)
  exact .cons ⟨.tick (by decide) (by decide),by rintro env n ⟨⟩⟩
    (.cons ⟨.expire rfl (by decide),by rintro env n ⟨⟩⟩ (.cons ⟨halarm,by rintro env n ⟨⟩⟩ (.nil _)))

/-- The second `set_timer` handler reads tick 9; before it re-arms the timer, tick
10 comes and the first deadline expires. -/
theorem second_setTimer : Run TimedStep ⟨setTimerMachine 2,0,some 10000,false,none,some 10⟩
    [.other (setTimerEvent 2),.tick 9500,.enter,.tick 10000,.expire]
    ⟨setTimerMachine 3,10000,none,true,some 9,some 10⟩ := by
  have hguest : TimedStep ⟨setTimerMachine 2,0,some 10000,false,none,some 10⟩
      (.other (setTimerEvent 2)) ⟨setTimerMachine 3,0,some 10000,false,none,some 10⟩ :=
    .other rfl id id id (setTimer_step (n:=2) (by decide))
  have henter : TimedStep ⟨setTimerMachine 3,9500,some 10000,false,none,some 10⟩ .enter
      ⟨setTimerMachine 3,9500,some 10000,false,some 9,some 10⟩ := .enter rfl
  exact .cons hguest (.cons (.tick (by decide) (by decide)) (.cons henter
    (.cons (.tick (by decide) (by decide)) (.cons (.expire rfl (by decide)) (.nil _)))))

theorem second_settime : TimedStep ⟨setTimerMachine 3,10000,none,true,some 9,some 10⟩
    (.settime (hostAt 9) 0) ⟨setTimerMachine 4,10000,some 1001000,true,none,some 1000⟩ := by
  have hspec : (setTimerMachine 4).settimes = ⟨0,991000⟩ :: (setTimerMachine 3).settimes := by
    decide +kernel
  exact setTimer_settime (n:=3) (by decide) rfl (by decide +kernel) (by decide +kernel) (by decide)
    hspec (by decide)

theorem stale_alarm : TimedStep ⟨setTimerMachine 4,10000,some 1001000,true,none,some 1000⟩
    (.alarm smallHost) ⟨setTimerMachine 5,10000,some 1001000,false,none,some 1000⟩ :=
  .alarm rfl rfl (setTimer_step (n:=4) (by decide))

/-- The delivery of the first deadline, and the stale alarm of one that is
re-programmed at the last moment. -/
theorem stip_truthful_first :
    (∃ es s, Run PromptStep (timedBoot (smallData setTimerKernel) 0) es s ∧
      s.lastSet = some 10 ∧ getSixSti s.machine.priv.sip = 1 ∧ Truthful s) ∧
    ¬Truthful ⟨setTimerMachine 5,10000,some 1001000,false,none,some 1000⟩ := by
  have hrun := first_setTimer.append first_alarm
  have hstip : getSixSti alarmMachine.priv.sip = 1 := by decide +kernel
  exact ⟨⟨_,_,hrun,rfl,hstip,(stip_truthful _).1 0 _ _ (by decide) hrun⟩,
    (stip_truthful (smallData setTimerKernel)).2 _ _ _ _ _ _ second_settime rfl (by decide +kernel)
      stale_alarm⟩

/-- At tick 10 the timer for tick 1000 appears elapsed. -/
theorem stale_alarm_sets_stip : ∃ es s, Run TimedStep (timedBoot (smallData setTimerKernel) 0) es s ∧
    s.lastSet = some 1000 ∧ s.time = 10 ∧ getSixSti s.machine.priv.sip = 1 ∧ ¬Truthful s := by
  have hfirst := first_setTimer.mono fun _ _ _ h => h.1
  have hrun := ((hfirst.append second_setTimer).snoc second_settime).snoc stale_alarm
  have hstip : getSixSti (setTimerMachine 5).priv.sip = 1 := by decide +kernel
  refine ⟨_,_,hrun,rfl,by decide,hstip,fun h => ?_⟩
  obtain ⟨v,hv,hle⟩ := h (by rw [hstip]; decide)
  cases hv
  exact absurd hle (by decide)

end Urvirt
