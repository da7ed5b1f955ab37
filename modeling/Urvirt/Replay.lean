import Urvirt.HostMap

/-!
# Replaying events

A run in which Linux puts the temporary mappings at the same two places each
time can be computed from its events. The places stay free as long as no page
fault lands in them.
-/

namespace Urvirt

open AddressSpace Transition

def replay : List Event → Machine → Except Halt Machine
  | [], m => .ok m
  | .guest ram regs :: es, m => replay es { m with ram := ram, regs := regs }
  | .signal env sig :: es, m => do
    let m ← handler env sig m
    replay es m

theorem replay_append (es fs : List Event) (m : Machine) :
    replay (es++fs) m = (replay es m >>= replay fs) := by
  induction es generalizing m with
  | nil => rfl
  | cons e es ih =>
    cases e with
    | guest ram regs => exact ih _
    | signal env sig =>
      change (handler env sig m >>= fun m => replay (es++fs) m) =
        (handler env sig m >>= replay es) >>= replay fs
      rw [bind_assoc]
      exact congrArg (handler env sig m >>= ·) (funext ih)

/-- Two disjoint places in user space for the config page and the window on RAM. -/
structure Places where
  conf : ℕ
  ram : ℕ
  conf_lt : conf+pages confSize ≤ taskPages
  ram_lt : ram+pages ramSize ≤ taskPages
  disjoint : ¬InRange ram (pages ramSize) conf

namespace Places

variable (pl : Places)

structure FreeIn (map : HostMap) : Prop where
  conf : Free map pl.conf (pages confSize)
  ram : Free map pl.ram (pages ramSize)

def Avoids (p : ℕ) : Prop :=
  ¬InRange pl.conf (pages confSize) p ∧ ¬InRange pl.ram (pages ramSize) p

instance (p : ℕ) : Decidable (pl.Avoids p) := inferInstanceAs (Decidable (_ ∧ _))

/-- The event uses the places, and does not fault in them. -/
def UsedBy : Event → Prop
  | .guest _ _ => True
  | .signal env (.sigsegv a) => (env.confPage = pl.conf ∧ env.ramPage = pl.ram) ∧ pl.Avoids (pageOf a)
  | .signal env _ => env.confPage = pl.conf ∧ env.ramPage = pl.ram

instance : DecidablePred pl.UsedBy
  | .guest _ _ => inferInstanceAs (Decidable True)
  | .signal _ (.sigsegv _) => inferInstanceAs (Decidable (_ ∧ _))
  | .signal _ (.sigsys _) => inferInstanceAs (Decidable (_ ∧ _))
  | .signal _ .sigill => inferInstanceAs (Decidable (_ ∧ _))
  | .signal _ (.sigalrm _) => inferInstanceAs (Decidable (_ ∧ _))

variable {pl}

theorem UsedBy.pages {env : Host} {sig : Signal} (h : pl.UsedBy (.signal env sig)) :
    env.confPage = pl.conf ∧ env.ramPage = pl.ram := by
  cases sig with
  | sigsegv a => exact h.1
  | _ => exact h

theorem FreeIn.freeChoice {map : HostMap} {env : Host} {sig : Signal} (h : pl.FreeIn map)
    (hu : pl.UsedBy (.signal env sig)) : FreeChoice map env sig := by
  obtain ⟨hc,hr⟩ := hu.pages
  refine ⟨?_,fun a _ => ?_,fun a _ => ?_⟩
  · rw [hc]; exact h.conf
  · rw [hr]; exact h.ram
  · rw [hc,hr]; exact pl.disjoint

end Places

theorem StubKept.step_free {b : Boot} {m m' : Machine} {e : Event} {first count : ℕ}
    (hk : StubKept b m) (hs : Step m e m') (hlt : first+count ≤ taskPages)
    (hfree : Free m.map first count)
    (hout : ∀ env a, e = .signal env (.sigsegv a) → ¬InRange first count (pageOf a)) :
    Free m'.map first count := by
  intro p hp
  rcases hk.map_cases hs with ⟨-,hmap⟩ | ⟨-,-,hmap | ⟨env,a,l,rfl,hi⟩⟩
  · rw [hmap p (Nat.lt_of_lt_of_le hp.2 hlt),hfree p hp,ite_self]
  · rw [hmap,hfree p hp]
  · have hne : p ≠ pageOf a := by
      rintro rfl
      exact hout env a rfl hp
    rw [hi.eq,Function.update_of_ne hne,hfree p hp]

theorem Places.FreeIn.step {pl : Places} {b : Boot} {m m' : Machine} {e : Event}
    (h : pl.FreeIn m.map) (hk : StubKept b m) (hu : pl.UsedBy e) (hs : Step m e m') :
    pl.FreeIn m'.map := by
  have hout : ∀ env a, e = .signal env (.sigsegv a) → pl.Avoids (pageOf a) := by
    rintro env a rfl
    exact hu.2
  exact ⟨hk.step_free hs pl.conf_lt h.conf fun env a he => (hout env a he).1,
    hk.step_free hs pl.ram_lt h.ram fun env a he => (hout env a he).2⟩

/-- What replays is a run, and it can go on. -/
theorem run_of_replay {pl : Places} {b : Boot} {es : List Event} {m m' : Machine}
    (hk : StubKept b m) (hfree : pl.FreeIn m.map) (hu : ∀ e ∈ es, pl.UsedBy e)
    (h : replay es m = .ok m') : Run Step m es m' ∧ StubKept b m' ∧ pl.FreeIn m'.map := by
  induction es generalizing m with
  | nil => cases h; exact ⟨.nil _,hk,hfree⟩
  | cons e es ih =>
    have hu₀ : pl.UsedBy e := hu e (List.mem_cons_self ..)
    have hrest : ∀ e ∈ es, pl.UsedBy e := fun e he => hu e (List.mem_cons_of_mem _ he)
    cases e with
    | guest ram regs =>
      have hs := Step.guest m ram regs
      obtain ⟨hrun,hend⟩ := ih (hk.step hs) (hfree.step hk hu₀ hs) hrest h
      exact ⟨.cons hs hrun,hend⟩
    | signal env sig =>
      obtain ⟨m₁,h₁,h⟩ := bind_ok.mp h
      have hs := Step.signal (hfree.freeChoice hu₀) h₁
      obtain ⟨hrun,hend⟩ := ih (hk.step hs) (hfree.step hk hu₀ hs) hrest h
      exact ⟨.cons hs hrun,hend⟩

def codeByte (code : List (BitVec 32)) (i : ℕ) : BitVec 8 :=
  ((code.getD (i/4) 0) >>> (8*(i%4))).setWidth 8

def smallData (code : List (BitVec 32)) : BootData where
  stubStart := 0x10000
  stubSize := 0x4000
  kernelSize := 64
  timerid := 0
  kernel := codeByte code
  block := ⟨0,fun _ => 0⟩
  regs := fun _ => 0
  map := fun p => if InRange 16 4 p then some ⟨.stub,protRx⟩ else none
  conf₁ := 0x1000
  conf₂ := 0x1000
  conf₃ := 0x1000
  kernelPage := 0x2000

theorem free_one {α : Type} {m : Space α} {p : ℕ} (h : m p = none) : Free m p 1 := by
  intro q hq
  have : q = p := by simp only [InRange] at hq; omega
  rw [this,h]

theorem smallData_inStub {code : List (BitVec 32)} {p : ℕ} (h : InStub (smallData code).config p) :
    p < 21 := by
  have hend : pageOf 0x10000+pages (0x4000+sigstackSize) = 21 := by decide
  exact Nat.lt_of_lt_of_eq h.2 hend

def smallBoot (code : List (BitVec 32)) : Boot where
  toBootData := smallData code
  start_aligned := (by decide : (0x10000 : Word).toNat%4096 = 0)
  size_aligned := (by decide : (0x4000 : Word).toNat%4096 = 0)
  below := (by decide : (0x10000 : Word).toNat+(0x4000 : Word).toNat+4096 ≤ 2^38)
  stub_mapped := by
    have hr : pageOf 0x10000 = 16 ∧ pages 0x4000 = 4 := by decide
    intro p hp
    refine if_pos (c:=InRange 16 4 p) ?_
    rw [← hr.1,← hr.2]
    exact hp
  not_ram := by
    intro p hp hr
    have h₁ := smallData_inStub hp
    have h₂ : 0x80000 ≤ p := hr.1
    omega
  conf₁_free := free_one rfl
  conf₂_free := free_one rfl
  conf₃_free := by
    have hnone : (smallData []).mapSigstack 0x1000 = none := by decide +kernel
    exact free_one hnone
  conf₃_not_ram := (by decide : ¬InRamWindow 0x1000)
  kernel_free := by
    have hnone : (smallData []).mapRam 0x2000 = none := by decide +kernel
    have hone : pages 64 = 1 := by decide
    exact hone ▸ free_one hnone
  kernel_fits := (by decide : kernelStart.toNat+(64 : Word).toNat ≤ (ramStart+ramSize).toNat)

def smallPlaces : Places where
  conf := 0x1000
  ram := 0x100000
  conf_lt := by decide
  ram_lt := by decide
  disjoint := by decide

theorem smallPlaces_free (code : List (BitVec 32)) :
    smallPlaces.FreeIn (boot (smallBoot code).toBootData).map := by
  have hstart : ∀ p < taskPages, ¬InRamWindow p → ¬InStub (smallBoot code).config p →
      (boot (smallBoot code).toBootData).map p = none := by
    intro p hp hram hstub
    refine ((smallBoot code).mapStart_apply hp).trans ?_
    rw [if_neg hram,if_neg hstub]
  constructor
  · have hstub : ¬InStub (smallBoot code).config 0x1000 := by
      intro hs
      have : 0x1000 < 21 := smallData_inStub hs
      omega
    exact free_one (hstart 0x1000 (by decide) (by decide) hstub)
  · intro p hp
    have hlow : 0x100000 ≤ p := hp.1
    have hhigh : p < 0x101000 := hp.2
    apply hstart p (Nat.lt_trans hhigh (by decide))
    · intro hr
      have : p < 0x81000 := hr.2
      omega
    · intro hs
      have : p < 21 := smallData_inStub hs
      omega

def smallHost : Host where
  confPage := 0x1000
  ramPage := 0x100000
  time := 0
  read := .wouldBlock
  own := fun _ => 0
  strayStore := none
  shortCount := 0

/-- The events replay on the small guest. -/
def Replays (code : List (BitVec 32)) (es : List Event) : Prop :=
  (∀ e ∈ es, smallPlaces.UsedBy e) ∧ (replay es (boot (smallData code))).isOk = true

instance (code : List (BitVec 32)) (es : List Event) : Decidable (Replays code es) :=
  inferInstanceAs (Decidable (_ ∧ _))

def smallAfter (code : List (BitVec 32)) (es : List Event) : Machine :=
  (replay es (boot (smallData code))).toOption.getD (boot (smallData code))

theorem smallAfter_eq {code : List (BitVec 32)} {es : List Event}
    (h : (replay es (boot (smallData code))).isOk = true) :
    replay es (boot (smallData code)) = .ok (smallAfter code es) := by
  simp only [smallAfter]
  cases hr : replay es (boot (smallData code)) with
  | error why => rw [hr] at h; cases h
  | ok m => rfl

theorem Replays.left {code : List (BitVec 32)} {es fs : List Event} (h : Replays code (es++fs)) :
    Replays code es := by
  refine ⟨fun e he => h.1 e (List.mem_append_left fs he),?_⟩
  have hall := smallAfter_eq h.2
  rw [replay_append] at hall
  obtain ⟨m,hes,-⟩ := bind_ok.mp hall
  rw [hes]
  rfl

theorem small_run {code : List (BitVec 32)} {es : List Event} (h : Replays code es) :
    Run Step (boot (smallData code)) es (smallAfter code es) :=
  (run_of_replay (StubKept.boot (smallBoot code)) (smallPlaces_free code) h.1 (smallAfter_eq h.2)).1

theorem small_free {code : List (BitVec 32)} {es : List Event} (h : Replays code es) :
    smallPlaces.FreeIn (smallAfter code es).map :=
  (run_of_replay (StubKept.boot (smallBoot code)) (smallPlaces_free code) h.1 (smallAfter_eq h.2)).2.2

theorem small_run_from {code : List (BitVec 32)} {es fs : List Event} (h : Replays code (es++fs)) :
    Run Step (smallAfter code es) fs (smallAfter code (es++fs)) := by
  have hall := smallAfter_eq h.2
  rw [replay_append] at hall
  obtain ⟨m,hes,hfs⟩ := bind_ok.mp hall
  have hm : smallAfter code es = m := by rw [smallAfter,hes]; rfl
  obtain ⟨-,hk,hfree⟩ := run_of_replay (StubKept.boot (smallBoot code)) (smallPlaces_free code)
    (fun e he => h.1 e (List.mem_append_left fs he)) hes
  rw [hm]
  exact (run_of_replay hk hfree (fun e he => h.1 e (List.mem_append_right es he)) hfs).1

theorem small_step {code : List (BitVec 32)} {es : List Event} {e : Event}
    (h : Replays code (es++[e])) : Step (smallAfter code es) e (smallAfter code (es++[e])) := by
  cases small_run_from h with
  | cons hs hnil => cases hnil; exact hs

theorem small_signal {code : List (BitVec 32)} {es : List Event} {env : Host} {sig : Signal}
    (h : Replays code (es++[.signal env sig])) : handler env sig (smallAfter code es) =
      .ok (smallAfter code (es++[.signal env sig])) := by
  cases small_step h with
  | signal _ hh => exact hh

theorem small_guest_regs {code : List (BitVec 32)} {es : List Event} {ram : Ram} {regs : Regs}
    (h : Replays code (es++[.guest ram regs])) :
    (smallAfter code (es++[.guest ram regs])).regs = regs := by
  have hs := small_step h
  generalize smallAfter code (es++[.guest ram regs]) = m at hs
  cases hs
  rfl

def stages (start : List Event) (event : ℕ → Event) : ℕ → List Event
  | 0 => start
  | n+1 => stages start event n++[event n]

theorem Replays.stages_le {code : List (BitVec 32)} {start : List Event} {event : ℕ → Event}
    {n k : ℕ} (h : Replays code (stages start event k)) (hn : n ≤ k) :
    Replays code (stages start event n) := by
  induction hn with
  | refl => exact h
  | step _ ih => exact ih h.left

theorem Replays.stages_step {code : List (BitVec 32)} {start : List Event} {event : ℕ → Event}
    {n k : ℕ} (h : Replays code (stages start event k)) (hn : n < k) :
    Step (smallAfter code (stages start event n)) (event n)
      (smallAfter code (stages start event (n+1))) :=
  small_step (h.stages_le hn)

/-- Why an operation on the small guest stops, if it does. -/
def haltOf {α : Type} : Except Halt α → Option Halt
  | .ok _ => none
  | .error why => some why

theorem error_of_haltOf {α : Type} {r : Except Halt α} {why : Halt} (h : haltOf r = some why) :
    r = .error why := by
  cases r with
  | ok a => cases h
  | error e => cases h; rfl

theorem ok_of_isOk {α : Type} {r : Except Halt α} (h : r.isOk = true) : ∃ a, r = .ok a := by
  cases r with
  | error e => cases h
  | ok a => exact ⟨a,rfl⟩

def poke (off : ℕ) (v : Word) (ram : Ram) : Ram := fun i =>
  if InRange off 8 i then (v >>> (8*(i-off))).setWidth 8 else ram i

def smallRegs (pc t0 t1 : Word) : Regs := fun i =>
  if i = 0 then pc else if i = 5 then t0 else if i = 6 then t1 else 0

/-- `csrw sepc, t1; csrw satp, t0; sret`, and for traps `csrw sepc, t1;
csrw sstatus, t0; sret`. -/
def sv39Kernel : List (BitVec 32) :=
  [0x14131073,0x18029073,0x10200073,0x14131073,0x10029073,0x10200073]

/-- Tables at the start of RAM that map the kernel's page with the given leaf. -/
def sv39Tables (leaf : Word) (ram : Ram) : Ram :=
  poke 0x10 0x20000401 (poke 0x1008 0x20000801 (poke 0x2000 leaf ram))

def sv39Start (leaf : Word) : List Event :=
  [.guest (sv39Tables leaf (boot (smallData sv39Kernel)).ram)
      (smallRegs kernelStart 0x8000000000080000 kernelStart),
    .signal smallHost .sigill,
    .signal smallHost .sigill]

/-- Its page is faulted in and it returns to U-mode. -/
def sv39Setup (leaf : Word) : List Event :=
  sv39Start leaf++[.signal smallHost (.sigsegv (kernelStart+8))]++[.signal smallHost .sigill]

/-- The kernel's page is faulted in again in U-mode. -/
def sv39Events (leaf : Word) : List Event :=
  sv39Setup leaf++[.signal smallHost (.sigsegv kernelStart)]

end Urvirt
