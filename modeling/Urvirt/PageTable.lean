import Mathlib.Tactic

/-!
# Translation by radix page tables

The address translation of the privileged specification (Sv39, Sv48 and Sv57
differ only in the number of levels). Levels are counted down to 0, each uses nine
bits of the virtual address, and an entry is a leaf when R or X is set. A walk does not
look at the U, A and D bits nor at the reserved bits of an entry.
-/

namespace Urvirt
namespace PageTable

def vpn (va : BitVec 64) (level : ℕ) : ℕ := va.toNat/2^(12+9*level)%2^9

def offset (va : BitVec 64) : ℕ := va.toNat%2^12

/-- The bits above the translated ones repeat the topmost of them. -/
def Canonical (bits : ℕ) (va : BitVec 64) : Prop :=
  ∀ i, i < 64 → bits ≤ i → va.getLsbD i = va.getLsbD (bits-1)

instance (bits : ℕ) (va : BitVec 64) : Decidable (Canonical bits va) :=
  inferInstanceAs (Decidable (∀ i, i < 64 → _))

abbrev Entry := BitVec 64

namespace Entry

def v (e : Entry) : Bool := e.getLsbD 0
def r (e : Entry) : Bool := e.getLsbD 1
def w (e : Entry) : Bool := e.getLsbD 2
def x (e : Entry) : Bool := e.getLsbD 3
def u (e : Entry) : Bool := e.getLsbD 4
def a (e : Entry) : Bool := e.getLsbD 6
def d (e : Entry) : Bool := e.getLsbD 7

def ppn (e : Entry) : ℕ := e.toNat/2^10%2^44

/-- `V` is clear, or `W` is set without `R`. -/
def invalid (e : Entry) : Bool := !e.v || (!e.r && e.w)

def isLeaf (e : Entry) : Bool := e.r || e.x

end Entry

/-- How a walk ends: at a table outside memory, at an invalid entry, at a pointer
where only a leaf may stand, or at a leaf. -/
inductive Outcome
  | outside
  | invalid
  | pointer (e : Entry)
  | leaf (level : ℕ) (e : Entry)
  deriving DecidableEq

/-- What one level does with the entry it loads; `descend` goes on at the next table. -/
def visit (mem : ℕ → Option Entry) (va : BitVec 64) (level table : ℕ)
    (descend : Entry → Outcome) : Outcome :=
  match mem (table+8*vpn va level) with
  | none => .outside
  | some e => if e.invalid then .invalid else if e.isLeaf then .leaf level e else descend e

def walk (mem : ℕ → Option Entry) (va : BitVec 64) : ℕ → ℕ → Outcome
  | 0, table => visit mem va 0 table .pointer
  | level+1, table =>
    visit mem va (level+1) table fun e => walk mem va level (e.ppn*2^12)

def physical (va : BitVec 64) (e : Entry) : ℕ := e.ppn*2^12+offset va

/-- The frame that a leaf gives the page of an address: below the level of the leaf
the page keeps its own part. -/
def frame (va : BitVec 64) (level : ℕ) (e : Entry) : ℕ :=
  e.ppn/2^(9*level)*2^(9*level)+va.toNat/2^12%2^(9*level)

/-- A leaf above the last level has to point to a frame of its size. -/
def Misaligned (level : ℕ) (e : Entry) : Prop := e.ppn%2^(9*level) ≠ 0

instance (level : ℕ) (e : Entry) : Decidable (Misaligned level e) :=
  inferInstanceAs (Decidable (_ ≠ _))

section Entries

variable {mem : ℕ → Option Entry} {va : BitVec 64} {level table i : ℕ} {e : Entry}

theorem visit_leaf {descend : Entry → Outcome} (h : visit mem va level table descend = .leaf i e) :
    (e.invalid = false ∧ e.isLeaf = true ∧ i = level) ∨ ∃ e', descend e' = .leaf i e := by
  simp only [visit] at h
  split at h
  · cases h
  · split_ifs at h with hv hl
    · cases h; exact .inl ⟨by simpa using hv,hl,rfl⟩
    · exact .inr ⟨_,h⟩

theorem walk_leaf (h : walk mem va level table = .leaf i e) :
    e.invalid = false ∧ e.isLeaf = true ∧ i ≤ level := by
  induction level generalizing table with
  | zero =>
    rcases visit_leaf h with ⟨hv,hl,rfl⟩ | ⟨e',h'⟩
    · exact ⟨hv,hl,le_rfl⟩
    · cases h'
  | succ level ih =>
    rcases visit_leaf h with ⟨hv,hl,rfl⟩ | ⟨e',h'⟩
    · exact ⟨hv,hl,le_rfl⟩
    · obtain ⟨hv,hl,hi⟩ := ih h'
      exact ⟨hv,hl,Nat.le_succ_of_le hi⟩

theorem Entry.ne_zero (h : e.invalid = false) : e ≠ 0 := by
  rintro rfl
  simp [Entry.invalid,Entry.v] at h

end Entries

theorem frame_zero (va : BitVec 64) (e : Entry) : frame va 0 e = e.ppn ∧ ¬Misaligned 0 e := by
  simp [frame,Misaligned,Nat.mod_one]

section SamePage

variable {va va' : BitVec 64} (h : va'.toNat/2^12 = va.toNat/2^12)
include h

theorem vpn_samePage (level : ℕ) : vpn va' level = vpn va level := by
  have hsplit : ∀ a : BitVec 64, vpn a level = a.toNat/2^12/2^(9*level)%2^9 := by
    intro a
    rw [vpn,Nat.pow_add,Nat.div_div_eq_div_mul]
  rw [hsplit,hsplit,h]

theorem walk_samePage (mem : ℕ → Option Entry) (level table : ℕ) :
    walk mem va' level table = walk mem va level table := by
  induction level generalizing table with
  | zero => simp only [walk,visit,vpn_samePage h]
  | succ level ih => simp only [walk,visit,vpn_samePage h,ih]

theorem canonical_samePage {bits : ℕ} (hbits : 12 < bits) :
    Canonical bits va' ↔ Canonical bits va := by
  have hbit : ∀ i, 12 ≤ i → va'.getLsbD i = va.getLsbD i := by
    intro i hi
    obtain ⟨k,rfl⟩ := Nat.exists_eq_add_of_le' hi
    rw [← BitVec.testBit_toNat,← BitVec.testBit_toNat,← Nat.testBit_div_two_pow,
      ← Nat.testBit_div_two_pow,h]
  have hall : ∀ i, bits ≤ i → (va'.getLsbD i = va'.getLsbD (bits-1) ↔
      va.getLsbD i = va.getLsbD (bits-1)) := by
    intro i hi
    rw [hbit i (by omega),hbit (bits-1) (by omega)]
  exact forall_congr' fun i => forall_congr' fun _ => forall_congr' fun hi => hall i hi

end SamePage

end PageTable
end Urvirt
