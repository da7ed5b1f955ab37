import Mathlib.Tactic

/-!
# Programs that access memory

A program is a tree of single reads and writes at virtual addresses. Which cell an
access reaches, if any, is up to a translation, so one program can be run through
different address spaces and compared.
-/

namespace Urvirt
namespace MemoryProgram

variable {κ A C V α : Type}

/-- Accesses of kind `κ` at addresses `A` to cells that hold values `V`. -/
inductive Prog (κ A V α : Type)
  | done (x : α)
  | read (k : κ) (a : A) (next : V → Prog κ A V α)
  | write (k : κ) (a : A) (v : V) (next : Prog κ A V α)

variable [DecidableEq C] {tr tr' : κ → A → C → Prop} {mem mem' : C → V}

/-- Every access is translated, and the program ends with `x`. -/
inductive Finishes (tr : κ → A → C → Prop) : Prog κ A V α → (C → V) → α → (C → V) → Prop
  | done (x : α) (mem) : Finishes tr (.done x) mem x mem
  | read {k a c next mem x mem'} : tr k a c → Finishes tr (next (mem c)) mem x mem' →
      Finishes tr (.read k a next) mem x mem'
  | write {k a c v next mem x mem'} : tr k a c →
      Finishes tr next (Function.update mem c v) x mem' →
      Finishes tr (.write k a v next) mem x mem'

/-- The program comes to an access of kind `k` at `a`, all before it being translated. -/
inductive Wants (tr : κ → A → C → Prop) : Prog κ A V α → (C → V) → κ → A → Prop
  | read (k a next mem) : Wants tr (.read k a next) mem k a
  | write (k a v next mem) : Wants tr (.write k a v next) mem k a
  | afterRead {k a c next mem k' a'} : tr k a c → Wants tr (next (mem c)) mem k' a' →
      Wants tr (.read k a next) mem k' a'
  | afterWrite {k a c v next mem k' a'} : tr k a c →
      Wants tr next (Function.update mem c v) k' a' → Wants tr (.write k a v next) mem k' a'

section Run

variable {p : Prog κ A V α} {x : α} {k : κ} {a : A}

/-- What one translation gives, a translation with more in it gives as well. -/
theorem Finishes.mono (htr : ∀ k a c, tr k a c → tr' k a c) (h : Finishes tr p mem x mem') :
    Finishes tr' p mem x mem' := by
  induction h with
  | done x mem => exact .done x mem
  | read hc _ ih => exact .read (htr _ _ _ hc) ih
  | write hc _ ih => exact .write (htr _ _ _ hc) ih

theorem Wants.mono (htr : ∀ k a c, tr k a c → tr' k a c) (h : Wants tr p mem k a) :
    Wants tr' p mem k a := by
  induction h with
  | read k a next mem => exact .read k a next mem
  | write k a v next mem => exact .write k a v next mem
  | afterRead hc _ ih => exact .afterRead (htr _ _ _ hc) ih
  | afterWrite hc _ ih => exact .afterWrite (htr _ _ _ hc) ih

/-- With one cell for each access a program ends in one way. -/
theorem Finishes.det {y : α} {mem'' : C → V} (htr : ∀ k a c c', tr k a c → tr k a c' → c' = c)
    (h : Finishes tr p mem x mem') (h' : Finishes tr p mem y mem'') : y = x ∧ mem'' = mem' := by
  induction h with
  | done x mem =>
    cases h'
    exact ⟨rfl,rfl⟩
  | read hc _ ih =>
    cases h' with
    | read hc' h' =>
      obtain rfl := htr _ _ _ _ hc hc'
      exact ih h'
  | write hc _ ih =>
    cases h' with
    | write hc' h' =>
      obtain rfl := htr _ _ _ _ hc hc'
      exact ih h'

end Run

end MemoryProgram
end Urvirt
