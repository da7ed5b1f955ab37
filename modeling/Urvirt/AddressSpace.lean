import Mathlib.Tactic

/-!
# Page-granular address spaces

An address space assigns to each page number what is mapped there. Ranges are
given by their first page and their number of pages.
-/

namespace Urvirt
namespace AddressSpace

variable {α : Type}

abbrev Space (α : Type) := ℕ → Option α

def InRange (first count p : ℕ) : Prop := first ≤ p ∧ p < first+count

instance (first count p : ℕ) : Decidable (InRange first count p) :=
  inferInstanceAs (Decidable (_ ∧ _))

/-- Map a range, replacing what was there; `page` sees the index in the range. -/
def mapRange (m : Space α) (first count : ℕ) (page : ℕ → α) : Space α :=
  fun p => if InRange first count p then some (page (p-first)) else m p

def unmapRange (m : Space α) (first count : ℕ) : Space α :=
  fun p => if InRange first count p then none else m p

def Free (m : Space α) (first count : ℕ) : Prop := ∀ p, InRange first count p → m p = none

def mapNew (m : Space α) (p : ℕ) (page : α) : Option (Space α) :=
  if m p = none then some (Function.update m p (some page)) else none

theorem mapRange_of_not {m : Space α} {first count p : ℕ} {page : ℕ → α}
    (h : ¬InRange first count p) : mapRange m first count page p = m p := if_neg h

theorem unmapRange_of_not {m : Space α} {first count p : ℕ}
    (h : ¬InRange first count p) : unmapRange m first count p = m p := if_neg h

theorem unmapRange_of_mem {m : Space α} {first count p : ℕ}
    (h : InRange first count p) : unmapRange m first count p = none := if_pos h

/-- A temporary mapping of a free range leaves no trace. -/
theorem unmapRange_mapRange {m : Space α} {first count : ℕ} {page : ℕ → α}
    (h : Free m first count) : unmapRange (mapRange m first count page) first count = m := by
  funext p
  by_cases hp : InRange first count p
  · rw [unmapRange_of_mem hp,h p hp]
  · rw [unmapRange_of_not hp,mapRange_of_not hp]

theorem unmapRange_unmapRange_mapRange {m : Space α} {first count first' count' : ℕ}
    {page : ℕ → α} (h : Free m first count) :
    unmapRange (unmapRange (mapRange m first count page) first' count') first count =
      unmapRange m first' count' := by
  funext p
  by_cases hp : InRange first count p
  · rw [unmapRange_of_mem hp]
    by_cases hq : InRange first' count' p
    · rw [unmapRange_of_mem hq]
    · rw [unmapRange_of_not hq,h p hp]
  · rw [unmapRange_of_not hp]
    by_cases hq : InRange first' count' p
    · rw [unmapRange_of_mem hq,unmapRange_of_mem hq]
    · rw [unmapRange_of_not hq,unmapRange_of_not hq,mapRange_of_not hp]

theorem unmapRange_update_mapRange {m : Space α} {first count p : ℕ} {page : ℕ → α} {x : Option α}
    (h : Free m first count) (hp : ¬InRange first count p) :
    unmapRange (Function.update (mapRange m first count page) p x) first count =
      Function.update m p x := by
  funext q
  by_cases hq : InRange first count q
  · have hne : q ≠ p := by rintro rfl; exact hp hq
    rw [unmapRange_of_mem hq,Function.update_of_ne hne,h q hq]
  · rw [unmapRange_of_not hq]
    by_cases hqp : q = p
    · subst hqp; simp
    · rw [Function.update_of_ne hqp,Function.update_of_ne hqp,mapRange_of_not hq]

theorem Free.update {m : Space α} {first count p : ℕ} {x : Option α} (h : Free m first count)
    (hp : ¬InRange first count p) : Free (Function.update m p x) first count := by
  intro q hq
  have hne : q ≠ p := by
    rintro rfl
    exact hp hq
  rw [Function.update_of_ne hne,h q hq]

def unmapped (m : Space α) (S : Finset ℕ) : ℕ := (S.filter fun p => (m p).isNone).card

theorem unmapped_le (m : Space α) (S : Finset ℕ) : unmapped m S ≤ S.card :=
  Finset.card_filter_le _ _

theorem unmapped_update {m : Space α} {S : Finset ℕ} {p : ℕ} {page : α} (hp : p ∈ S)
    (hfree : m p = none) : unmapped (Function.update m p (some page)) S < unmapped m S := by
  apply Finset.card_lt_card
  rw [Finset.ssubset_iff_of_subset]
  · refine ⟨p,?_,?_⟩
    · rw [Finset.mem_filter,hfree]
      exact ⟨hp,rfl⟩
    · rw [Finset.mem_filter,Function.update_self]
      exact fun h => absurd h.2 Bool.false_ne_true
  · intro q hq
    rw [Finset.mem_filter] at hq ⊢
    refine ⟨hq.1,?_⟩
    have hne : q ≠ p := by
      rintro rfl
      rw [Function.update_self] at hq
      exact absurd hq.2 Bool.false_ne_true
    rw [Function.update_of_ne hne] at hq
    exact hq.2

end AddressSpace
end Urvirt
