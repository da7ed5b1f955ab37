import Mathlib.Tactic

/-!
# Runs of labelled transition systems

`Run step s es t` lists the labels of a finite run from `s` to `t`. A property
of single steps is put on a run by restricting its step relation, so "no step
of the run flushes" is a run of the smaller relation. `Run.since` finds the step
that last established a fact which holds at the end of a run.
-/

namespace Urvirt
namespace Transition

variable {σ ε : Type}

inductive Run (step : σ → ε → σ → Prop) : σ → List ε → σ → Prop
  | nil (s) : Run step s [] s
  | cons {s e t es u} : step s e t → Run step t es u → Run step s (e::es) u

namespace Run

variable {step step' : σ → ε → σ → Prop} {s t u : σ} {e : ε} {es fs : List ε}

theorem append (h : Run step s es t) (h' : Run step t fs u) : Run step s (es++fs) u := by
  induction h with
  | nil => exact h'
  | cons hs _ ih => exact .cons hs (ih h')

theorem snoc (h : Run step s es t) (hs : step t e u) : Run step s (es++[e]) u :=
  h.append (.cons hs (.nil u))

/-- A run over two lists of labels passes through a state between them. -/
theorem append_inv (h : Run step s (es++fs) u) : ∃ t, Run step s es t ∧ Run step t fs u := by
  induction es generalizing s with
  | nil => exact ⟨s,.nil s,h⟩
  | cons e es ih =>
    cases h with
    | cons hs hrest =>
      obtain ⟨t,h₁,h₂⟩ := ih hrest
      exact ⟨t,.cons hs h₁,h₂⟩

theorem det (h : Run step s es t) (h' : Run step s es u)
    (hdet : ∀ a e b b', step a e b → step a e b' → b = b') : t = u := by
  induction h with
  | nil => cases h'; rfl
  | cons hs _ ih =>
    cases h' with
    | cons hs' hrest =>
      obtain rfl := hdet _ _ _ _ hs hs'
      exact ih hrest

/-- Two runs over the same labels whose steps agree are one run with both properties. -/
theorem inter {step₁ step₂ : σ → ε → σ → Prop} (h₁ : Run step₁ s es t) (h₂ : Run step₂ s es u)
    (hdet : ∀ a e b b', step₁ a e b → step₂ a e b' → b = b') :
    Run (fun a e b => step₁ a e b ∧ step₂ a e b) s es t := by
  induction h₁ with
  | nil => exact .nil _
  | cons hs _ ih =>
    cases h₂ with
    | cons hs' hrest =>
      obtain rfl := hdet _ _ _ _ hs hs'
      exact .cons ⟨hs,hs'⟩ (ih hrest)

theorem mono (hstep : ∀ a e b, step a e b → step' a e b) (h : Run step s es t) :
    Run step' s es t := by
  induction h with
  | nil => exact .nil _
  | cons hs _ ih => exact .cons (hstep _ _ _ hs) ih

/-- What every step keeps, every run keeps. -/
theorem invariant {I : σ → Prop} (hI : ∀ a e b, I a → step a e b → I b)
    (h : Run step s es t) (hs : I s) : I t := by
  induction h with
  | nil => exact hs
  | cons hstep _ ih => exact ih (hI _ _ _ hs hstep)

theorem strengthen {I : σ → Prop} (hI : ∀ a e b, I a → step a e b → I b)
    (h : Run step s es t) (hs : I s) : Run (fun a e b => step a e b ∧ I a ∧ I b) s es t := by
  induction h with
  | nil => exact .nil _
  | cons hstep _ ih => exact .cons ⟨hstep,hs,hI _ _ _ hs hstep⟩ (ih (hI _ _ _ hs hstep))

/-- A fact at the end of a run held throughout, or some step established it and
it held from then on. -/
theorem since (P : σ → Prop) (h : Run step s es t) (ht : P t) :
    (P s ∧ Run (fun a e b => step a e b ∧ P b) s es t) ∨
    ∃ es₁ e es₂ a b, es = es₁++e::es₂ ∧ Run step s es₁ a ∧ step a e b ∧ ¬P a ∧ P b ∧
      Run (fun a e b => step a e b ∧ P b) b es₂ t := by
  induction h with
  | nil => exact .inl ⟨ht,.nil _⟩
  | @cons s e m es u hs _ ih =>
    rcases ih ht with ⟨hm,hrun⟩ | ⟨es₁,e',es₂,a,b,rfl,hrun,hab,ha,hb,hrest⟩
    · by_cases hP : P s
      · exact .inl ⟨hP,.cons ⟨hs,hm⟩ hrun⟩
      · exact .inr ⟨[],e,es,s,m,rfl,.nil s,hs,hP,hm,hrun⟩
    · exact .inr ⟨e::es₁,e',es₂,a,b,rfl,.cons hs hrun,hab,ha,hb,hrest⟩

/-- A fact that comes to hold during a run has a first step that establishes it. -/
theorem first (P : σ → Prop) (h : Run step s es t) (hs : ¬P s) (ht : P t) :
    ∃ es₁ e es₂ a b, es = es₁++e::es₂ ∧ Run (fun a e b => step a e b ∧ ¬P b) s es₁ a ∧ ¬P a ∧
      step a e b ∧ P b ∧ Run step b es₂ t := by
  induction h with
  | nil => exact absurd ht hs
  | @cons s e m es u hstep hrest ih =>
    by_cases hm : P m
    · exact ⟨[],e,es,s,m,rfl,.nil s,hs,hstep,hm,hrest⟩
    · obtain ⟨es₁,e',es₂,a,b,rfl,hrun,ha,hab,hb,hrest'⟩ := ih hm ht
      exact ⟨e::es₁,e',es₂,a,b,rfl,.cons ⟨hstep,hm⟩ hrun,ha,hab,hb,hrest'⟩

/-- Some kind of event does not occur in a run, or it occurs a last time. -/
theorem last (W : σ → ε → Prop) (h : Run step s es t) :
    Run (fun a e b => step a e b ∧ ¬W a e) s es t ∨
    ∃ es₁ e es₂ a b, es = es₁++e::es₂ ∧ Run step s es₁ a ∧ step a e b ∧ W a e ∧
      Run (fun a e b => step a e b ∧ ¬W a e) b es₂ t := by
  induction h with
  | nil => exact .inl (.nil _)
  | @cons s e m es u hs _ ih =>
    rcases ih with hrun | ⟨es₁,e',es₂,a,b,rfl,hrun,hab,hW,hrest⟩
    · by_cases hW : W s e
      · exact .inr ⟨[],e,es,s,m,rfl,.nil s,hs,hW,hrun⟩
      · exact .inl (.cons ⟨hs,hW⟩ hrun)
    · exact .inr ⟨e::es₁,e',es₂,a,b,rfl,.cons hs hrun,hab,hW,hrest⟩

theorem frame {β : Type} (f : σ → β) (hf : ∀ a e b, step a e b → f b = f a)
    (h : Run step s es t) : f t = f s := by
  induction h with
  | nil => rfl
  | cons hs _ ih => exact ih.trans (hf _ _ _ hs)

end Run

/-- Steps labelled with the state they start from as well. -/
def Visit (step : σ → ε → σ → Prop) (a : σ) (p : σ × ε) (b : σ) : Prop := p.1 = a ∧ step a p.2 b

namespace Run

variable {step : σ → ε → σ → Prop} {s t : σ} {es : List ε} {ps : List (σ × ε)}

theorem visits (h : Run step s es t) : ∃ ps, ps.map Prod.snd = es ∧ Run (Visit step) s ps t := by
  induction h with
  | nil s => exact ⟨[],rfl,.nil s⟩
  | @cons s e m es u hs _ ih =>
    obtain ⟨ps,rfl,hrun⟩ := ih
    exact ⟨(s,e)::ps,rfl,.cons ⟨rfl,hs⟩ hrun⟩

theorem counts {w : ℕ} (f : σ → BitVec w) (W : σ × ε → Bool)
    (hf : ∀ a e b, step a e b → f b = f a+if W (a,e) then 1 else 0)
    (h : Run (Visit step) s ps t) : f t = f s+BitVec.ofNat w (ps.countP W) := by
  induction h with
  | nil => exact (BitVec.add_zero _).symm
  | @cons s p m ps u hs _ ih =>
    obtain ⟨rfl,hs⟩ := hs
    rw [ih,hf _ _ _ hs,List.countP_cons,BitVec.add_assoc]
    split_ifs
    · rw [BitVec.ofNat_add,BitVec.add_comm 1]
      rfl
    · exact congrArg (f p.1+·) (BitVec.zero_add _)

/-- A log has what the steps have put on it, the newest first. -/
theorem logs {β : Type} (f : σ → List β) (out : σ × ε → Option β)
    (hf : ∀ a e b, step a e b → f b = (out (a,e)).toList++f a) (h : Run (Visit step) s ps t) :
    f t = (ps.filterMap out).reverse++f s := by
  induction h with
  | nil => rfl
  | @cons s p m ps u hs _ ih =>
    obtain ⟨rfl,hs⟩ := hs
    rw [ih,hf _ _ _ hs,List.filterMap_cons]
    cases hout : out p with
    | none => rfl
    | some x => simp

end Run

end Transition
end Urvirt
