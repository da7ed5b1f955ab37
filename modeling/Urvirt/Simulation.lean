import Urvirt.Transition

/-!
# Simulation of transition systems

A step of the implementation is matched by a run of the specification. A step that
nothing matches has to lower a rank, so an implementation that goes on for ever keeps
the specification going.
-/

namespace Urvirt
namespace Transition

variable {σ τ ε φ : Type}

/-- `Shows e fs` says what the specification may be seen to do at an event. -/
structure Simulation (step : σ → ε → σ → Prop) (spec : τ → φ → τ → Prop)
    (Shows : ε → List φ → Prop) where
  Related : σ → τ → Prop
  rank : σ → ℕ
  matched : ∀ {s e s' a}, Related s a → step s e s' →
    ∃ fs a', Shows e fs ∧ Run spec a fs a' ∧ Related s' a' ∧ (fs = [] → rank s' < rank s)

namespace Simulation

variable {step : σ → ε → σ → Prop} {spec : τ → φ → τ → Prop} {Shows : ε → List φ → Prop}
  (sim : Simulation step spec Shows) {s t : σ} {a : τ} {es : List ε}

/-- A run of the implementation is a run of the specification, event by event, and
between two steps of the specification it takes at most as many as the rank allows. -/
theorem run_bounded {bound : ℕ} (hrank : ∀ s, sim.rank s ≤ bound) (h : Run step s es t)
    (hR : sim.Related s a) : ∃ fss b, List.Forall₂ Shows es fss ∧ Run spec a fss.flatten b ∧
      sim.Related t b ∧ es.length ≤ sim.rank s+(bound+1)*fss.flatten.length := by
  induction h generalizing a with
  | nil => exact ⟨[],a,.nil,.nil a,hR,Nat.zero_le _⟩
  | @cons s e s' es t hs _ ih =>
    obtain ⟨fs,a',hshow,hrun,hR',hlower⟩ := sim.matched hR hs
    obtain ⟨fss,b,hshows,hrest,hb,hlen⟩ := ih hR'
    refine ⟨fs::fss,b,.cons hshow hshows,hrun.append hrest,hb,?_⟩
    rw [List.length_cons,List.flatten_cons,List.length_append]
    cases fs with
    | nil =>
      have := hlower rfl
      simp only [List.length_nil,Nat.zero_add]
      omega
    | cons f fs =>
      have hle := hrank s'
      rw [List.length_cons,Nat.mul_add,Nat.mul_add,Nat.mul_one]
      omega

end Simulation

end Transition
end Urvirt
