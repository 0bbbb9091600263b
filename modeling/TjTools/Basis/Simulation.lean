/-
# Forward simulation

A concrete machine and an abstract one, each a step function of its own inputs.  Where
every concrete step from related states is matched by some abstract steps (none, one or
many) that lead to related states again, every concrete run is matched by an abstract
one (`run_simulates`).  The steps considered are those that meet `ok`, and the abstract
steps that match them meet `aok`; so a property that holds after all abstract runs of
`aok` steps, and that related states share, holds always in the concrete runs of `ok`
steps (`always_of_simulates`).
-/

import TjTools.Basis.Runs

namespace TjTools
namespace Runs

variable {σ τ ι κ : Type*} {step : σ → ι → σ} {astep : τ → κ → τ}

/-- Every `ok` step is matched by `aok` steps of the abstract machine. -/
def Simulates (step : σ → ι → σ) (astep : τ → κ → τ) (ok : σ → ι → Prop) (aok : τ → κ → Prop)
    (R : σ → τ → Prop) : Prop :=
  ∀ s t i, R s t → ok s i → ∃ js, Along astep aok t js ∧ R (step s i) (run astep t js)

/-- **Simulation rule.**  A concrete run is matched by an abstract one, step after step. -/
theorem run_simulates {ok : σ → ι → Prop} {aok : τ → κ → Prop} {R : σ → τ → Prop}
    (hsim : Simulates step astep ok aok R) {s : σ} {t : τ} (h : R s t) (is : List ι)
    (hok : Along step ok s is) :
    ∃ js, Along astep aok t js ∧ R (run step s is) (run astep t js) := by
  induction is generalizing s t with
  | nil => exact ⟨[], trivial, h⟩
  | cons i is ih =>
    obtain ⟨js, hjs, hrel⟩ := hsim s t i h hok.1
    obtain ⟨ks, hks, hrel'⟩ := ih hrel hok.2
    refine ⟨js ++ ks, along_append.2 ⟨hjs, hks⟩, ?_⟩
    rw [run_append]
    exact hrel'

/-- What holds after every abstract run holds always in the concrete ones. -/
theorem always_of_simulates {ok : σ → ι → Prop} {aok : τ → κ → Prop} {R : σ → τ → Prop}
    (hsim : Simulates step astep ok aok R) {P : σ → Prop} {Q : τ → Prop}
    (hPQ : ∀ s t, R s t → Q t → P s) {s : σ} {t : τ} (h : R s t) {is : List ι}
    (hok : Along step ok s is) (hQ : ∀ js, Along astep aok t js → Q (run astep t js)) :
    Always step P s is := by
  rintro pre ⟨rest, rfl⟩
  obtain ⟨js, hjs, hrel⟩ := run_simulates hsim h pre (along_append.1 hok).1
  exact hPQ _ _ hrel (hQ js hjs)

end Runs
end TjTools
