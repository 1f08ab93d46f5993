import NatBehaviour.Json.Reader

/-!
Loops over the input. A loop whose steps take something off the input reaches whatever its steps lead
to: the number of steps that it allows itself is never too small. Conversely, what holds at the last step
of a loop and is handed back from each step to the one before it holds at the first.
-/

namespace NatBehaviour.Json

variable {σ : Type} {step : σ → Bytes → Except Cause (Step σ)}

/-- Some steps, each of which takes something off the input, lead from one state to another. -/
inductive Advances (step : σ → Bytes → Except Cause (Step σ)) : σ → Bytes → σ → Bytes → Prop
  | here (a : σ) (s : Bytes) : Advances step a s a s
  | more {a b c : σ} {s t u : Bytes} (first : step a s = .ok (.more b t))
      (shorter : t.length < s.length) (rest : Advances step b t c u) : Advances step a s c u

theorem Advances.trans {a b c : σ} {s t u : Bytes} (h : Advances step a s b t)
    (h' : Advances step b t c u) : Advances step a s c u := by
  induction h with
  | here => exact h'
  | more first shorter _ ih => exact .more first shorter (ih h')

theorem Advances.one {a b : σ} {s t : Bytes} (h : step a s = .ok (.more b t))
    (hl : t.length < s.length) : Advances step a s b t :=
  .more h hl (.here b t)

theorem Advances.repeatStep {a b c : σ} {s t u : Bytes} (h : Advances step a s b t)
    (hd : step b t = .ok (.done c u)) {fuel : Nat} (hf : s.length < fuel) :
    Json.repeatStep step fuel a s = .ok (c, u) := by
  induction h generalizing fuel with
  | here a s =>
    obtain ⟨fuel, rfl⟩ : ∃ k, fuel = k + 1 := ⟨fuel - 1, by omega⟩
    simp [Json.repeatStep, hd]
  | more first shorter _ ih =>
    obtain ⟨fuel, rfl⟩ : ∃ k, fuel = k + 1 := ⟨fuel - 1, by omega⟩
    simp only [Json.repeatStep, first]
    exact ih hd (by omega)

/-- Where the steps of a loop lead to, the loop ends. -/
theorem Advances.loop {a b c : σ} {s t u : Bytes} (h : Advances step a s b t)
    (hd : step b t = .ok (.done c u)) : Json.loop step a s = .ok (c, u) :=
  h.repeatStep hd (Nat.lt_succ_self _)

/-- What a loop that ends well has done, from its last step back to its first. -/
theorem loop_induction {P : σ → Bytes → σ → Bytes → Prop}
    (hdone : ∀ {a s b t}, step a s = .ok (.done b t) → P a s b t)
    (hmore : ∀ {a s b t c u}, step a s = .ok (.more b t) → P b t c u → P a s c u)
    {a b : σ} {s t : Bytes} (h : loop step a s = .ok (b, t)) : P a s b t := by
  have hsteps (fuel : Nat) {a : σ} {s : Bytes} (h : repeatStep step fuel a s = .ok (b, t)) :
      P a s b t := by
    induction fuel generalizing a s with
    | zero => cases h
    | succ fuel ih =>
      rw [repeatStep] at h
      split at h
      · cases h
      · rename_i hfirst
        exact hmore hfirst (ih h)
      · rename_i hlast
        cases h
        exact hdone hlast
  exact hsteps _ h

end NatBehaviour.Json
