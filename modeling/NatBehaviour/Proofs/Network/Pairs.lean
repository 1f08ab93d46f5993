import NatBehaviour.Proofs.Network.Noise

/-!
Programs in pairs, to compare what they do in a network and in a noisier one. Paired programs take the
same actions as long as their answers belong together, and then come to results that belong together.
The rules follow the way in which programs are put together.
-/

namespace NatBehaviour.Network

open NatBehaviour.Probe (Datagram)

namespace Program

variable {α β : Type} {noise : Datagram → Prop} {net net' : Network} {mud : Prop}

/-- Two programs that do the same and come to results that belong together. -/
inductive Paired (noise : Datagram → Prop) (net : Network) (mud : Prop) (R : α → α → Prop) :
    Program α → Program α → Prop
  | done {a a' : α} (h : R a a') : Paired noise net mud R (done a) (done a')
  | act {action : Action} {next next' : action.Answer → Program α}
      (passes : action.PassesOver noise mud)
      (rest : ∀ r r', action.SameAnswer net mud r r' → Paired noise net mud R (next r) (next' r')) :
      Paired noise net mud R (act action next) (act action next')

theorem Paired.pure {R : α → α → Prop} {a a' : α} (h : R a a') :
    Paired noise net mud R (Pure.pure a) (Pure.pure a') := .done h

theorem Paired.perform {action : Action} (passes : action.PassesOver noise mud) :
    Paired noise net mud (action.SameAnswer net mud) (Program.perform action)
      (Program.perform action) :=
  .act passes fun _ _ h => .done h

theorem Paired.bind {R : α → α → Prop} {S : β → β → Prop} {p p' : Program α}
    {f f' : α → Program β} (hp : Paired noise net mud R p p')
    (hf : ∀ a a', R a a' → Paired noise net mud S (f a) (f' a')) :
    Paired noise net mud S (p >>= f) (p' >>= f') := by
  induction hp with
  | done h => exact hf _ _ h
  | act passes _ ih => exact .act passes ih

theorem Paired.mono {R S : α → α → Prop} {p p' : Program α} (hp : Paired noise net mud R p p')
    (h : ∀ a a', R a a' → S a a') : Paired noise net mud S p p' := by
  induction hp with
  | done hr => exact .done (h _ _ hr)
  | act passes _ ih => exact .act passes ih

/-- What paired programs come to in two networks, the second one noisier and in a noisier world. -/
theorem Paired.run {R : α → α → Prop} {p p' : Program α} (hp : Paired noise net mud R p p')
    (hnet : Noisier noise net net') {w w' : World} (hw : w.Noisy noise w') :
    R (p.run net w).1 (p'.run net' w').1 ∧ (p.run net w).2.Noisy noise (p'.run net' w').2 := by
  induction hp generalizing w w' with
  | done h => exact ⟨h, hw⟩
  | act passes _ ih =>
    obtain ⟨hanswer, hw₁⟩ := hw.perform hnet passes
    exact ih _ _ hanswer hw₁

end Program

end NatBehaviour.Network
