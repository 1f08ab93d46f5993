import NatBehaviour.Network.World

/-!
Runs of programs, taken apart. `Runs` relates a program to what it does in a world, action by action,
and to its result; every program has exactly one run in a world. `Returns` forgets the world: it allows
any answers at all, so that what holds of every result a program can return holds in every network.
`Answered` allows any answers as well and keeps the actions together with them.
-/

namespace NatBehaviour.Network

/-- One action of a run: the world in which it is taken, and its answer. -/
structure Moment where
  world : World
  action : Action
  answer : action.Answer

/-- One action and an answer to it. -/
structure Turn where
  action : Action
  answer : action.Answer

def Moment.turn (m : Moment) : Turn := ⟨m.action, m.answer⟩

/-- Whether an action waits for a reply. -/
def Action.waits : Action → Bool
  | .await _ _ _ => true
  | _ => false

namespace Program

variable {α β : Type} {net : Network}

/-! ## What a program can return -/

/-- Some answers lead a program to a result. -/
inductive Returns : Program α → α → Prop
  | done (a : α) : Returns (done a) a
  | act {action : Action} {next : action.Answer → Program α} {a : α} (answer : action.Answer)
      (rest : Returns (next answer) a) : Returns (act action next) a

theorem Returns.pure {a b : α} (h : Returns (Pure.pure a) b) : b = a := by
  cases h with
  | done => rfl

theorem Returns.bind {p : Program α} {f : α → Program β} {b : β} (h : Returns (p >>= f) b) :
    ∃ a, p.Returns a ∧ (f a).Returns b := by
  induction p with
  | done a => exact ⟨a, .done a, h⟩
  | act action next ih =>
    cases h with
    | act answer rest =>
      obtain ⟨a, ha, hb⟩ := ih answer rest
      exact ⟨a, .act answer ha, hb⟩

/-! ## What a program does, whatever the answers -/

/-- The actions of a program in order, with answers that may be any at all, and the result that they lead
to. -/
inductive Answered : Program α → List Turn → α → Prop
  | done (a : α) : Answered (done a) [] a
  | act {action : Action} {next : action.Answer → Program α} {ts : List Turn} {a : α}
      (answer : action.Answer) (rest : Answered (next answer) ts a) :
      Answered (act action next) (⟨action, answer⟩ :: ts) a

theorem Answered.pure {a b : α} {ts : List Turn} (h : Answered (Pure.pure a) ts b) :
    ts = [] ∧ b = a := by
  cases h with
  | done => exact ⟨rfl, rfl⟩

theorem Answered.perform {action : Action} {answer : action.Answer} {ts : List Turn}
    (h : Answered (Program.perform action) ts answer) : ts = [⟨action, answer⟩] := by
  cases h with
  | act answer rest =>
    cases rest with
    | done => rfl

/-- An action alone, with any answer. -/
theorem Answered.single (action : Action) (answer : action.Answer) :
    Answered (Program.perform action) [⟨action, answer⟩] answer := .act answer (.done answer)

theorem Answered.bind {p : Program α} {f : α → Program β} {ts : List Turn} {b : β}
    (h : Answered (p >>= f) ts b) :
    ∃ ts₁ ts₂ a, ts = ts₁ ++ ts₂ ∧ p.Answered ts₁ a ∧ (f a).Answered ts₂ b := by
  induction p generalizing ts with
  | done a => exact ⟨[], ts, a, rfl, .done a, h⟩
  | act action next ih =>
    cases h with
    | act answer rest =>
      obtain ⟨ts₁, ts₂, a, rfl, ha, hb⟩ := ih answer rest
      exact ⟨_ :: ts₁, ts₂, a, rfl, .act answer ha, hb⟩

theorem Answered.append {p : Program α} {f : α → Program β} {ts ts' : List Turn} {a : α} {b : β}
    (h : p.Answered ts a) (h' : (f a).Answered ts' b) : Answered (p >>= f) (ts ++ ts') b := by
  induction h with
  | done a => exact h'
  | act answer _ ih => exact .act answer (ih h')

theorem Answered.returns {p : Program α} {ts : List Turn} {a : α} (h : p.Answered ts a) :
    p.Returns a := by
  induction h with
  | done a => exact .done a
  | act answer _ ih => exact .act answer ih

/-! ## What a program does in a world -/

/-- A run of a program, with its actions in order. -/
inductive Runs (net : Network) : Program α → World → List Moment → α → World → Prop
  | done (a : α) (w : World) : Runs net (done a) w [] a w
  | act {action : Action} {next : action.Answer → Program α} {w w' : World} {h : List Moment} {a : α}
      (rest : Runs net (next (w.perform net action).1) (w.perform net action).2 h a w') :
      Runs net (act action next) w (⟨w, action, (w.perform net action).1⟩ :: h) a w'

/-- What a program does in a world. -/
def history (net : Network) : Program α → World → List Moment
  | done _, _ => []
  | act action next, w =>
    let (answer, w') := w.perform net action
    ⟨w, action, answer⟩ :: (next answer).history net w'

theorem runs_history (p : Program α) (w : World) :
    p.Runs net w (p.history net w) (p.run net w).1 (p.run net w).2 := by
  induction p generalizing w with
  | done a => exact .done a w
  | act action next ih => exact .act (ih _ _)

theorem exists_runs (p : Program α) (w : World) : ∃ h a w', p.Runs net w h a w' :=
  ⟨_, _, _, p.runs_history w⟩

theorem Runs.run {p : Program α} {w w' : World} {h : List Moment} {a : α}
    (hr : p.Runs net w h a w') : p.run net w = (a, w') := by
  induction hr with
  | done => rfl
  | act _ ih => exact ih

/-- A program has a run that ends as the program does. -/
theorem runs_of_run {p : Program α} {w w' : World} {a : α} (h : p.run net w = (a, w')) :
    ∃ ms, p.Runs net w ms a w' := by
  have hr : p.Runs net w _ _ _ := p.runs_history w
  rw [h] at hr
  exact ⟨_, hr⟩

/-- In a world the answers are those of the world. -/
theorem Runs.answered {p : Program α} {w w' : World} {h : List Moment} {a : α}
    (hr : p.Runs net w h a w') : p.Answered (h.map Moment.turn) a := by
  induction hr with
  | done a => exact .done a
  | act _ ih => exact .act _ ih

theorem Runs.returns {p : Program α} {w w' : World} {h : List Moment} {a : α}
    (hr : p.Runs net w h a w') : p.Returns a :=
  hr.answered.returns

theorem Runs.pure {a b : α} {w w' : World} {h : List Moment}
    (hr : Runs net (Pure.pure a) w h b w') : h = [] ∧ b = a ∧ w' = w := by
  cases hr with
  | done => exact ⟨rfl, rfl, rfl⟩

theorem Runs.perform {action : Action} {answer : action.Answer} {w w' : World} {h : List Moment}
    (hr : Runs net (Program.perform action) w h answer w') :
    h = [⟨w, action, answer⟩] ∧ w.perform net action = (answer, w') := by
  cases hr with
  | act rest =>
    cases rest with
    | done => exact ⟨rfl, rfl⟩

/-- The run of two programs, one after the other. -/
theorem Runs.bind {p : Program α} {f : α → Program β} {w w'' : World} {h : List Moment} {b : β}
    (hr : Runs net (p >>= f) w h b w'') :
    ∃ h₁ h₂ a w', h = h₁ ++ h₂ ∧ p.Runs net w h₁ a w' ∧ (f a).Runs net w' h₂ b w'' := by
  induction p generalizing w h with
  | done a => exact ⟨[], h, a, w, rfl, .done a w, hr⟩
  | act action next ih =>
    cases hr with
    | act rest =>
      obtain ⟨h₁, h₂, a, w', hh, hp, hf⟩ := ih _ rest
      exact ⟨_ :: h₁, h₂, a, w', by rw [hh, List.cons_append], .act hp, hf⟩

theorem run_bind (p : Program α) (f : α → Program β) (w : World) :
    (p >>= f).run net w = (f (p.run net w).1).run net (p.run net w).2 := by
  induction p generalizing w with
  | done a => rfl
  | act action next ih => exact ih _ _

/-- The run of a program that goes on with something done to its result. -/
theorem Runs.bind_pure {p : Program α} {f : α → β} {w w' : World} {h : List Moment} {b : β}
    (hr : Runs net (p >>= fun a => Pure.pure (f a)) w h b w') :
    ∃ a, p.Runs net w h a w' ∧ b = f a := by
  obtain ⟨h₁, h₂, a, w₁, rfl, hp, rest⟩ := hr.bind
  obtain ⟨rfl, rfl, rfl⟩ := rest.pure
  exact ⟨a, by rwa [List.append_nil], rfl⟩

theorem Runs.bind_ite {p : Program α} {q : α → Bool} {f g : α → β} {w w' : World}
    {h : List Moment} {b : β}
    (hr : Runs net (p >>= fun a => if q a then Pure.pure (f a) else Pure.pure (g a)) w h b w') :
    ∃ a, p.Runs net w h a w' ∧ b = if q a then f a else g a := by
  have hk : (fun a => if q a then Pure.pure (f a) else Pure.pure (g a) : α → Program β) =
      fun a => Pure.pure (if q a then f a else g a) := by
    funext a
    rw [apply_ite Pure.pure]
  rw [hk] at hr
  exact hr.bind_pure

/-- An error ends a run, whatever would have been done to another result. -/
theorem Runs.bind_map {ε : Type} {p : Program (Except ε α)} {k : Except ε α → Program (Except ε β)}
    {f : α → β} {w w' : World} {h : List Moment} {r : Except ε β} (hr : Runs net (p >>= k) w h r w')
    (herror : ∀ e, k (.error e) = Pure.pure (.error e))
    (hok : ∀ a, k (.ok a) = Pure.pure (.ok (f a))) :
    ∃ q, p.Runs net w h q w' ∧ r = q.map f := by
  have hk : k = fun q => Pure.pure (q.map f) := by
    funext q
    cases q with
    | error e => exact herror e
    | ok a => exact hok a
  rw [hk] at hr
  exact hr.bind_pure

end Program

end NatBehaviour.Network
