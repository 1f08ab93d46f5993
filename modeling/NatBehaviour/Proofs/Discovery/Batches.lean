import NatBehaviour.Proofs.Discovery.Requests

/-!
A discovery as a sequence of batches. Whatever the network does, a run sends and waits only in the batches
of its steps, and each of these is the batch of a step with the settings of the client and the listeners of
the server that it found. What holds of every batch can so be carried over to runs.
-/

namespace NatBehaviour.Discovery

open NatBehaviour.Network (Action Moment Program SocketAddress Transmission World transmissions)
open NatBehaviour.Net (Endpoint Ip)
open NatBehaviour.Probe (Batch Outcome)
open NatBehaviour.Wire (Listeners Message)

/-- The batch that a step sends from a socket. -/
def Step.batch (p : Settings.Probe) (server : Listeners Endpoint) (step : Step) (socket : SocketAddress) :
    Batch :=
  Session.batch ⟨p, socket, socket.ip, server⟩ socket step.kind step.expected

/-- An action that neither sends nor waits. -/
def Idle : Action → Prop
  | .send _ _ _ | .await _ _ _ => False
  | _ => True

/-- A run that consists of the batches of some steps, with nothing but idle actions between them. -/
inductive Batches (net : Network) (p : Settings.Probe) (server : Listeners Endpoint) :
    World → List Moment → List (Step × Outcome) → World → Prop
  | nil (w : World) : Batches net p server w [] [] w
  | idle {action : Action} {answer : action.Answer} {w w₁ w' : World} {h : List Moment}
      {os : List (Step × Outcome)} (calm : Idle action) (taken : w.perform net action = (answer, w₁))
      (rest : Batches net p server w₁ h os w') :
      Batches net p server w (⟨w, action, answer⟩ :: h) os w'
  | batch {step : Step} {socket : SocketAddress} {o : Outcome} {w w₁ w' : World} {h₁ h₂ : List Moment}
      {os : List (Step × Outcome)} (sent : (step.batch p server socket).run.Runs net w h₁ o w₁)
      (rest : Batches net p server w₁ h₂ os w') :
      Batches net p server w (h₁ ++ h₂) ((step, o) :: os) w'

/-- The outcomes in some findings, each with its step. -/
def outcomesOf (findings : List Finding) : List (Step × Outcome) :=
  findings.flatMap fun f => f.outcomes.map (f.step, ·)

variable {net : Network} {p : Settings.Probe} {server : Listeners Endpoint} {w w₁ w' : World}
  {h h' : List Moment} {os os' : List (Step × Outcome)}

theorem Idle.transmission? {action : Action} (calm : Idle action) (w : World) (answer : action.Answer) :
    Moment.transmission? ⟨w, action, answer⟩ = none := by
  cases action <;> first
    | rfl
    | exact calm.elim

namespace Batches

theorem append (hb : Batches net p server w h os w₁) (hb' : Batches net p server w₁ h' os' w') :
    Batches net p server w (h ++ h') (os ++ os') w' := by
  induction hb with
  | nil w => exact hb'
  | idle calm taken _ ih => exact .idle calm taken (ih hb')
  | batch sent _ ih =>
    rw [List.append_assoc]
    exact .batch sent (ih hb')

theorem single {step : Step} {socket : SocketAddress} {o : Outcome}
    (hr : (step.batch p server socket).run.Runs net w h o w') :
    Batches net p server w h [(step, o)] w' := by
  rw [← List.append_nil h]
  exact .batch hr (.nil w')

/-- An idle action at the end. -/
theorem concat {action : Action} {answer : action.Answer} (hb : Batches net p server w h os w₁)
    (calm : Idle action) (taken : w₁.perform net action = (answer, w')) :
    Batches net p server w (h ++ [⟨w₁, action, answer⟩]) os w' := by
  have happend := hb.append (.idle calm taken (.nil w'))
  rwa [List.append_nil] at happend

/-- Everything that a run tries to send is the request of one of its steps. -/
theorem exists_step (hb : Batches net p server w h os w') {e : Transmission × Bool}
    (he : e ∈ transmissions h) :
    ∃ step ∈ os.map Prod.fst, e.1.payload = (Message.request step.kind).encode := by
  induction hb with
  | nil => cases he
  | idle calm _ _ ih =>
    rw [Network.transmissions_cons_of_none (calm.transmission? _ _)] at he
    exact ih he
  | @batch step socket o w w₁ w' h₁ h₂ os sent _ ih =>
    rw [Network.transmissions_append] at he
    rcases List.mem_append.mp he with he | he
    · have hmem := Network.mem_addressed he
      rw [(attemptTimes_sends sent).addressed] at hmem
      obtain ⟨-, hrequest⟩ := Prod.mk.inj (List.eq_of_mem_replicate hmem)
      exact ⟨step, List.mem_cons_self, (Prod.mk.inj hrequest).2⟩
    · obtain ⟨later, hlater, hpayload⟩ := ih he
      exact ⟨later, List.mem_cons_of_mem _ hlater, hpayload⟩

end Batches

/-! ## Steps -/

/-- What a run has to show for its batches: all of them if it comes to a result, and else those of the steps
before the one that failed. -/
def Shows (os : List (Step × Outcome)) (failed : List Step) : Attempted Course → Prop
  | .ok c => outcomesOf c.findings = os
  | .error _ => os.map Prod.fst = failed

theorem outcomesOf_concluded (step : Step) (outcomes : List Outcome) (verdict : String)
    (k : Classification) :
    outcomesOf (Course.concluded step outcomes verdict k).findings = outcomes.map (step, ·) := by
  simp [outcomesOf, Course.concluded]

theorem outcomesOf_after (step : Step) (outcomes : List Outcome) (verdict : String) (c : Course) :
    outcomesOf (c.after step outcomes verdict).findings =
      outcomes.map (step, ·) ++ outcomesOf c.findings := by
  simp [outcomesOf, Course.after]

theorem Shows.after {step : Step} {o : Outcome} {verdict : String} {failed : List Step}
    {q : Attempted Course} (hs : Shows os failed q) :
    Shows ((step, o) :: os) (step :: failed) (q.map (·.after step [o] verdict)) := by
  cases q with
  | error f => exact congrArg (step :: ·) hs
  | ok c => exact (outcomesOf_after step [o] verdict c).trans (congrArg ((step, o) :: ·) hs)

namespace Session

variable {s : Session}

theorem portRestriction_batches {c : Course} (hr : s.portRestriction.Runs net w h c w') :
    Batches net s.settings s.server w h (outcomesOf c.findings) w' := by
  obtain ⟨o, ho, rfl⟩ := portRestriction_runs hr
  split
  · exact .single ho
  · exact .single ho

theorem firewall_batches {c : Course} (hr : s.firewall.Runs net w h c w') :
    Batches net s.settings s.server w h (outcomesOf c.findings) w' := by
  obtain ⟨o, ho, rfl⟩ := firewall_runs hr
  split
  · exact .single ho
  · exact .single ho

theorem compared_batches {a b : Outcome} (hc : Compared net s w h a b w') :
    Batches net s.settings s.server w h [(.symmetricNat, a), (.symmetricNat, b)] w' := by
  obtain ⟨bound, first, other⟩ := hc
  have hfirst : Batches net s.settings s.server _ _ [(.symmetricNat, a)] _ := .single first
  have hother : Batches net s.settings s.server _ _ [(.symmetricNat, b)] _ := .single other
  exact .idle trivial bound ((hfirst.append hother).concat trivial rfl)

theorem symmetric_batches {r : Attempted Course} (hr : s.symmetric.Runs net w h r w') :
    ∃ os, Batches net s.settings s.server w h os w' ∧ Shows os [] r := by
  rcases symmetric_runs hr with ⟨e, hb, rfl, rfl⟩ | ⟨a, b, w₁, h₁, h₂, rfl, hc, hpath⟩
  · exact ⟨[], .idle trivial hb (.nil w'), rfl⟩
  rcases hpath with ⟨-, c, hp, rfl⟩ | ⟨verdict, -, rfl, rfl, rfl⟩
  · exact ⟨_, (compared_batches hc).append (portRestriction_batches hp), outcomesOf_after _ _ _ c⟩
  · rw [List.append_nil]
    exact ⟨_, compared_batches hc, outcomesOf_concluded _ _ _ _⟩

theorem fullCone_batches {r : Attempted Course} (hr : s.fullCone.Runs net w h r w') :
    ∃ os, Batches net s.settings s.server w h os w' ∧ Shows os [.fullCone] r := by
  obtain ⟨o, w₁, h₁, h₂, rfl, ho, ⟨-, rfl, rfl, rfl⟩ | ⟨-, q, hq, rfl⟩⟩ := fullCone_runs hr
  · rw [List.append_nil]
    exact ⟨[(.fullCone, o)], .single ho, outcomesOf_concluded _ _ _ _⟩
  · obtain ⟨os, hb, hs⟩ := symmetric_batches hq
    exact ⟨(.fullCone, o) :: os, .batch ho hb, hs.after⟩

theorem reachability_batches {r : Attempted Course} (hr : s.reachability.Runs net w h r w') :
    ∃ os, Batches net s.settings s.server w h os w' ∧ Shows os [.reachability, .fullCone] r := by
  obtain ⟨o, w₁, h₁, h₂, rfl, ho, hpath⟩ := reachability_runs hr
  rcases hpath with ⟨-, rfl, rfl, rfl⟩ | ⟨-, -, c, hc, rfl⟩ | ⟨-, -, q, hq, rfl⟩
  · rw [List.append_nil]
    exact ⟨[(.reachability, o)], .single ho, outcomesOf_concluded _ _ _ _⟩
  · exact ⟨(.reachability, o) :: _, .batch ho (firewall_batches hc), outcomesOf_after _ _ _ c⟩
  · obtain ⟨os, hb, hs⟩ := fullCone_batches hq
    exact ⟨(.reachability, o) :: os, .batch ho hb, hs.after⟩

end Session

/-! ## Clients -/

namespace Client

variable {c : Client}

theorem takeSteps_batches {localIp : Ip} {r : Attempted Trail}
    (hr : (c.takeSteps server localIp).Runs net w h r w') :
    ∃ os, Batches net c.settings server w h os w' ∧
      (∀ t, r = .ok t → outcomesOf t.course.findings = os) ∧
      ∀ f, r = .error f → os.map Prod.fst ∈ [[], [.reachability, .fullCone]] := by
  rcases takeSteps_runs hr with ⟨e, hb, rfl, rfl⟩ | ⟨socket, w₁, h₁, q, w₂, hb, hq, rfl, rfl, rfl⟩
  · exact ⟨[], .idle trivial hb (.nil w'), nofun, fun _ _ => List.mem_cons_self⟩
  obtain ⟨os, hbatches, hs⟩ := Session.reachability_batches hq
  refine ⟨os, .idle trivial hb (hbatches.concat trivial rfl), ?_, ?_⟩
  · intro t ht
    cases q with
    | error f => cases ht
    | ok course =>
      cases ht
      exact hs
  · intro f hf
    cases q with
    | error f' => simpa using .inr hs
    | ok course => cases hf

theorem outboundIp_batches {primary : Endpoint} {r : Attempted (Option Ip)}
    (hr : (outboundIp primary).Runs net w h r w') : Batches net p server w h [] w' := by
  rcases outboundIp_runs hr with ⟨e, hb, rfl, -⟩ | ⟨socket, w₁, hb, rfl, -, rfl⟩
  · exact .idle trivial hb (.nil w')
  · exact .idle trivial hb (.idle trivial rfl (.idle trivial rfl (.nil _)))

theorem trail_batches {r : Attempted Trail} (hr : c.trail.Runs net w h r w')
    (hserver : ∀ primary, c.primary? net = some primary → c.listenersAt primary = server) :
    ∃ os, Batches net c.settings server w h os w' ∧
      (∀ t, r = .ok t → outcomesOf t.course.findings = os) ∧
      ∀ f, r = .error f → os.map Prod.fst ∈ [[], [.reachability, .fullCone]] := by
  obtain ⟨h₁, rfl, ⟨-, rfl, rfl, rfl⟩ | ⟨primary, hprimary, h₂, h₃, q, w₁, rfl, hout, hpath⟩⟩ :=
    trail_runs hr
  · refine ⟨[], .idle trivial rfl (.nil _), ?_, nofun⟩
    intro t ht
    cases ht
    rfl
  have hbefore : Batches net c.settings server _ _ [] w₁ := outboundIp_batches hout
  rcases hpath with ⟨f, -, rfl, rfl, rfl⟩ | ⟨-, rfl, rfl, rfl⟩ | ⟨localIp, -, hsteps⟩
  · rw [List.append_nil]
    exact ⟨[], .idle trivial rfl hbefore, nofun, fun _ _ => List.mem_cons_self⟩
  · rw [List.append_nil]
    refine ⟨[], .idle trivial rfl hbefore, ?_, nofun⟩
    intro t ht
    cases ht
    rfl
  · rw [hserver primary hprimary] at hsteps
    obtain ⟨os, hb, hshown⟩ := takeSteps_batches hsteps
    exact ⟨os, .idle trivial rfl (hbefore.append hb), hshown⟩

theorem exists_server (c : Client) (net : Network) :
    ∃ server, ∀ primary, c.primary? net = some primary → c.listenersAt primary = server := by
  refine ⟨c.listenersAt ((c.primary? net).getD (.v4 .unspecified 0)), ?_⟩
  intro primary hprimary
  rw [hprimary, Option.getD_some]

/-- A run consists of batches of its steps. A report shows the outcomes of all of them; a run that fails has
sent none, or those of the two steps before the second socket is bound. -/
theorem run_batches {stamp : Stamp} {r : Attempted Report} (hr : (c.run stamp).Runs net w h r w')
    (hserver : ∀ primary, c.primary? net = some primary → c.listenersAt primary = server) :
    ∃ os, Batches net c.settings server w h os w' ∧
      (∀ report, r = .ok report → outcomesOf report.findings = os) ∧
      ∀ f, r = .error f → os.map Prod.fst ∈ [[], [.reachability, .fullCone]] := by
  obtain ⟨t, h₁, h₂, ht, rfl, hend⟩ := run_runs hr
  obtain ⟨os, hb, hok, herror⟩ := trail_batches ht hserver
  refine ⟨os, .idle trivial rfl ?_, ?_⟩
  · rcases hend with ⟨f, -, rfl, -⟩ | ⟨trail, -, rfl, -⟩
    · rwa [List.append_nil]
    · exact hb.concat trivial rfl
  · rcases hend with ⟨f, rfl, -, rfl⟩ | ⟨trail, rfl, -, rfl⟩
    · exact ⟨nofun, fun _ _ => herror f rfl⟩
    · refine ⟨?_, nofun⟩
      intro report hreport
      cases hreport
      exact hok trail rfl

end Client

end NatBehaviour.Discovery
