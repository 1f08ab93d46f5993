import NatBehaviour.Proofs.Discovery.Requests

/-!
How a discovery compares the mappings of two sockets. Only the first reply of each socket counts. A reply
without an address counts there as one that reports the empty text, so that two of them pass for the same
mapping; replies that do carry addresses pass just if their first ones agree.
-/

namespace NatBehaviour.Discovery

open NatBehaviour.Net (Endpoint)
open NatBehaviour.Network (Moment Program SocketAddress World heard)
open NatBehaviour.Probe (Batch Filter Outcome)
open NatBehaviour.Responder (loopbackListeners narrowHost restrictingRelay)
open NatBehaviour.Wire (Message received)

/-! ## What is compared -/

/-- What a reply is taken to report. -/
def reported (m : Message) : String := m.observed.getD ""

/-- The first replies of two sockets are taken to report the same. -/
def SameFirst (ms ms' : List Message) : Prop :=
  ∃ a, ms.head?.map reported = some a ∧ ms'.head?.map reported = some a

/-- The first addresses that two sockets have read are the same. -/
def SameAddress (ms ms' : List Message) : Prop :=
  ∃ a, (ms.filterMap (·.observed)).head? = some a ∧ (ms'.filterMap (·.observed)).head? = some a

/-- If every reply carries an address, then what the first one reports is the first address. -/
theorem head?_reported {ms : List Message} (h : ∀ m ∈ ms, m.observed.isSome) :
    ms.head?.map reported = (ms.filterMap (·.observed)).head? := by
  cases ms with
  | nil => rfl
  | cons m rest =>
    obtain ⟨a, ha⟩ := Option.isSome_iff_exists.mp (h m List.mem_cons_self)
    simp [reported, ha]

theorem sameFirst_iff_sameAddress {ms ms' : List Message} (h : ∀ m ∈ ms ++ ms', m.observed.isSome) :
    SameFirst ms ms' ↔ SameAddress ms ms' := by
  rw [SameFirst, SameAddress, head?_reported fun m hm => h m (List.mem_append_left ms' hm),
    head?_reported fun m hm => h m (List.mem_append_right ms hm)]

variable {net : Network} {w w' : World} {h : List Moment}

/-! ## Batches -/

/-- A socket pings the primary listener some number of times, and reads no reply but from there. -/
structure Pings (attempts : Nat) (primary : Endpoint) (x : SocketAddress) (h : List Moment) : Prop where
  sends : Sends h (List.replicate attempts (x, primary, (Message.request .ping).encode))
  source : ∀ {w y timeout f m}, ⟨w, .await y timeout f, .reply m⟩ ∈ h →
    y = x ∧ ∃ d, w.Holds x d ∧ d.source = primary ∧ Message.decode (received d.payload) = .ok m

/-- A usable datagram comes from the only source that is accepted, and decodes. -/
theorem judge_usable {source : Endpoint} {d : Probe.Datagram} {m : Message}
    (hj : (Filter.only source).judge d = .usable m) :
    d.source = source ∧ Message.decode (received d.payload) = .ok m := by
  unfold Filter.judge at hj
  split at hj
  · rename_i haccepts
    split at hj
    · rename_i reply hdecode
      cases hj
      exact ⟨by simpa [Filter.accepts] using haccepts, hdecode⟩
    · cases hj
  · cases hj

section Batches

variable {b : Batch} {o o' : Outcome}

theorem attempt_heard (hr : (b.attempt o).Runs net w h o' w') :
    o'.observed = o.observed ++ (heard h).map reported := by
  rcases Batch.attempt_runs hr with ⟨-, rfl, rfl⟩ | ⟨w₁, r, -, -, rfl, rfl⟩
  · exact (List.append_nil _).symm
  · rw [Batch.observed_count]
    cases r with
    | reply m => rfl
    | onlyUndecodable => exact (List.append_nil _).symm
    | nothing => exact (List.append_nil _).symm

theorem attemptTimes_heard {n : Nat} (hr : (b.attemptTimes n o).Runs net w h o' w') :
    o'.observed = o.observed ++ (heard h).map reported := by
  induction n generalizing o w h with
  | zero =>
    obtain ⟨rfl, rfl, -⟩ := Batch.attemptTimes_runs_zero hr
    exact (List.append_nil _).symm
  | succ n ih =>
    obtain ⟨h₁, h₂, o₁, w₁, rfl, hfirst, hrest⟩ := Batch.attemptTimes_runs_succ hr
    rw [ih hrest, attempt_heard hfirst, Network.heard_append, List.map_append, List.append_assoc]

/-- A reply that is read in a batch was held by its socket and is usable. -/
theorem attemptTimes_source {n : Nat} (hr : (b.attemptTimes n o).Runs net w h o' w') {w₁ : World}
    {y : SocketAddress} {timeout : Nat} {f : Filter} {m : Message}
    (hm : ⟨w₁, .await y timeout f, .reply m⟩ ∈ h) :
    y = b.socket ∧ ∃ d, w₁.Holds b.socket d ∧ b.filter.judge d = .usable m := by
  induction n generalizing o w h with
  | zero =>
    obtain ⟨rfl, -, -⟩ := Batch.attemptTimes_runs_zero hr
    cases hm
  | succ n ih =>
    obtain ⟨h₁, h₂, o₁, w₂, rfl, hfirst, hrest⟩ := Batch.attemptTimes_runs_succ hr
    rcases List.mem_append.mp hm with hm | hm
    · rcases Batch.attempt_runs hfirst with ⟨-, rfl, -⟩ | ⟨w₃, r, -, hawait, rfl, -⟩
      · cases List.mem_singleton.mp hm
      · rcases List.mem_cons.mp hm with hm | hm
        · cases hm
        · cases List.mem_singleton.mp hm
          exact ⟨rfl, (World.await_sound hawait).2 m rfl⟩
    · exact ih hrest hm

end Batches

/-! ## Runs -/

/-- A run in which two sockets ping the primary listener in turn. It goes on after that just if their first
replies are taken to report the same, and else ends with a symmetric translator. What that is worth depends
on the replies: where all of them carry an address, the first addresses decide. -/
inductive Compares (attempts : Nat) (primary : Endpoint) (first : SocketAddress) (h : List Moment)
    (steps : List Step) (k : Classification) : Prop
  | intro {second : SocketAddress} {before h₁ h₂ after : List Moment}
    (split : h = before ++ (h₁ ++ h₂) ++ after) (pings : Pings attempts primary first h₁)
    (other : Pings attempts primary second h₂)
    (passes : .portRestriction ∈ steps ↔ SameFirst (heard h₁) (heard h₂))
    (genuine : (∀ m ∈ heard h₁ ++ heard h₂, m.observed.isSome) →
      (.portRestriction ∈ steps ↔ SameAddress (heard h₁) (heard h₂)))
    (ends : .portRestriction ∉ steps → k = .symmetricNat)

namespace Compares

variable {attempts : Nat} {primary : Endpoint} {first : SocketAddress} {steps : List Step}
  {k : Classification}

/-- What a run does before and afterwards does not matter. -/
theorem extend (hc : Compares attempts primary first h steps k) (earlier later : List Moment) :
    Compares attempts primary first (earlier ++ h ++ later) steps k := by
  obtain ⟨split, pings, other, passes, genuine, ends⟩ := hc
  rename_i second before h₁ h₂ after
  have hsplit : earlier ++ h ++ later = (earlier ++ before) ++ (h₁ ++ h₂) ++ (after ++ later) := by
    simp [split]
  exact .intro hsplit pings other passes genuine ends

/-- Neither does an earlier step. -/
theorem cons {step : Step} (hc : Compares attempts primary first h steps k)
    (hstep : step ≠ .portRestriction) : Compares attempts primary first h (step :: steps) k := by
  have hmem : .portRestriction ∈ step :: steps ↔ .portRestriction ∈ steps := by simp [hstep.symm]
  obtain ⟨split, pings, other, passes, genuine, ends⟩ := hc
  exact .intro split pings other (hmem.trans passes) (fun hall => hmem.trans (genuine hall))
    fun h => ends (mt hmem.mpr h)

end Compares

namespace Session

variable {s : Session}

theorem probe_pings {x : SocketAddress} {o : Outcome}
    (hr : (s.batch x .ping .primary).run.Runs net w h o w') :
    Pings s.settings.maxAttempts.toNat s.server.primary x h where
  sends := attemptTimes_sends hr
  source hm := by
    obtain ⟨rfl, d, hd, hj⟩ := attemptTimes_source hr hm
    exact ⟨rfl, d, hd, judge_usable hj⟩

theorem compareMappings_eq_ok {x y : SocketAddress} {a b : Outcome} {w₁ : World} {h' : List Moment}
    (ha : (s.batch x .ping .primary).run.Runs net w h a w₁)
    (hb : (s.batch y .ping .primary).run.Runs net w₁ h' b w') :
    compareMappings a b = .ok () ↔ SameFirst (heard h) (heard h') := by
  have hobserved : a.observed = (heard h).map reported := attemptTimes_heard ha
  have hother : b.observed = (heard h').map reported := attemptTimes_heard hb
  rw [compareMappings_eq_ok_iff, SameMapping, SameFirst, hobserved, hother, List.head?_map,
    List.head?_map]

theorem symmetric_compares {course : Course} (hr : s.symmetric.Runs net w h (.ok course) w') :
    Compares s.settings.maxAttempts.toNat s.server.primary s.socket h (course.findings.map (·.step))
      course.classification := by
  rcases symmetric_runs hr with ⟨e, -, -, hfail⟩ | ⟨a, b, w₁, h₁, h₂, rfl, ⟨-, hfirst, hother⟩, hpath⟩
  · cases hfail
  rename_i second w₂ w₃ w₄ h₃ h₄
  have hsplit : ⟨w, .bind (.of s.localIp 0), .ok second⟩ :: (h₃ ++ h₄ ++ [⟨w₄, .close second, ()⟩]) ++ h₂ =
      [⟨w, .bind (.of s.localIp 0), .ok second⟩] ++ (h₃ ++ h₄) ++ (⟨w₄, .close second, ()⟩ :: h₂) := by
    simp
  have hcourse : (.portRestriction ∈ course.findings.map (·.step) ↔ compareMappings a b = .ok ()) ∧
      (.portRestriction ∉ course.findings.map (·.step) → course.classification = .symmetricNat) := by
    rcases hpath with ⟨hsame, c, hc, hcourse⟩ | ⟨verdict, hdiffer, -, -, hcourse⟩
    · cases hcourse
      have hfindings := (portRestriction_takes hc s.socket).findings c rfl
      simp [Course.after, hfindings, hsame]
    · cases hcourse
      simp [Course.concluded, hdiffer]
  have hpasses := hcourse.1.trans (compareMappings_eq_ok hfirst hother)
  exact .intro hsplit (probe_pings hfirst) (probe_pings hother) hpasses
    (fun hall => hpasses.trans (sameFirst_iff_sameAddress hall)) hcourse.2

theorem fullCone_compares {course : Course} (hr : s.fullCone.Runs net w h (.ok course) w')
    (hstep : .symmetricNat ∈ course.findings.map (·.step)) :
    Compares s.settings.maxAttempts.toNat s.server.primary s.socket h (course.findings.map (·.step))
      course.classification := by
  obtain ⟨o, w₁, h₁, h₂, rfl, -, ⟨-, -, -, hc⟩ | ⟨-, q, hq, hc⟩⟩ := fullCone_runs hr
  · cases hc
    cases List.mem_singleton.mp hstep
  · cases q with
    | error f => cases hc
    | ok rest =>
      cases hc
      have hextend := (symmetric_compares hq).extend h₁ []
      rw [List.append_nil] at hextend
      exact hextend.cons nofun

theorem reachability_compares {course : Course} (hr : s.reachability.Runs net w h (.ok course) w')
    (hstep : .symmetricNat ∈ course.findings.map (·.step)) :
    Compares s.settings.maxAttempts.toNat s.server.primary s.socket h (course.findings.map (·.step))
      course.classification := by
  obtain ⟨o, w₁, h₁, h₂, rfl, -, hpath⟩ := reachability_runs hr
  rcases hpath with ⟨-, -, -, hc⟩ | ⟨-, -, c, hc, hcourse⟩ | ⟨-, -, q, hq, hc⟩
  · cases hc
    cases List.mem_singleton.mp hstep
  · cases hcourse
    have hfindings := (firewall_takes hc s.socket).findings c rfl
    simp [Course.after, hfindings] at hstep
  · cases q with
    | error f => cases hc
    | ok rest =>
      cases hc
      have hrest : .symmetricNat ∈ rest.findings.map (·.step) :=
        (List.mem_cons.mp hstep).resolve_left nofun
      have hextend := (fullCone_compares hq hrest).extend h₁ []
      rw [List.append_nil] at hextend
      exact hextend.cons nofun

end Session

namespace Client

variable {c : Client}

/-- Whatever the network does, a run that compares the mappings of two sockets goes on just if the first
replies of both are taken to report the same; a reply without an address is taken to report the empty
text. If all replies carry an address, it goes on just if the first addresses of both are the same. -/
theorem run_compares {stamp : Stamp} {report : Report}
    (hr : (c.run stamp).Runs net w h (.ok report) w') (hstep : .symmetricNat ∈ report.steps) :
    ∃ (primary : Endpoint) (first : SocketAddress), c.primary? net = some primary ∧
      report.localAddress = some first.text ∧
      Compares c.settings.maxAttempts.toNat primary first h report.steps report.classification := by
  rcases run_walks hr with ⟨-, hsteps⟩ | ⟨rfl, -, -, hprimary, hlocal, hruns⟩
  · rw [hsteps] at hstep
    cases List.mem_singleton.mp hstep
  rename_i primary first localIp before walk after w₁ w₂
  have hc := Session.reachability_compares hruns hstep
  exact ⟨primary, first, hprimary, hlocal, hc.extend before after⟩

/-- Both sockets of a default client are seen under the same address. -/
theorem run_compares_restricted :
    ∃ h report w', (Client.default.run ⟨⟨0⟩, 0⟩).Runs (restrictingRelay [20]) (.start []) h (.ok report) w' ∧
      ∃ (primary : Endpoint) (first : SocketAddress), report.localAddress = some first.text ∧
        Compares 3 primary first h report.steps .restricted := by
  have hresult : ((Client.default.run ⟨⟨0⟩, 0⟩).run (restrictingRelay [20]) (.start [])).1.toOption.map
      (fun report => (report.steps, report.classification)) =
        some ([.reachability, .fullCone, .symmetricNat, .portRestriction], .restricted) := by
    decide +kernel
  obtain ⟨report, w', hrun, hreport⟩ := exists_report hresult
  obtain ⟨hsteps, hclass⟩ := Prod.mk.inj hreport
  obtain ⟨h, hr⟩ := Program.runs_of_run hrun
  obtain ⟨primary, first, -, hlocal, hc⟩ := run_compares hr (by simp [hsteps])
  exact ⟨h, report, w', hr, primary, first, hlocal, hclass ▸ hc⟩

/-- A responder that answers pings only, and never says where they come from. -/
def forgetfulRelay : Network :=
  narrowHost.network fun _ t =>
    if t.payload = (Message.request .ping).encode then
      [⟨20, t.source, ⟨loopbackListeners.primary, (Message.request .ping).encode⟩⟩]
    else []

/-- Two sockets pass for having the same mapping although no reply in the whole run carries an address. -/
theorem same_mapping_without_address :
    ∃ h report w', (Client.default.run ⟨⟨0⟩, 0⟩).Runs forgetfulRelay (.start []) h (.ok report) w' ∧
      .portRestriction ∈ report.steps ∧ report.classification = .portRestricted ∧
      heard h ≠ [] ∧ ∀ m ∈ heard h, m.observed = none := by
  have hresult : ((Client.default.run ⟨⟨0⟩, 0⟩).run forgetfulRelay (.start [])).1.toOption.map
      (fun report => (report.steps, report.classification)) =
        some ([.reachability, .fullCone, .symmetricNat, .portRestriction], .portRestricted) := by
    decide +kernel
  have hheard : heard ((Client.default.run ⟨⟨0⟩, 0⟩).history forgetfulRelay (.start [])) =
      List.replicate 9 (.request .ping) := by decide +kernel
  obtain ⟨report, w', hrun, hreport⟩ := exists_report hresult
  obtain ⟨hsteps, hclass⟩ := Prod.mk.inj hreport
  have hr : (Client.default.run ⟨⟨0⟩, 0⟩).Runs forgetfulRelay (.start []) _ _ _ := Program.runs_history _ _
  rw [hrun] at hr
  refine ⟨_, report, w', hr, by simp [hsteps], hclass, ?_, ?_⟩
  · rw [hheard]
    exact List.cons_ne_nil _ _
  · intro m hm
    rw [hheard] at hm
    rw [List.eq_of_mem_replicate hm, Message.request]

end Client

end NatBehaviour.Discovery
