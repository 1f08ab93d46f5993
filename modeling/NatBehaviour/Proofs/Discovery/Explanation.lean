import NatBehaviour.Proofs.Discovery.Steps
import NatBehaviour.Proofs.Probe.Tally
import NatBehaviour.Proofs.Responder.Relay

/-!
A report explains its classification. `Explains` says, path by path, what the findings have to show for a
classification; no two classifications have the same findings. A run never reports anything else,
whatever the network does: which datagrams arrive, from where and when, and which sends fail.
-/

namespace NatBehaviour.Discovery

open NatBehaviour.Net (Ip Endpoint)
open NatBehaviour.Network (Moment Program World)
open NatBehaviour.Probe (Outcome Tallied gotReply_iff gotReply_eq_false_iff)
open NatBehaviour.Responder (restrictingRelay)
open NatBehaviour.Wire (Kind Listeners Role)

/-- Every attempt of a batch got a reply that reports the same address. -/
def AllMatched (attempts : UInt32) (own : String) (o : Outcome) : Prop :=
  o.observed = List.replicate attempts.toNat own

/-- Both sockets got replies, and the first ones report the same address. -/
def SameMapping (first second : Outcome) : Prop :=
  ∃ a, first.observed.head? = some a ∧ second.observed.head? = some a

/-- What the findings of a run show for its classification, given the number of attempts in a batch and
the address of the first socket. -/
inductive Explains (attempts : UInt32) :
    Option String → List Finding → Classification → Prop
  | unresolved :
    Explains attempts none [⟨.reachability, [], Verdict.unresolved⟩] .unreachable
  | noRoute :
    Explains attempts none [⟨.reachability, [], Verdict.noRoute⟩] .unreachable
  | silent {own : String} {o : Outcome} (noReply : o.observed = []) :
    Explains attempts (some own) [⟨.reachability, [o], Session.silence o⟩] .unreachable
  | openInternet {own : String} {o₁ o₂ : Outcome} (matched : AllMatched attempts own o₁)
      (reached : o₂.observed ≠ []) :
    Explains attempts (some own)
      [⟨.reachability, [o₁], Verdict.localAddressEchoed⟩,
       ⟨.firewall, [o₂], Verdict.alternatePortReached⟩] .openInternet
  | symmetricFirewall {own : String} {o₁ o₂ : Outcome} (matched : AllMatched attempts own o₁)
      (blocked : o₂.observed = []) :
    Explains attempts (some own)
      [⟨.reachability, [o₁], Verdict.localAddressEchoed⟩,
       ⟨.firewall, [o₂], Verdict.alternatePortBlocked⟩] .symmetricFirewall
  | fullCone {own : String} {o₁ o₂ : Outcome} (reply : o₁.observed ≠ [])
      (mapped : ¬ AllMatched attempts own o₁) (reached : o₂.observed ≠ []) :
    Explains attempts (some own)
      [⟨.reachability, [o₁], Verdict.mappedAddressDiffers⟩,
       ⟨.fullCone, [o₂], Verdict.alternatePortReached⟩] .fullCone
  | symmetricNat {own verdict : String} {o₁ o₂ first second : Outcome} (reply : o₁.observed ≠ [])
      (mapped : ¬ AllMatched attempts own o₁) (blocked : o₂.observed = [])
      (differ : ¬ SameMapping first second) (said : Session.compareMappings first second = .error verdict) :
    Explains attempts (some own)
      [⟨.reachability, [o₁], Verdict.mappedAddressDiffers⟩,
       ⟨.fullCone, [o₂], Verdict.alternatePortBlocked⟩,
       ⟨.symmetricNat, [first, second], verdict⟩] .symmetricNat
  | restricted {own : String} {o₁ o₂ first second o₅ : Outcome} (reply : o₁.observed ≠ [])
      (mapped : ¬ AllMatched attempts own o₁) (blocked : o₂.observed = [])
      (same : SameMapping first second) (reached : o₅.observed ≠ []) :
    Explains attempts (some own)
      [⟨.reachability, [o₁], Verdict.mappedAddressDiffers⟩,
       ⟨.fullCone, [o₂], Verdict.alternatePortBlocked⟩,
       ⟨.symmetricNat, [first, second], Verdict.sameMapping⟩,
       ⟨.portRestriction, [o₅], Verdict.tertiaryPortReached⟩] .restricted
  | portRestricted {own : String} {o₁ o₂ first second o₅ : Outcome} (reply : o₁.observed ≠ [])
      (mapped : ¬ AllMatched attempts own o₁) (blocked : o₂.observed = [])
      (same : SameMapping first second) (silent : o₅.observed = []) :
    Explains attempts (some own)
      [⟨.reachability, [o₁], Verdict.mappedAddressDiffers⟩,
       ⟨.fullCone, [o₂], Verdict.alternatePortBlocked⟩,
       ⟨.symmetricNat, [first, second], Verdict.sameMapping⟩,
       ⟨.portRestriction, [o₅], Verdict.tertiaryPortBlocked⟩] .portRestricted

/-- Findings explain one classification only: two paths differ in their steps, in a verdict, or in what
their last outcome observed. -/
theorem Explains.unique {attempts : UInt32} {own : Option String} {findings : List Finding}
    {k k' : Classification} (h : Explains attempts own findings k)
    (h' : Explains attempts own findings k') : k' = k := by
  generalize hf : findings = findings' at h'
  cases h <;> cases h' <;> first
    | rfl
    | simp_all

/-! ## What the steps compare -/

theorem compareMappings_eq_ok_iff {a b : Outcome} :
    Session.compareMappings a b = .ok () ↔ SameMapping a b := by
  simp only [Session.compareMappings, SameMapping, Outcome.firstObserved?]
  cases a.observed.head? <;> cases b.observed.head? <;> simp [eq_comm]

theorem not_sameMapping_of_error {a b : Outcome} {verdict : String}
    (h : Session.compareMappings a b = .error verdict) : ¬ SameMapping a b := by
  intro hs
  rw [compareMappings_eq_ok_iff.mpr hs] at h
  cases h

variable {net : Network} {w w' : World} {h : List Moment} {s : Session} {o : Outcome}

theorem Session.probe_allMatched_iff {kind : Kind} {role : Role}
    (hr : (s.probe kind role).Runs net w h o w') (hpos : s.settings.maxAttempts ≠ 0) :
    o.everyAttemptMatched = true ↔ AllMatched s.settings.maxAttempts s.socket.text o :=
  (Tallied.run hr.returns).everyAttemptMatched_iff hpos

/-! ## Every path -/

section Paths

variable {course : Course} (hpos : s.settings.maxAttempts ≠ 0)

theorem Session.firewall_explains (hr : s.firewall.Runs net w h course w')
    (hm : AllMatched s.settings.maxAttempts s.socket.text o) :
    Explains s.settings.maxAttempts (some s.socket.text)
      (course.after .reachability [o] Verdict.localAddressEchoed).findings course.classification := by
  obtain ⟨o₂, -, rfl⟩ := Session.firewall_runs hr
  cases hgot : o₂.gotReply with
  | true => exact .openInternet hm (gotReply_iff.mp hgot)
  | false => exact .symmetricFirewall hm (gotReply_eq_false_iff.mp hgot)

theorem Session.fullCone_explains (hr : s.fullCone.Runs net w h (.ok course) w')
    (hreply : o.observed ≠ []) (hm : ¬ AllMatched s.settings.maxAttempts s.socket.text o) :
    Explains s.settings.maxAttempts (some s.socket.text)
      (course.after .reachability [o] Verdict.mappedAddressDiffers).findings
      course.classification := by
  obtain ⟨o₂, w₁, h₁, h₂, -, -, hgot | hgot⟩ := Session.fullCone_runs hr
  · obtain ⟨hgot, -, -, hc⟩ := hgot
    cases hc
    exact .fullCone hreply hm (gotReply_iff.mp hgot)
  · obtain ⟨hgot, q, hs, hq⟩ := hgot
    have hblocked := gotReply_eq_false_iff.mp hgot
    rcases Session.symmetric_runs hs with ⟨e, -, -, rfl⟩ | ⟨a, b, w₂, h₃, h₄, -, -, hpath⟩
    · cases hq
    rcases hpath with ⟨hsame, rest, hp, rfl⟩ | ⟨verdict, hdiffer, -, -, rfl⟩
    · cases hq
      have hmapping := compareMappings_eq_ok_iff.mp hsame
      obtain ⟨o₅, -, rfl⟩ := Session.portRestriction_runs hp
      cases hgot₅ : o₅.gotReply with
      | true => exact .restricted hreply hm hblocked hmapping (gotReply_iff.mp hgot₅)
      | false => exact .portRestricted hreply hm hblocked hmapping (gotReply_eq_false_iff.mp hgot₅)
    · cases hq
      exact .symmetricNat hreply hm hblocked (not_sameMapping_of_error hdiffer) hdiffer

include hpos in
theorem Session.reachability_explains (hr : s.reachability.Runs net w h (.ok course) w') :
    Explains s.settings.maxAttempts (some s.socket.text) course.findings course.classification := by
  obtain ⟨o, w₁, h₁, h₂, -, ho, hpath⟩ := Session.reachability_runs hr
  have hmatched := Session.probe_allMatched_iff ho hpos
  rcases hpath with ⟨hgot, -, -, hc⟩ | ⟨-, hall, rest, hf, hc⟩ | ⟨hgot, hall, q, hf, hq⟩
  · cases hc
    exact .silent (gotReply_eq_false_iff.mp hgot)
  · cases hc
    exact Session.firewall_explains hf (hmatched.mp hall)
  · cases q with
    | error f => cases hq
    | ok rest =>
      cases hq
      have hdiffers : ¬ AllMatched s.settings.maxAttempts s.socket.text o := by
        rw [← hmatched, hall]
        exact Bool.false_ne_true
      exact Session.fullCone_explains hf (gotReply_iff.mp hgot) hdiffers

end Paths

theorem Client.maxAttempts_ne_zero (c : Client) : c.settings.maxAttempts ≠ 0 := by
  intro h
  have hv := c.settings_valid
  simp [Settings.Probe.fault?, h] at hv
  split at hv <;> cases hv

namespace Client

variable {c : Client}

theorem takeSteps_explains {server : Listeners Endpoint} {localIp : Ip} {t : Trail}
    (hr : (c.takeSteps server localIp).Runs net w h (.ok t) w') :
    Explains c.settings.maxAttempts t.localAddress t.course.findings t.course.classification := by
  obtain ⟨e, -, -, he⟩ | ⟨socket, w₁, h₁, q, w₂, -, hq, -, ht, -⟩ := takeSteps_runs hr
  · cases he
  cases q with
  | error f => cases ht
  | ok course =>
    cases ht
    exact Session.reachability_explains c.maxAttempts_ne_zero hq

theorem trail_explains {t : Trail} (hr : c.trail.Runs net w h (.ok t) w') :
    Explains c.settings.maxAttempts t.localAddress t.course.findings t.course.classification := by
  obtain ⟨h₁, -, ⟨-, -, -, ht⟩ | ⟨primary, -, h₂, h₃, q, w₁, -, -, hpath⟩⟩ := trail_runs hr
  · cases ht
    exact .unresolved
  rcases hpath with ⟨f, -, -, -, hf⟩ | ⟨-, -, -, ht⟩ | ⟨localIp, -, hsteps⟩
  · cases hf
  · cases ht
    exact .noRoute
  · exact takeSteps_explains hsteps

/-- The findings of every report explain its classification, and no other one. -/
theorem report_explains {stamp : Stamp} {r : Report} (hr : (c.run stamp).run net w = (.ok r, w'))
    (k : Classification) :
    Explains c.settings.maxAttempts r.localAddress r.findings k ↔ k = r.classification := by
  obtain ⟨h, hruns⟩ := Program.runs_of_run hr
  obtain ⟨t, h₁, h₂, ht, -, ⟨f, -, -, hf⟩ | ⟨trail, rfl, -, hreport⟩⟩ := run_runs hruns
  · cases hf
  cases hreport
  have hexplains := trail_explains ht
  exact ⟨fun hk => hexplains.unique hk, fun hk => hk ▸ hexplains⟩

/-- A run of whose report something is known comes to a report. -/
theorem exists_report {β : Type} {result : Attempted Report × World} {f : Report → β} {b : β}
    (h : result.1.toOption.map f = some b) : ∃ report w', result = (.ok report, w') ∧ f report = b := by
  obtain ⟨r, w'⟩ := result
  cases r with
  | error e => cases h
  | ok report => exact ⟨report, w', rfl, Option.some.inj h⟩

/-- Behind a translator that drops what comes from the secondary listener. -/
theorem report_explains_restricted :
    ∃ r w', (Client.default.run ⟨⟨0⟩, 0⟩).run (restrictingRelay [20]) (.start []) = (.ok r, w') ∧
      Explains 3 r.localAddress r.findings .restricted ∧
      ¬ Explains 3 r.localAddress r.findings .portRestricted := by
  have hresult : ((Client.default.run ⟨⟨0⟩, 0⟩).run (restrictingRelay [20]) (.start [])).1.toOption.map
      (·.classification) = some .restricted := by decide +kernel
  obtain ⟨r, w', hrun, hk⟩ := exists_report hresult
  refine ⟨r, w', hrun, (report_explains hrun _).mpr hk.symm, ?_⟩
  intro h
  have hne := (report_explains hrun _).mp h
  rw [hk] at hne
  cases hne

end Client

end NatBehaviour.Discovery
