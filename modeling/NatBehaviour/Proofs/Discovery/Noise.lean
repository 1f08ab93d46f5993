import NatBehaviour.Proofs.Discovery.Steps
import NatBehaviour.Proofs.Network.Pairs
import NatBehaviour.Proofs.Probe.Tally
import NatBehaviour.Proofs.Responder.Relay

/-!
Datagrams that a client does not ask for cannot steer a discovery. What comes from another source than
the listeners changes nothing at all; what does not decode can only make an attempt without a reply count
as one that saw nothing but such datagrams. The proof follows the discovery in two networks at once, one
of which delivers noise in addition.
-/

namespace NatBehaviour.Probe

open NatBehaviour.Network (Program)
open NatBehaviour.Network.World (PassesOver SameReading)
open NatBehaviour.Network.Program (Paired)

/-- The same outcome, but that some timeouts may have become decode failures. -/
structure Outcome.Muddied (o o' : Outcome) : Prop where
  attempts : o'.attempts = o.attempts
  sendFailures : o'.sendFailures = o.sendFailures
  addressMatches : o'.addressMatches = o.addressMatches
  observed : o'.observed = o.observed
  sum : o'.timeouts.toNat + o'.decodeFailures.toNat = o.timeouts.toNat + o.decodeFailures.toNat
  moved : o.decodeFailures.toNat ≤ o'.decodeFailures.toNat

namespace Outcome

theorem Muddied.refl (o : Outcome) : Muddied o o := ⟨rfl, rfl, rfl, rfl, rfl, Nat.le_refl _⟩

/-- The same outcome, or one that mud has changed. -/
def SameBut (mud : Prop) (o o' : Outcome) : Prop := o' = o ∨ mud ∧ Muddied o o'

theorem SameBut.muddied {mud : Prop} {o o' : Outcome} (h : SameBut mud o o') : Muddied o o' := by
  rcases h with rfl | ⟨-, h⟩
  · exact .refl _
  · exact h

end Outcome

namespace Batch

variable {b : Batch} {done : Nat} {o o' : Outcome} {noise : Datagram → Prop} {net : Network}
  {mud : Prop}

/-- Outcomes of the same number of attempts, the same but for mud. -/
structure Level (b : Batch) (mud : Prop) (done : Nat) (o o' : Outcome) : Prop where
  tallied : Tallied b done o
  tallied' : Tallied b done o'
  same : o.SameBut mud o'

theorem Level.countSendFailure (h : Level b mud done o o') (hd : done < b.attempts.toNat) :
    Level b mud (done + 1) o.countSendFailure o'.countSendFailure := by
  refine ⟨h.tallied.countSendFailure hd, h.tallied'.countSendFailure hd, ?_⟩
  rcases h.same with rfl | ⟨hmud, hm⟩
  · exact .inl rfl
  · exact .inr ⟨hmud, hm.attempts, congrArg (· + 1) hm.sendFailures, hm.addressMatches, hm.observed,
      hm.sum, hm.moved⟩

/-- No counter overflows, since none exceeds the number of attempts. -/
theorem muddied_count (h : Tallied b done o) (h' : Tallied b done o') (hd : done < b.attempts.toNat)
    (hm : o.Muddied o') {r r' : Reading} (hr : SameReading True r r') :
    (b.count o r).Muddied (b.count o' r') := by
  obtain ⟨hattempts, hsendFailures, hmatches, hobserved, hsum, hmoved⟩ := hm
  have hc := h.counted
  have hc' := h'.counted
  have htimeouts := Tallied.toNat_succ (b := b) (n := o.timeouts) (by omega)
  have htimeouts' := Tallied.toNat_succ (b := b) (n := o'.timeouts) (by omega)
  have hfailures := Tallied.toNat_succ (b := b) (n := o.decodeFailures) (by omega)
  have hfailures' := Tallied.toNat_succ (b := b) (n := o'.decodeFailures) (by omega)
  rcases hr with rfl | ⟨rfl, rfl, -⟩
  · cases r' with
    | reply m =>
      refine ⟨hattempts, hsendFailures, ?_, ?_, hsum, hmoved⟩
      · simp only [count, Outcome.countReply, hmatches]
      · simp only [count, Outcome.countReply, hobserved]
    | onlyUndecodable =>
      refine ⟨hattempts, hsendFailures, hmatches, hobserved, ?_, ?_⟩ <;>
        simp only [count, Outcome.countDecodeFailure] <;> omega
    | nothing =>
      refine ⟨hattempts, hsendFailures, hmatches, hobserved, ?_, hmoved⟩
      simp only [count, Outcome.countTimeout]
      omega
  · refine ⟨hattempts, hsendFailures, hmatches, hobserved, ?_, ?_⟩ <;>
      simp only [count, Outcome.countDecodeFailure, Outcome.countTimeout] <;> omega

theorem Level.count (h : Level b mud done o o') (hd : done < b.attempts.toNat) {r r' : Reading}
    (hr : SameReading mud r r') : Level b mud (done + 1) (b.count o r) (b.count o' r') := by
  refine ⟨h.tallied.count hd r, h.tallied'.count hd r', ?_⟩
  have hmuddied : (b.count o r).Muddied (b.count o' r') :=
    muddied_count h.tallied h.tallied' hd h.same.muddied
      (hr.imp_right fun ⟨hr, hr', _⟩ => ⟨hr, hr', trivial⟩)
  rcases h.same, hr with ⟨rfl | ⟨hmud, -⟩, rfl | ⟨-, -, hmud⟩⟩
  · exact .inl rfl
  · exact .inr ⟨hmud, hmuddied⟩
  · exact .inr ⟨hmud, hmuddied⟩
  · exact .inr ⟨hmud, hmuddied⟩

variable (hf : PassesOver noise mud b.filter)

include hf

theorem attempt_paired (h : Level b mud done o o') (hd : done < b.attempts.toNat) :
    Paired noise net mud (Level b mud (done + 1)) (b.attempt o) (b.attempt o') := by
  refine .bind (.perform trivial) ?_
  intro sent sent' hsent
  obtain rfl : sent' = sent := hsent
  cases sent' with
  | false => exact .pure (h.countSendFailure hd)
  | true => exact .bind (.perform hf) fun r r' hr => .pure (h.count hd hr)

theorem attemptTimes_paired {n : Nat} (h : Level b mud done o o') (hd : done + n ≤ b.attempts.toNat) :
    Paired noise net mud (Level b mud (done + n)) (b.attemptTimes n o) (b.attemptTimes n o') := by
  induction n generalizing done o o' with
  | zero => exact .pure h
  | succ n ih =>
    refine .bind (attempt_paired hf h (by omega)) ?_
    intro o₁ o₁' h₁
    have hrest := ih h₁ (by omega)
    rwa [Nat.add_assoc, Nat.add_comm 1] at hrest

theorem run_paired : Paired noise net mud (Outcome.SameBut mud) b.run b.run := by
  have hstart : Level b mud 0 (.start b.attempts) (.start b.attempts) :=
    ⟨.start b, .start b, .inl rfl⟩
  exact (attemptTimes_paired hf hstart (Nat.le_of_eq (Nat.zero_add _))).mono fun _ _ h => h.same

end Batch

end NatBehaviour.Probe

namespace NatBehaviour.Discovery

open NatBehaviour.Net (Ip Endpoint)
open NatBehaviour.Network (Action Noisier Program SocketAddress World)
open NatBehaviour.Network.World (PassesOver)
open NatBehaviour.Network.Program (Paired)
open NatBehaviour.Probe (Batch Datagram Filter Outcome)
open NatBehaviour.Responder (restrictingRelay)
open NatBehaviour.Wire (Kind Listeners Message Role received)

/-! ## What stays the same -/

/-- Findings that differ in their outcomes only. -/
structure Finding.Related (R : Outcome → Outcome → Prop) (f f' : Finding) : Prop where
  step : f'.step = f.step
  outcomes : List.Forall₂ R f.outcomes f'.outcomes
  verdict : f'.verdict = f.verdict

structure Course.Related (R : Outcome → Outcome → Prop) (c c' : Course) : Prop where
  findings : List.Forall₂ (Finding.Related R) c.findings c'.findings
  classification : c'.classification = c.classification

structure Client.Trail.Related (R : Outcome → Outcome → Prop) (t t' : Client.Trail) : Prop where
  localAddress : t'.localAddress = t.localAddress
  course : t.course.Related R t'.course

/-- Reports that differ in the outcomes of their findings only. -/
structure Report.Related (R : Outcome → Outcome → Prop) (r r' : Report) : Prop where
  runId : r'.runId = r.runId
  startedAtMs : r'.startedAtMs = r.startedAtMs
  elapsedMs : r'.elapsedMs = r.elapsedMs
  localAddress : r'.localAddress = r.localAddress
  findings : List.Forall₂ (Finding.Related R) r.findings r'.findings
  classification : r'.classification = r.classification

/-- The same failure, or results that belong together. -/
inductive Attempted.Related {α : Type} (R : α → α → Prop) : Attempted α → Attempted α → Prop
  | error (f : Failure) : Related R (.error f) (.error f)
  | ok {a a' : α} (h : R a a') : Related R (.ok a) (.ok a')

variable {R S : Outcome → Outcome → Prop}

theorem Finding.Related.mono (hRS : ∀ o o', R o o' → S o o') {f f' : Finding} (h : f.Related R f') :
    f.Related S f' := ⟨h.step, h.outcomes.imp hRS, h.verdict⟩

theorem Report.Related.mono (hRS : ∀ o o', R o o' → S o o') {r r' : Report} (h : r.Related R r') :
    r.Related S r' :=
  ⟨h.runId, h.startedAtMs, h.elapsedMs, h.localAddress, h.findings.imp fun _ _ hf => hf.mono hRS,
    h.classification⟩

theorem Report.Related.eq {r r' : Report} (h : r.Related (fun o o' => o' = o) r') : r' = r := by
  have hfindings : r'.findings = r.findings := by
    have hall := h.findings
    generalize r.findings = fs, r'.findings = fs' at hall
    induction hall with
    | nil => rfl
    | @cons f f' _ _ hf _ ih =>
      obtain ⟨step, outcomes, verdict⟩ := f
      obtain ⟨step', outcomes', verdict'⟩ := f'
      obtain ⟨hstep, houtcomes, hverdict⟩ := hf
      simp only at hstep houtcomes hverdict
      have hsame : outcomes' = outcomes := by
        induction houtcomes with
        | nil => rfl
        | cons ho _ ih => rw [ho, ih]
      rw [ih, hstep, hverdict, hsame]
  obtain ⟨runId, startedAtMs, elapsedMs, localAddress, findings, classification⟩ := r
  obtain ⟨h₁, h₂, h₃, h₄, -, h₅⟩ := h
  cases r'
  simp_all

theorem Course.Related.after {step : Step} {os os' : List Outcome} {verdict : String} {c c' : Course}
    (hos : List.Forall₂ R os os') (h : c.Related R c') :
    (c.after step os verdict).Related R (c'.after step os' verdict) :=
  ⟨.cons ⟨rfl, hos, rfl⟩ h.findings, h.classification⟩

theorem Course.Related.concluded {step : Step} {os os' : List Outcome} {verdict : String}
    {k : Classification} (hos : List.Forall₂ R os os') :
    (Course.concluded step os verdict k).Related R (.concluded step os' verdict k) :=
  ⟨.cons ⟨rfl, hos, rfl⟩ .nil, rfl⟩

/-! ## Both runs, step by step -/

variable {noise : Datagram → Prop} {net : Network} {mud : Prop}

theorem withSocket_paired {α : Type} {R : α → α → Prop} {ip : Ip} {port : UInt16}
    {use : SocketAddress → Program (Attempted α)}
    (hu : ∀ socket, Paired noise net mud (Attempted.Related R) (use socket) (use socket)) :
    Paired noise net mud (Attempted.Related R) (withSocket ip port use) (withSocket ip port use) := by
  have hbind : Paired noise net mud (fun r r' => r' = r) (bindProbeSocket ip port)
      (bindProbeSocket ip port) := by
    refine .bind (.perform trivial) ?_
    intro r r' hr
    obtain rfl : r' = r := hr
    cases r' with
    | error e => exact .pure rfl
    | ok socket => exact .pure rfl
  refine .bind hbind ?_
  rintro _ r rfl
  cases r with
  | error f => exact .pure (.error f)
  | ok socket =>
    refine .bind (hu socket) ?_
    intro result result' hresult
    have hclose : (Action.close socket).PassesOver noise mud := trivial
    refine .bind (.perform hclose) ?_
    intro _ _ _
    exact .pure hresult

namespace Session

variable {s : Session} (hs : ∀ role, PassesOver noise mud (.only (s.server.get role)))

include hs

theorem batch_paired (socket : SocketAddress) (kind : Kind) (expected : Role) :
    Paired noise net mud (Outcome.SameBut mud) (s.batch socket kind expected).run
      (s.batch socket kind expected).run :=
  Batch.run_paired (hs expected)

theorem portRestriction_paired :
    Paired noise net mud (Course.Related (Outcome.SameBut mud)) s.portRestriction
      s.portRestriction := by
  refine .bind (batch_paired hs s.socket .portRestrictedCheck .tertiary) ?_
  intro o o' ho
  rw [Outcome.gotReply, Outcome.gotReply, ho.muddied.observed]
  split
  · exact .pure (.concluded (.cons ho .nil))
  · exact .pure (.concluded (.cons ho .nil))

theorem firewall_paired :
    Paired noise net mud (Course.Related (Outcome.SameBut mud)) s.firewall s.firewall := by
  refine .bind (batch_paired hs s.socket .publicCheck .secondary) ?_
  intro o o' ho
  rw [Outcome.gotReply, Outcome.gotReply, ho.muddied.observed]
  split
  · exact .pure (.concluded (.cons ho .nil))
  · exact .pure (.concluded (.cons ho .nil))

theorem observeMappings_paired :
    Paired noise net mud
      (Attempted.Related fun a a' => Outcome.SameBut mud a.1 a'.1 ∧ Outcome.SameBut mud a.2 a'.2)
      s.observeMappings s.observeMappings := by
  refine withSocket_paired ?_
  intro second
  refine .bind (batch_paired hs s.socket .ping .primary) ?_
  intro a a' ha
  refine .bind (batch_paired hs second .ping .primary) ?_
  intro b b' hb
  exact .pure (.ok ⟨ha, hb⟩)

theorem symmetric_paired :
    Paired noise net mud (Attempted.Related (Course.Related (Outcome.SameBut mud))) s.symmetric
      s.symmetric := by
  refine .bind (observeMappings_paired hs) ?_
  intro r r' hr
  cases hr with
  | error f => exact .pure (.error f)
  | @ok a a' h =>
    obtain ⟨first, second⟩ := a
    obtain ⟨first', second'⟩ := a'
    obtain ⟨hfirst, hsecond⟩ : first.SameBut mud first' ∧ second.SameBut mud second' := h
    have hcompare : compareMappings first' second' = compareMappings first second := by
      rw [compareMappings, compareMappings, Outcome.firstObserved?, Outcome.firstObserved?,
        hfirst.muddied.observed, hsecond.muddied.observed]
      rfl
    dsimp only
    rw [hcompare]
    split
    · exact .bind (portRestriction_paired hs) fun c c' hc =>
        .pure (.ok (hc.after (.cons hfirst (.cons hsecond .nil))))
    · exact .pure (.ok (.concluded (.cons hfirst (.cons hsecond .nil))))

theorem fullCone_paired :
    Paired noise net mud (Attempted.Related (Course.Related (Outcome.SameBut mud))) s.fullCone
      s.fullCone := by
  refine .bind (batch_paired hs s.socket .fullConeCheck .secondary) ?_
  intro o o' ho
  rw [Outcome.gotReply, Outcome.gotReply, ho.muddied.observed]
  split
  · exact .pure (.ok (.concluded (.cons ho .nil)))
  · refine .bind (symmetric_paired hs) ?_
    intro r r' hr
    cases hr with
    | error f => exact .pure (.error f)
    | ok hc => exact .pure (.ok (hc.after (.cons ho .nil)))

theorem reachability_paired :
    Paired noise net mud (Attempted.Related (Course.Related (Outcome.SameBut mud))) s.reachability
      s.reachability := by
  refine .bind (batch_paired hs s.socket .ping .primary) ?_
  intro o o' ho
  have hm := ho.muddied
  have hmatched : o'.everyAttemptMatched = o.everyAttemptMatched := by
    simp only [Outcome.everyAttemptMatched, hm.attempts, hm.addressMatches]
  have hfailed : o'.allSendsFailed = o.allSendsFailed := by
    simp only [Outcome.allSendsFailed, hm.attempts, hm.sendFailures]
  have hsilence : silence o' = silence o := by rw [silence, silence, hfailed]
  rw [Outcome.gotReply, Outcome.gotReply, hm.observed, hmatched, hsilence]
  split
  · exact .pure (.ok (.concluded (.cons ho .nil)))
  split
  · exact .bind (firewall_paired hs) fun c c' hc => .pure (.ok (hc.after (.cons ho .nil)))
  · refine .bind (fullCone_paired hs) ?_
    intro r r' hr
    cases hr with
    | error f => exact .pure (.error f)
    | ok hc => exact .pure (.ok (hc.after (.cons ho .nil)))

end Session

namespace Client

variable {c : Client}

theorem outboundIp_paired (server : Endpoint) :
    Paired noise net mud (fun r r' => r' = r) (outboundIp server) (outboundIp server) := by
  dsimp only [outboundIp]
  refine .bind (.perform trivial) ?_
  intro r r' hr
  obtain rfl : r' = r := hr
  cases r' with
  | error e => exact .pure rfl
  | ok socket =>
    refine .bind (.perform trivial) ?_
    intro ip ip' hip
    obtain rfl : ip' = ip := hip
    have hclose : (Action.close socket).PassesOver noise mud := trivial
    refine .bind (.perform hclose) ?_
    intro _ _ _
    exact .pure rfl

theorem takeSteps_paired {server : Listeners Endpoint} {localIp : Ip}
    (hs : ∀ role, PassesOver noise mud (.only (server.get role))) :
    Paired noise net mud (Attempted.Related (Trail.Related (Outcome.SameBut mud)))
      (c.takeSteps server localIp) (c.takeSteps server localIp) := by
  refine withSocket_paired ?_
  intro socket
  refine .bind (Session.reachability_paired (s := ⟨c.settings, socket, localIp, server⟩) hs) ?_
  intro r r' hr
  cases hr with
  | error f => exact .pure (.error f)
  | ok hc => exact .pure (.ok ⟨rfl, hc⟩)

variable
  (hpass : ∀ primary,
    preferred? (net.resolve c.settings.serverHost c.settings.ports.primary) = some primary →
      ∀ role, PassesOver noise mud (.only ((c.listenersAt primary).get role)))

include hpass

theorem trail_paired :
    Paired noise net mud (Attempted.Related (Trail.Related (Outcome.SameBut mud))) c.trail
      c.trail := by
  have hunreachable (verdict : String) :
      (Trail.unreachable verdict).Related (Outcome.SameBut mud) (.unreachable verdict) :=
    ⟨rfl, .concluded .nil⟩
  have hserver : Paired noise net mud
      (fun r r' => r' = r ∧
        r = (preferred? (net.resolve c.settings.serverHost c.settings.ports.primary)).map
          c.listenersAt)
      c.resolveServer c.resolveServer := by
    refine .bind (.perform trivial) ?_
    rintro r r' ⟨hr, hr'⟩
    rw [hr', hr]
    exact .pure ⟨rfl, rfl⟩
  refine .bind hserver ?_
  rintro _ server ⟨rfl, hserver⟩
  cases server with
  | none => exact .pure (.ok (hunreachable _))
  | some listeners =>
    obtain ⟨primary, hprimary, rfl⟩ := Option.map_eq_some_iff.mp hserver.symm
    refine .bind (outboundIp_paired _) ?_
    rintro _ ip rfl
    rcases ip with f | _ | localIp
    · exact .pure (.error f)
    · exact .pure (.ok (hunreachable _))
    · exact takeSteps_paired (hpass primary hprimary)

theorem run_paired (stamp : Stamp) :
    Paired noise net mud (Attempted.Related (Report.Related (Outcome.SameBut mud))) (c.run stamp)
      (c.run stamp) := by
  refine .bind (.perform trivial) ?_
  intro start start' hstart
  obtain rfl : start' = start := hstart
  refine .bind (trail_paired hpass) ?_
  intro t t' ht
  cases ht with
  | error f => exact .pure (.error f)
  | ok h =>
    refine .bind (.perform trivial) ?_
    intro stop stop' hstop
    obtain rfl : stop' = stop := hstop
    exact .pure
      (.ok ⟨rfl, rfl, rfl, h.localAddress, h.course.findings, h.course.classification⟩)

omit hpass

/-! ## What noise can do -/

/-- A filter for one source ignores what comes from others. -/
theorem passesOver_of_source {x : Endpoint} (h : ∀ d, noise d → x ≠ d.source) :
    PassesOver noise mud (.only x) := by
  intro d hd
  refine .inl ?_
  rw [Filter.judge, if_neg]
  simpa [Filter.accepts] using (h d hd).symm

/-- No filter finds a reply in what does not decode. -/
theorem passesOver_of_garbage (h : ∀ d, noise d → ∀ m, Message.decode d.payload ≠ .ok m)
    (f : Filter) : PassesOver noise True f := by
  intro d hd
  unfold Filter.judge
  split
  · split
    · rename_i reply hdecode
      exact absurd (Message.decode_received_eq_ok_iff.mp hdecode) (h d hd reply)
    · exact .inr ⟨rfl, trivial⟩
  · exact .inl rfl

/-- A network that delivers noise in addition, at any times, does not steer a run. Noise from other
sources than the listeners changes nothing. Noise that does not decode leaves all of the report as it
was, but that attempts may count as decode failures which would else have been timeouts. -/
theorem run_noisy {net' : Network} {w w' : World} (stamp : Stamp) (hnet : Noisier noise net net')
    (hw : w.Noisy noise w') :
    ((∀ d, noise d → ∀ primary,
        preferred? (net.resolve c.settings.serverHost c.settings.ports.primary) = some primary →
          ∀ role, (c.listenersAt primary).get role ≠ d.source) →
      ((c.run stamp).run net' w').1 = ((c.run stamp).run net w).1) ∧
    ((∀ d, noise d → ∀ m, Message.decode d.payload ≠ .ok m) →
      Attempted.Related (Report.Related Outcome.Muddied) ((c.run stamp).run net w).1
        ((c.run stamp).run net' w').1) := by
  constructor
  · intro hsource
    have hpass (primary : Endpoint)
        (hprimary : preferred? (net.resolve c.settings.serverHost c.settings.ports.primary) =
          some primary) (role : Role) :
        PassesOver noise False (.only ((c.listenersAt primary).get role)) :=
      passesOver_of_source fun d hd => hsource d hd primary hprimary role
    have hrelated := ((run_paired hpass stamp).run hnet hw).1
    generalize ((c.run stamp).run net w).1 = r, ((c.run stamp).run net' w').1 = r' at hrelated
    cases hrelated with
    | error f => rfl
    | ok h =>
      have hsame := h.mono (S := fun o o' => o' = o) fun o o' ho => ho.resolve_right And.left
      rw [hsame.eq]
  · intro hgarbage
    have hpass (primary : Endpoint)
        (_ : preferred? (net.resolve c.settings.serverHost c.settings.ports.primary) = some primary)
        (role : Role) : PassesOver noise True (.only ((c.listenersAt primary).get role)) :=
      passesOver_of_garbage hgarbage _
    have hrelated := ((run_paired hpass stamp).run hnet hw).1
    generalize ((c.run stamp).run net w).1 = r, ((c.run stamp).run net' w').1 = r' at hrelated
    cases hrelated with
    | error f => exact .error f
    | ok h => exact .ok (h.mono fun o o' ho => ho.muddied)

/-- A network that answers every transmission with a stray datagram at once and with another one later,
besides its own answers. -/
def withStray (net : Network) (stray : Datagram) : Network :=
  { net with
    carry := fun log t =>
      (net.carry log t).map fun rs => ⟨0, t.source, stray⟩ :: (rs ++ [⟨20, t.source, stray⟩]) }

theorem noisier_withStray (net : Network) {stray : Datagram} (h : noise stray) :
    Noisier noise net (withStray net stray) := by
  refine ⟨rfl, rfl, rfl, ?_, rfl⟩
  intro log t
  unfold withStray
  dsimp only
  cases net.carry log t with
  | none => exact .none
  | some rs => exact .some (.add h ((Network.Padded.refl rs).append_add h))

/-- A ping that a stranger sends as a reply. -/
def stranger : Datagram :=
  ⟨.v4 ⟨198, 51, 100, 1⟩ 3478, (Message.reply .ping (.v4 ⟨198, 51, 100, 1⟩ 3478)).encode⟩

/-- Something from the primary listener that is no message. -/
def garbage : Datagram := ⟨.v4 .loopback 3478, [0]⟩

theorem run_noisy_withStray :
    ((default.run ⟨⟨0⟩, 0⟩).run (withStray (restrictingRelay [20]) stranger) (.start [])).1 =
        ((default.run ⟨⟨0⟩, 0⟩).run (restrictingRelay [20]) (.start [])).1 ∧
      Attempted.Related (Report.Related Outcome.Muddied)
        ((default.run ⟨⟨0⟩, 0⟩).run (restrictingRelay [20]) (.start [])).1
        ((default.run ⟨⟨0⟩, 0⟩).run (withStray (restrictingRelay [20]) garbage) (.start [])).1 := by
  constructor
  · have hnet : Noisier (· = stranger) (restrictingRelay [20])
        (withStray (restrictingRelay [20]) stranger) := noisier_withStray _ rfl
    refine (run_noisy ⟨⟨0⟩, 0⟩ hnet (World.noisy_start _ [])).1 ?_
    rintro _ rfl primary hprimary role
    have hresolved : preferred? ((restrictingRelay [20]).resolve default.settings.serverHost
        default.settings.ports.primary) = some (.v4 .loopback 3478) := by decide +kernel
    obtain rfl := Option.some.inj (hresolved.symm.trans hprimary)
    cases role <;> decide
  · have hnet : Noisier (· = garbage) (restrictingRelay [20])
        (withStray (restrictingRelay [20]) garbage) := noisier_withStray _ rfl
    refine (run_noisy ⟨⟨0⟩, 0⟩ hnet (World.noisy_start _ [])).2 ?_
    rintro _ rfl m hm
    have hfails : (Message.decode garbage.payload).toOption = none := by decide +kernel
    rw [hm] at hfails
    cases hfails

end Client

end NatBehaviour.Discovery
