import NatBehaviour.Proofs.Discovery.Batches
import NatBehaviour.Proofs.Network.Unbound

/-!
The sockets of a discovery. A run closes each socket that it has bound, however it ends. All steps share one
socket. A second one is open only while the mappings of both are compared, so that what arrives for it at any
other time is lost.
-/

namespace NatBehaviour.Discovery

open NatBehaviour.Net (Ip Endpoint)
open NatBehaviour.Network (Exclusive Moment OnlyOpen Program SocketAddress World addressed)
open NatBehaviour.Probe (Batch Outcome)
open NatBehaviour.Responder (loopbackListeners narrowHost relay restrictingRelay)

variable {net : Network} {w w' : World} {h h' : List Moment} {xs : List SocketAddress}

theorem unused_of_bound (hnet : Exclusive net) {address : Endpoint} {x : SocketAddress}
    (h : w.bindSocket net address = (.ok x, w')) : x ∉ w.addresses :=
  fun hx => hnet.unused (World.bindSocket_opened h).1 (World.mem_inUse_of_mem_addresses hx)

/-! ## Steps -/

theorem batch_keepsSockets {b : Batch} {n : Nat} {o o' : Outcome}
    (hr : (b.attemptTimes n o).Runs net w h o' w') : ∀ m ∈ h, m.action.KeepsSockets := by
  induction n generalizing o w h with
  | zero =>
    obtain ⟨rfl, -, -⟩ := Batch.attemptTimes_runs_zero hr
    exact fun m hm => absurd hm List.not_mem_nil
  | succ n ih =>
    obtain ⟨h₁, h₂, o₁, w₁, rfl, hfirst, hrest⟩ := Batch.attemptTimes_runs_succ hr
    intro m hm
    rcases List.mem_append.mp hm with hm | hm
    · rcases Batch.attempt_runs hfirst with ⟨-, rfl, -⟩ | ⟨w₂, r, -, -, rfl, -⟩
      · obtain rfl := List.mem_singleton.mp hm
        trivial
      · rcases List.mem_pair.mp hm with rfl | rfl
        · trivial
        · trivial
    · exact ih hrest m hm

namespace Session

variable {s : Session} {step : Step} {steps : List Step} {os : List Outcome} {verdict : String}

/-- What sockets are open while some steps are taken. There is no other than the given ones, unless the steps
compare the mappings of two sockets: that begins with the binding of the second one and ends with its
closing, and what arrives for it before or after that is lost. -/
inductive Uses (net : Network) (s : Session) (xs : List SocketAddress) : List Moment → List Step → Prop
  | one {h : List Moment} {steps : List Step} (only : OnlyOpen net xs h)
      (single : .symmetricNat ∉ steps) (requests : addressed h = s.asks s.socket steps) :
      Uses net s xs h steps
  | two {front use back : List Moment} {w₁ w₂ : World} {second : SocketAddress} {earlier later : List Step}
      (fresh : second ∉ xs)
      (before : OnlyOpen net xs (front ++ [⟨w₁, .bind (.of s.localIp 0), .ok second⟩]))
      (during : OnlyOpen net (xs ++ [second]) (use ++ [⟨w₂, .close second, ()⟩]))
      (after : OnlyOpen net xs back)
      (single : .symmetricNat ∉ earlier ++ later)
      (asked : addressed front = s.asks second earlier)
      (compared : addressed use = s.asks second [.symmetricNat])
      (asks : addressed back = s.asks second later) :
      Uses net s xs (front ++ [⟨w₁, .bind (.of s.localIp 0), .ok second⟩] ++
        (use ++ [⟨w₂, .close second, ()⟩]) ++ back) (earlier ++ .symmetricNat :: later)

/-- A step with one socket in front of others. -/
theorem Uses.after (hstep : step ≠ .symmetricNat) (hopen : OnlyOpen net xs h)
    (hasks : ∀ second, addressed h = s.asks second [step]) (hrest : Uses net s xs h' steps) :
    Uses net s xs (h ++ h') (step :: steps) := by
  cases hrest with
  | one only single requests =>
    refine .one (hopen.append only) ?_ ?_
    · exact fun hmem => (List.mem_cons.mp hmem).elim hstep.symm single
    · rw [Network.addressed_append, hasks, requests, ← asks_cons]
  | @two front use back w₁ w₂ second earlier later fresh before during after single asked compared asks =>
    have hfront : addressed (h ++ front) = s.asks second (step :: earlier) := by
      rw [Network.addressed_append, hasks, asked, ← asks_cons]
    have hsingle : .symmetricNat ∉ step :: earlier ++ later :=
      fun hmem => (List.mem_cons.mp hmem).elim hstep.symm single
    have hbefore := hopen.append before
    rw [← List.append_assoc] at hbefore
    have htwo := Uses.two fresh hbefore during after hsingle hfront compared asks
    simpa only [List.append_assoc, List.cons_append] using htwo

theorem asks_concat (s : Session) (second : SocketAddress) (steps : List Step) (step : Step) :
    s.asks second (steps ++ [step]) = s.asks second steps ++ s.asks second [step] := by
  simp [asks, Discovery.asks]

/-- A step with one socket behind others. -/
theorem Uses.concat (huses : Uses net s xs h steps) (hstep : step ≠ .symmetricNat)
    (hopen : OnlyOpen net xs h') (hasks : ∀ second, addressed h' = s.asks second [step]) :
    Uses net s xs (h ++ h') (steps ++ [step]) := by
  cases huses with
  | one only single requests =>
    refine .one (only.append hopen) ?_ ?_
    · exact fun hmem => (List.mem_append.mp hmem).elim single fun hlast =>
        hstep (List.mem_singleton.mp hlast).symm
    · rw [Network.addressed_append, hasks, requests, ← asks_concat]
  | @two front use back w₁ w₂ second earlier later fresh before during after single asked compared asks =>
    have hback : addressed (back ++ h') = s.asks second (later ++ [step]) := by
      rw [Network.addressed_append, hasks, asks, ← asks_concat]
    have hsingle : .symmetricNat ∉ earlier ++ (later ++ [step]) := by
      rw [← List.append_assoc]
      exact fun hmem => (List.mem_append.mp hmem).elim single fun hlast =>
        hstep (List.mem_singleton.mp hlast).symm
    have htwo := Uses.two fresh before during (after.append hopen) hsingle asked compared hback
    simpa only [List.append_assoc, List.cons_append] using htwo

/-- A run of some steps leaves the sockets as they were, and fails only if a socket cannot be bound. -/
structure Restores (net : Network) (s : Session) (w : World) (h : List Moment) (w' : World)
    (steps : List Step) (r : Attempted Course) : Prop where
  uses : Uses net s w.addresses h steps
  addresses : w'.addresses = w.addresses
  findings : ∀ course, r = .ok course → course.findings.map (·.step) = steps
  failed : ∀ f, r = .error f → ∃ w₁ e, ⟨w₁, .bind (.of s.localIp 0), .error e⟩ ∈ h ∧
    f = .bind (.probe (.of s.localIp 0) e)

namespace Restores

theorem concluded {o : Outcome} (step : Step) (hstep : step ≠ .symmetricNat) (hsorted : w.Sorted)
    (hr : (s.probe step.kind step.expected).Runs net w h o w') (k : Classification) :
    Restores net s w h w' [step] (.ok (.concluded step os verdict k)) := by
  obtain ⟨hopen, haddresses⟩ := Program.Runs.onlyOpen hr hsorted (batch_keepsSockets hr)
  refine ⟨.one hopen ?_ (probe_sends step hstep hr s.socket).addressed, haddresses, ?_, nofun⟩
  · simpa using hstep.symm
  · intro course hcourse
    cases hcourse
    rfl

theorem after {o : Outcome} {w₁ : World} {q : Attempted Course} (step : Step) (hstep : step ≠ .symmetricNat)
    (hsorted : w.Sorted) (hr : (s.probe step.kind step.expected).Runs net w h o w₁)
    (hrest : Restores net s w₁ h' w' steps q) :
    Restores net s w (h ++ h') w' (step :: steps) (q.map (·.after step os verdict)) := by
  obtain ⟨hopen, haddresses⟩ := Program.Runs.onlyOpen hr hsorted (batch_keepsSockets hr)
  obtain ⟨huses, hsame, hfindings, hfailed⟩ := hrest
  rw [haddresses] at huses hsame
  refine ⟨.after hstep hopen (fun second => (probe_sends step hstep hr second).addressed) huses, hsame, ?_, ?_⟩
  · cases q with
    | error f => nofun
    | ok course =>
      intro c hc
      cases hc
      exact congrArg (step :: ·) (hfindings course rfl)
  · cases q with
    | error f =>
      intro f' hf
      cases hf
      obtain ⟨w₂, e, hm, he⟩ := hfailed f rfl
      exact ⟨w₂, e, List.mem_append_right h hm, he⟩
    | ok course => nofun

end Restores

theorem firewall_restores {c : Course} (hsorted : w.Sorted) (hr : s.firewall.Runs net w h c w') :
    Restores net s w h w' [.firewall] (.ok c) := by
  obtain ⟨o, ho, rfl⟩ := firewall_runs hr
  split
  · exact .concluded .firewall (by decide) hsorted ho _
  · exact .concluded .firewall (by decide) hsorted ho _

/-- The two batches of a comparison run with both sockets open, and with no other new one. -/
theorem compared_uses (hnet : Exclusive net) (hsorted : w.Sorted) {a b : Outcome}
    (hc : Compared net s w h a b w') :
    Uses net s w.addresses h [.symmetricNat] ∧ w'.addresses = w.addresses ∧ w'.Sorted := by
  obtain ⟨bound, first, other⟩ := hc
  rename_i second w₁ w₂ w₃ h₁ h₂
  have hfresh := unused_of_bound hnet bound
  have hopened := (World.bindSocket_ok bound).2
  have hsorted₁ : w₁.Sorted := (World.quiet_bindSocket bound).sorted hsorted
  obtain ⟨hfirst, h₂₁⟩ := Program.Runs.onlyOpen first hsorted₁ (batch_keepsSockets first)
  have hsorted₂ := Program.Runs.sorted first hsorted₁
  obtain ⟨hother, h₃₂⟩ := Program.Runs.onlyOpen other hsorted₂ (batch_keepsSockets other)
  have hsorted₃ := Program.Runs.sorted other hsorted₂
  have hclose : OnlyOpen net w₃.addresses [⟨w₃, .close second, ()⟩] := .single hsorted₃ rfl
  rw [h₃₂, h₂₁, hopened] at hclose
  rw [h₂₁, hopened] at hother
  rw [hopened] at hfirst
  have hrequests : addressed (h₁ ++ h₂) = s.asks second [.symmetricNat] := by
    rw [asks, asks_symmetricNat]
    exact ((attemptTimes_sends first).append (attemptTimes_sends other)).addressed
  refine ⟨?_, ?_, (World.quiet_closeSocket w₃ second).sorted hsorted₃⟩
  · have htwo : Uses net s w.addresses ([] ++ [⟨w, .bind (.of s.localIp 0), .ok second⟩] ++
        (h₁ ++ h₂ ++ [⟨w₃, .close second, ()⟩]) ++ []) ([] ++ .symmetricNat :: []) :=
      .two hfresh (.single hsorted bound) ((hfirst.append hother).append hclose) .nil (by simp) rfl hrequests
        rfl
    simpa using htwo
  · rw [World.addresses_closeSocket, h₃₂, h₂₁, hopened, World.erase_append_singleton hfresh]

theorem symmetric_restores (hnet : Exclusive net) (hsorted : w.Sorted) {r : Attempted Course}
    (hr : s.symmetric.Runs net w h r w') :
    ∃ steps ∈ [[], [.symmetricNat], [.symmetricNat, .portRestriction]], Restores net s w h w' steps r := by
  rcases symmetric_runs hr with ⟨e, hb, rfl, rfl⟩ | ⟨a, b, w₁, h₁, h₂, rfl, hc, hpath⟩
  · obtain ⟨-, rfl⟩ := World.bindSocket_refused hb
    refine ⟨[], by simp, .one (.single hsorted hb) (by simp) rfl, rfl, nofun, ?_⟩
    intro f hf
    cases hf
    exact ⟨w', e, List.mem_cons_self, rfl⟩
  obtain ⟨huses, haddresses, hsorted₁⟩ := compared_uses hnet hsorted hc
  rcases hpath with ⟨-, c, hp, rfl⟩ | ⟨verdict, -, rfl, rfl, rfl⟩
  · obtain ⟨o, ho, -⟩ := portRestriction_runs hp
    obtain ⟨hopen, hsame⟩ := Program.Runs.onlyOpen ho hsorted₁ (batch_keepsSockets ho)
    rw [haddresses] at hopen hsame
    have hasks (second : SocketAddress) :=
      (probe_sends .portRestriction (by decide) ho second).addressed
    refine ⟨_, by simp, huses.concat (by decide) hopen hasks, hsame, ?_, nofun⟩
    intro course hcourse
    cases hcourse
    exact congrArg (Step.symmetricNat :: ·) ((portRestriction_takes hp s.socket).findings c rfl)
  · rw [List.append_nil]
    refine ⟨[.symmetricNat], by simp, huses, haddresses, ?_, nofun⟩
    intro course hcourse
    cases hcourse
    rfl

theorem fullCone_restores (hnet : Exclusive net) (hsorted : w.Sorted) {r : Attempted Course}
    (hr : s.fullCone.Runs net w h r w') :
    ∃ steps ∈ [[.fullCone], [.fullCone, .symmetricNat], [.fullCone, .symmetricNat, .portRestriction]],
      Restores net s w h w' steps r := by
  obtain ⟨o, w₁, h₁, h₂, rfl, ho, ⟨-, rfl, rfl, rfl⟩ | ⟨-, q, hq, rfl⟩⟩ := fullCone_runs hr
  · rw [List.append_nil]
    exact ⟨[.fullCone], by simp, .concluded .fullCone (by decide) hsorted ho _⟩
  · obtain ⟨steps, hsteps, hrest⟩ := symmetric_restores hnet (Program.Runs.sorted ho hsorted) hq
    refine ⟨.fullCone :: steps, by simpa using hsteps, ?_⟩
    exact .after .fullCone (by decide) hsorted ho hrest

theorem reachability_restores (hnet : Exclusive net) (hsorted : w.Sorted) {r : Attempted Course}
    (hr : s.reachability.Runs net w h r w') : ∃ steps ∈ paths, Restores net s w h w' steps r := by
  obtain ⟨o, w₁, h₁, h₂, rfl, ho, hpath⟩ := reachability_runs hr
  have hsorted₁ : w₁.Sorted := Program.Runs.sorted ho hsorted
  rcases hpath with ⟨-, rfl, rfl, rfl⟩ | ⟨-, -, c, hc, rfl⟩ | ⟨-, -, q, hq, rfl⟩
  · rw [List.append_nil]
    exact ⟨[.reachability], by simp [paths], .concluded .reachability (by decide) hsorted ho _⟩
  · refine ⟨[.reachability, .firewall], by simp [paths], ?_⟩
    exact .after (q := .ok c) .reachability (by decide) hsorted ho (firewall_restores hsorted₁ hc)
  · obtain ⟨steps, hsteps, hrest⟩ := fullCone_restores hnet hsorted₁ hq
    refine ⟨.reachability :: steps, ?_, .after .reachability (by decide) hsorted ho hrest⟩
    simp only [paths, List.mem_cons, List.not_mem_nil, or_false] at hsteps ⊢
    grind

end Session

/-! ## Clients -/

namespace Client

variable {c : Client}

/-- What sockets are open while a run looks for the way to the server: none of its own, or one that is closed
again as soon as it has shown the way. -/
inductive Looks (net : Network) (xs : List SocketAddress) : List Moment → Prop
  | blindly {h : List Moment} (only : OnlyOpen net xs h) : Looks net xs h
  | around {front : List Moment} {w₁ w₂ w₃ : World} {primary : Endpoint} {socket : SocketAddress}
      {ip : Option Ip} (fresh : socket ∉ xs)
      (before : OnlyOpen net xs (front ++ [⟨w₁, .bind (routeAddress primary), .ok socket⟩]))
      (during : OnlyOpen net (xs ++ [socket]) [⟨w₂, .route socket primary, ip⟩, ⟨w₃, .close socket, ()⟩]) :
      Looks net xs (front ++ [⟨w₁, .bind (routeAddress primary), .ok socket⟩] ++
        [⟨w₂, .route socket primary, ip⟩, ⟨w₃, .close socket, ()⟩])

/-- What sockets are open in a run. Its first socket is open from before the first step until after the last
one. Nothing is sent or awaited outside of the steps. -/
inductive Uses (c : Client) (net : Network) (xs : List SocketAddress) :
    List Moment → Option SocketAddress → List Step → Prop
  | nothing {front back : List Moment} (looks : Looks net xs front) (after : OnlyOpen net xs back)
      (idle : ∀ m ∈ front ++ back, Idle m.action) : Uses c net xs (front ++ back) none []
  | steps {front walk back : List Moment} {w₁ w₂ : World} {primary : Endpoint} {localIp : Ip}
      {first : SocketAddress} {steps : List Step}
      (looks : Looks net xs front) (fresh : first ∉ xs)
      (bound : OnlyOpen net xs [⟨w₁, .bind (.of localIp c.settings.localPort), .ok first⟩])
      (walks : Session.Uses net ⟨c.settings, first, localIp, c.listenersAt primary⟩ (xs ++ [first]) walk steps)
      (path : steps ∈ paths)
      (closed : OnlyOpen net (xs ++ [first]) [⟨w₂, .close first, ()⟩])
      (after : OnlyOpen net xs back) (idle : ∀ m ∈ front ++ back, Idle m.action) :
      Uses c net xs (front ++ ⟨w₁, .bind (.of localIp c.settings.localPort), .ok first⟩ ::
        (walk ++ ⟨w₂, .close first, ()⟩ :: back)) (some first) steps

/-- A failure that names a socket which could not be bound: the one that shows the way to the server, or the
first or the second one to probe from. -/
inductive Fails (c : Client) (net : Network) (h : List Moment) : Failure → Prop
  | route {w : World} {primary : Endpoint} {e : OsError} (resolved : c.primary? net = some primary)
      (refused : ⟨w, .bind (routeAddress primary), .error e⟩ ∈ h) : Fails c net h (.bind (.route e))
  | probe {w : World} {primary : Endpoint} {localIp : Ip} {port : UInt16} {e : OsError}
      (resolved : c.primary? net = some primary) (routed : net.route primary = some localIp)
      (choice : port ∈ [c.settings.localPort, 0]) (refused : ⟨w, .bind (.of localIp port), .error e⟩ ∈ h) :
      Fails c net h (.bind (.probe (.of localIp port) e))

theorem Fails.mono {f : Failure} (hf : Fails c net h f) (hh : h ⊆ h') : Fails c net h' f := by
  cases hf with
  | route resolved refused => exact .route resolved (hh refused)
  | probe resolved routed choice refused => exact .probe resolved routed choice (hh refused)

theorem Looks.cons {m : Moment} (hm : OnlyOpen net xs [m]) (hl : Looks net xs h) : Looks net xs (m :: h) := by
  cases hl with
  | blindly only => exact .blindly (.cons hm only)
  | around fresh before during =>
    rw [← List.cons_append, ← List.cons_append]
    exact .around fresh (.cons hm before) during

/-- Idle moments at both ends of a run. -/
theorem Uses.extend {first? : Option SocketAddress} {steps : List Step} {m : Moment} {later : List Moment}
    (ho : Uses c net xs h first? steps) (hm : OnlyOpen net xs [m]) (hlater : OnlyOpen net xs later)
    (hidle : ∀ m' ∈ m :: later, Idle m'.action) : Uses c net xs (m :: (h ++ later)) first? steps := by
  have hidle' {front back : List Moment} (h : ∀ m' ∈ front ++ back, Idle m'.action) :
      ∀ m' ∈ (m :: front) ++ (back ++ later), Idle m'.action := by
    intro m' hm'
    simp only [List.cons_append, List.mem_cons, List.mem_append] at hm' h hidle
    grind
  cases ho with
  | nothing looks after idle =>
    rw [List.append_assoc, ← List.cons_append]
    exact .nothing (looks.cons hm) (after.append hlater) (hidle' idle)
  | steps looks fresh bound walks path closed after idle =>
    have hsteps := Uses.steps (looks.cons hm) fresh bound walks path closed (after.append hlater) (hidle' idle)
    simpa only [List.append_assoc, List.cons_append] using hsteps

theorem outboundIp_looks (hnet : Exclusive net) (hsorted : w.Sorted) {primary : Endpoint}
    {r : Attempted (Option Ip)} (hr : (outboundIp primary).Runs net w h r w') :
    Looks net w.addresses h ∧ w'.addresses = w.addresses ∧ (∀ m ∈ h, Idle m.action) ∧
      (∀ f, r = .error f → ∃ e, ⟨w, .bind (routeAddress primary), .error e⟩ ∈ h ∧ f = .bind (.route e)) ∧
      ∀ ip, r = .ok ip → ip = net.route primary := by
  rcases outboundIp_runs hr with ⟨e, hb, rfl, rfl⟩ | ⟨socket, w₁, hb, rfl, rfl, rfl⟩
  · obtain ⟨-, rfl⟩ := World.bindSocket_refused hb
    refine ⟨.blindly (.single hsorted hb), rfl, ?_, ?_, nofun⟩
    · simp [Idle]
    · intro f hf
      cases hf
      exact ⟨e, List.mem_cons_self, rfl⟩
  · have hfresh := unused_of_bound hnet hb
    have hopened := (World.bindSocket_ok hb).2
    have hsorted₁ : w₁.Sorted := (World.quiet_bindSocket hb).sorted hsorted
    have hroute : OnlyOpen net w₁.addresses [⟨w₁, .route socket primary, net.route primary⟩] :=
      .single hsorted₁ rfl
    have hclose : OnlyOpen net w₁.addresses [⟨w₁, .close socket, ()⟩] := .single hsorted₁ rfl
    have hduring := hroute.append hclose
    rw [hopened] at hduring
    have hlooks : Looks net w.addresses ([] ++ [⟨w, .bind (routeAddress primary), .ok socket⟩] ++
        [⟨w₁, .route socket primary, net.route primary⟩, ⟨w₁, .close socket, ()⟩]) :=
      .around hfresh (.single hsorted hb) hduring
    refine ⟨hlooks, ?_, ?_, nofun, ?_⟩
    · rw [World.addresses_closeSocket, hopened, World.erase_append_singleton hfresh]
    · simp [Idle]
    · intro ip hip
      cases hip
      rfl

/-- A run up to its trail leaves the sockets as they were, and fails only if one cannot be bound. -/
structure Restores (c : Client) (net : Network) (xs : List SocketAddress) (h : List Moment) (w' : World)
    (first? : Option SocketAddress) (steps : List Step) (r : Attempted Trail) : Prop where
  uses : Uses c net xs h first? steps
  addresses : w'.addresses = xs
  shown : ∀ t, r = .ok t → t.localAddress = first?.map Endpoint.text ∧
    (t.localAddress.isSome → t.course.findings.map (·.step) = steps)
  failed : ∀ f, r = .error f → Fails c net h f

theorem takeSteps_restores (hnet : Exclusive net) (hsorted : w.Sorted) {front : List Moment}
    (hlooks : Looks net w.addresses front) (hidle : ∀ m ∈ front, Idle m.action) {primary : Endpoint}
    {localIp : Ip} {r : Attempted Trail} (hprimary : c.primary? net = some primary)
    (hroute : net.route primary = some localIp)
    (hr : (c.takeSteps (c.listenersAt primary) localIp).Runs net w h r w') :
    ∃ first? steps, Restores c net w.addresses (front ++ h) w' first? steps r := by
  rcases takeSteps_runs hr with ⟨e, hb, rfl, rfl⟩ | ⟨first, w₁, h₁, q, w₂, hb, hq, rfl, rfl, rfl⟩
  · obtain ⟨-, rfl⟩ := World.bindSocket_refused hb
    refine ⟨none, [], .nothing hlooks (.single hsorted hb) ?_, rfl, nofun, ?_⟩
    · simpa [or_imp, forall_and, Idle] using hidle
    · intro f hf
      cases hf
      exact .probe hprimary hroute List.mem_cons_self (List.mem_append_right front List.mem_cons_self)
  have hfresh := unused_of_bound hnet hb
  have hopened := (World.bindSocket_ok hb).2
  have hsorted₁ : w₁.Sorted := (World.quiet_bindSocket hb).sorted hsorted
  obtain ⟨steps, hpath, huses, haddresses, hfindings, hfailed⟩ :=
    Session.reachability_restores hnet hsorted₁ hq
  have hclosed : OnlyOpen net w₂.addresses [⟨w₂, .close first, ()⟩] := .single (hq.sorted hsorted₁) rfl
  rw [haddresses, hopened] at hclosed
  rw [hopened] at huses
  refine ⟨some first, steps, ?_, ?_, ?_, ?_⟩
  · exact .steps hlooks hfresh (.single hsorted hb) huses hpath hclosed .nil (by simpa using hidle)
  · rw [World.addresses_closeSocket, haddresses, hopened, World.erase_append_singleton hfresh]
  · intro t ht
    cases q with
    | error f => cases ht
    | ok course =>
      cases ht
      exact ⟨rfl, fun _ => hfindings course rfl⟩
  · intro f hf
    cases q with
    | ok course => cases hf
    | error f' =>
      cases hf
      obtain ⟨w₃, e, hm, rfl⟩ := hfailed f rfl
      refine .probe hprimary hroute (by simp) (w := w₃) (List.mem_append_right front ?_)
      exact List.mem_cons_of_mem _ (List.mem_append_left _ hm)

theorem trail_restores (hnet : Exclusive net) (hsorted : w.Sorted) {r : Attempted Trail}
    (hr : c.trail.Runs net w h r w') :
    ∃ first? steps, Restores c net w.addresses h w' first? steps r := by
  obtain ⟨h₁, rfl, ⟨-, rfl, rfl, rfl⟩ | ⟨primary, hprimary, h₂, h₃, q, w₁, rfl, hout, hpath⟩⟩ :=
    trail_runs hr
  · have hresolve : OnlyOpen net w'.addresses [⟨w', .resolve c.settings.serverHost c.settings.ports.primary,
        net.resolve c.settings.serverHost c.settings.ports.primary⟩] := .single hsorted rfl
    refine ⟨none, [], .nothing (.blindly hresolve) .nil ?_, rfl, ?_, nofun⟩
    · simp [Idle]
    · intro t ht
      cases ht
      exact ⟨rfl, nofun⟩
  have hresolve : OnlyOpen net w.addresses [⟨w, .resolve c.settings.serverHost c.settings.ports.primary,
      net.resolve c.settings.serverHost c.settings.ports.primary⟩] := .single hsorted rfl
  obtain ⟨hlooks, haddresses, hidle, hfailed, hip⟩ := outboundIp_looks hnet hsorted hout
  have hlooks := hlooks.cons hresolve
  have hidle : ∀ m ∈ ⟨w, .resolve c.settings.serverHost c.settings.ports.primary,
      net.resolve c.settings.serverHost c.settings.ports.primary⟩ :: h₂, Idle m.action := by
    intro m hm
    rcases List.mem_cons.mp hm with rfl | hm
    · trivial
    · exact hidle m hm
  rcases hpath with ⟨f, rfl, rfl, rfl, rfl⟩ | ⟨rfl, rfl, rfl, rfl⟩ | ⟨localIp, rfl, hsteps⟩
  · refine ⟨none, [], .nothing hlooks .nil (by simpa using hidle), haddresses, nofun, ?_⟩
    intro f' hf
    cases hf
    obtain ⟨e, hm, rfl⟩ := hfailed f rfl
    rw [List.append_nil]
    exact .route hprimary (List.mem_cons_of_mem _ hm)
  · refine ⟨none, [], .nothing hlooks .nil (by simpa using hidle), haddresses, ?_, nofun⟩
    intro t ht
    cases ht
    exact ⟨rfl, nofun⟩
  · rw [← haddresses] at hlooks ⊢
    exact takeSteps_restores hnet (hout.sorted hsorted) hlooks hidle hprimary (hip _ rfl).symm hsteps

/-- A run leaves no socket behind, whatever the network does and however the run ends, and it fails only if a
socket cannot be bound. In between, its first socket is the only one of its own while it takes its steps, but
for the second one that is open while the mappings of both are compared. -/
theorem run_closes_sockets (hnet : Exclusive net) (hsorted : w.Sorted) {stamp : Stamp}
    {r : Attempted Report} (hr : (c.run stamp).Runs net w h r w') :
    w'.taken = w.taken ∧ w'.addresses = w.addresses ∧
    (∃ first? steps, Uses c net w.addresses h first? steps ∧
      ∀ report, r = .ok report → report.localAddress = first?.map Endpoint.text ∧
        (report.localAddress.isSome → report.steps = steps)) ∧
    ∀ f, r = .error f → Fails c net h f := by
  obtain ⟨t, h₁, h₂, ht, rfl, hend⟩ := run_runs hr
  obtain ⟨first?, steps, huses, haddresses, hshown, hfailed⟩ := trail_restores hnet hsorted ht
  have hstart : OnlyOpen net w.addresses [⟨w, .clock, w.clock⟩] := .single hsorted rfl
  refine ⟨hr.taken, haddresses, ⟨first?, steps, ?_, ?_⟩, ?_⟩
  · refine huses.extend hstart ?_ ?_
    · rcases hend with ⟨f, -, rfl, -⟩ | ⟨trail, -, rfl, -⟩
      · exact .nil
      · rw [← haddresses]
        exact .single (ht.sorted hsorted) rfl
    · rcases hend with ⟨f, -, rfl, -⟩ | ⟨trail, -, rfl, -⟩
      · simp [Idle]
      · simp [Idle]
  · intro report hreport
    rcases hend with ⟨f, -, -, rfl⟩ | ⟨trail, rfl, -, rfl⟩
    · cases hreport
    · cases hreport
      exact hshown trail rfl
  · intro f hf
    rcases hend with ⟨f', rfl, -, rfl⟩ | ⟨trail, -, -, rfl⟩
    · cases hf
      refine (hfailed f rfl).mono fun m hm => ?_
      exact List.mem_cons_of_mem _ (List.mem_append_left h₂ hm)
    · cases hf

/-- The same relay on a host with a single port to choose from. -/
def narrowestRelay : Network :=
  relay { narrowHost with ephemeral := [32768] } loopbackListeners (fun _ => .v4 ⟨203, 0, 113, 7⟩ 9)
    (fun _ _ role => role ≠ .secondary) [20]

/-- A run of all steps that can follow each other, and one that finds no port for its second socket. -/
theorem run_closes_sockets_restricted :
    (∃ h r w' first, (Client.default.run ⟨⟨0⟩, 0⟩).Runs (restrictingRelay [20]) (.start []) h r w' ∧
      w'.addresses = [] ∧ Uses Client.default (restrictingRelay [20]) [] h (some first)
        [.reachability, .fullCone, .symmetricNat, .portRestriction]) ∧
    ∃ h f w', (Client.default.run ⟨⟨0⟩, 0⟩).Runs narrowestRelay (.start []) h (.error f) w' ∧
      w'.addresses = [] ∧ Fails Client.default narrowestRelay h f := by
  have hsorted : (World.start []).Sorted := (World.punctual_start []).sorted
  constructor
  · have hnet : Exclusive (restrictingRelay [20]) :=
      (Network.Host.allots_network narrowHost (by decide) _).toExclusive
    have hresult : ((Client.default.run ⟨⟨0⟩, 0⟩).run (restrictingRelay [20]) (.start [])).1.toOption.map
        (fun report => (report.localAddress.isSome, report.steps)) =
          some (true, [.reachability, .fullCone, .symmetricNat, .portRestriction]) := by decide +kernel
    obtain ⟨report, w', hrun, hreport⟩ := exists_report hresult
    obtain ⟨hopened, hsteps⟩ := Prod.mk.inj hreport
    obtain ⟨h, hr⟩ := Program.runs_of_run hrun
    obtain ⟨-, haddresses, ⟨first?, steps, huses, hshown⟩, -⟩ := run_closes_sockets hnet hsorted hr
    obtain ⟨hlocal, hsame⟩ := hshown report rfl
    obtain rfl := (hsame hopened).symm.trans hsteps
    cases first? with
    | none =>
      rw [hlocal] at hopened
      cases hopened
    | some first => exact ⟨h, _, w', first, hr, haddresses, huses⟩
  · have hnet : Exclusive narrowestRelay :=
      (Network.Host.allots_network { narrowHost with ephemeral := [32768] } (by decide) _).toExclusive
    have hrefused : ((Client.default.run ⟨⟨0⟩, 0⟩).run narrowestRelay (.start [])).1 =
        .error (.bind (.probe (.v4 .loopback 0) .addressInUse)) := by decide +kernel
    obtain ⟨h, hr⟩ := Program.runs_of_run (Prod.ext hrefused rfl)
    obtain ⟨-, haddresses, -, hfailed⟩ := run_closes_sockets hnet hsorted hr
    exact ⟨h, _, _, hr, haddresses, hfailed _ rfl⟩

end Client

end NatBehaviour.Discovery
