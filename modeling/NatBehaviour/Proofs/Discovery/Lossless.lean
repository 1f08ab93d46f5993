import NatBehaviour.Proofs.Discovery.Explanation
import NatBehaviour.Proofs.Network.Queue
import NatBehaviour.Proofs.Probe.Attempts
import NatBehaviour.Proofs.Responder.Attribution

/-!
Discovery over a network that loses nothing but what it means to drop. Such a network is described by the
address under which the responder sees each socket and by the listeners whose replies get through; the
classification depends on nothing else. Datagrams that a step does not read, because they come from
another listener than it expects, stay behind for the next ones; they do no harm, since the replies of a
listener either all get through or none does.
-/

namespace NatBehaviour.Discovery

open NatBehaviour.Net (Ip Endpoint)
open NatBehaviour.Network (Host Moment Program Response SocketAddress Transmission World)
open NatBehaviour.Probe (Batch Filter Outcome Reading gotReply_iff gotReply_eq_false_iff)
open NatBehaviour.Responder (AnsweredFor Attributed Caused answer loopbackListeners narrowHost relay
  relayed replyPlan restrictingRelay)
open NatBehaviour.Wire (Kind Listeners Message Role)

/-- The classification of a host whose sockets are seen under some addresses, and which the replies of
some listeners reach. -/
def expectedClassification (seen : Endpoint → Endpoint) (passes : Role → Bool)
    (first second : SocketAddress) : Classification :=
  if !passes .primary then .unreachable
  else if seen first = first then
    if passes .secondary then .openInternet else .symmetricFirewall
  else if passes .secondary then .fullCone
  else if seen first ≠ seen second then .symmetricNat
  else if passes .tertiary then .restricted
  else .portRestricted

/-- What a network makes of a request: the replies of some listeners, each of them once, in time and to
where the request came from, and nothing else. -/
structure Conveyed (server : Listeners Endpoint) (source : Endpoint) (passes : Role → Bool)
    (timeoutMs : Nat) (t : Transmission) (rs : List Response) : Prop where
  back : ∀ r ∈ rs, r.destination = t.source
  timely : ∀ r ∈ rs, r.delay < timeoutMs
  replies : (rs.map (·.datagram)).Perm
    (((answer .primary source t.payload).filter (passes ·.role)).map
      fun s => ⟨server.get s.role, s.payload⟩)

/-- A network that loses no request of some clients. Which replies get through may depend on what was
sent before, and on the request. -/
structure Conveys (net : Network) (server : Listeners Endpoint) (clients : List SocketAddress)
    (seen : Endpoint → Endpoint) (passes : List (Transmission × Bool) → Transmission → Role → Bool)
    (timeoutMs : Nat) : Prop where
  conveyed : ∀ log t kind, t.source ∈ clients → t.destination = server.primary →
    t.payload = (Message.request kind).encode →
    ∃ rs, net.carry log t = some rs ∧ Conveyed server (seen t.source) (passes log t) timeoutMs t rs
  /-- No error keeps a client from reading the replies. -/
  readable : ∀ log, ∀ x ∈ clients, net.failure log x = none

/-- As long as nothing is sent but to the primary listener, the same listeners get through. -/
def Steady (server : Listeners Endpoint)
    (passes : List (Transmission × Bool) → Transmission → Role → Bool) (flags : Role → Bool) : Prop :=
  ∀ log t role, (∀ e ∈ log, e.1.destination = server.primary) → t.destination = server.primary →
    passes log t role = flags role

/-- The responder sees what is sent from a socket under one address. -/
abbrev SeenAs (seen : Endpoint → Endpoint) (t : Transmission) (source : Endpoint) : Prop :=
  source = seen t.source

section

variable {server : Listeners Endpoint} {t : Transmission} {source : Endpoint} {kind : Kind}
  {passes : Role → Bool} {timeoutMs : Nat} {rs : List Response}

theorem Conveyed.caused (h : Conveyed server source passes timeoutMs t rs)
    {seen : Endpoint → Endpoint} (hseen : source = seen t.source)
    (hdest : t.destination = server.primary) {r : Response} (hr : r ∈ rs) :
    ∃ role, passes role = true ∧ Caused server (SeenAs seen) t role r.datagram := by
  have hmem := h.replies.mem_iff.mp (List.mem_map_of_mem hr)
  obtain ⟨s, hs, hd⟩ := List.mem_map.mp hmem
  obtain ⟨hsent, hpasses⟩ := List.mem_filter.mp hs
  have hprimary : server.get .primary = t.destination := hdest.symm
  exact ⟨s.role, hpasses, hd ▸ .intro hseen hprimary hsent⟩

theorem Conveyed.reply (h : Conveyed server source passes timeoutMs t rs)
    (hpayload : t.payload = (Message.request kind).encode) {role : Role}
    (hplan : role ∈ replyPlan kind .primary) (hpasses : passes role = true) :
    ∃ r ∈ rs, r.datagram = ⟨server.get role, (Message.reply kind source).encode⟩ := by
  have hsent : ⟨role, source, (Message.reply kind source).encode⟩ ∈
      answer .primary source t.payload := by
    rw [hpayload, Responder.answer_request]
    exact List.mem_map.mpr ⟨role, hplan, rfl⟩
  have hmem := h.replies.mem_iff.mpr
    (List.mem_map_of_mem (List.mem_filter.mpr ⟨hsent, hpasses⟩))
  exact List.mem_map.mp hmem

end

/-- A relay that copies nothing and is fast enough loses nothing. -/
theorem relay_conveys {host : Host} {server : Listeners Endpoint} {clients : List SocketAddress}
    {seen : Endpoint → Endpoint} {passes : List (Transmission × Bool) → Transmission → Role → Bool}
    {delay timeoutMs : Nat} (hdelay : delay < timeoutMs)
    (hsend : ∀ time, ∀ x ∈ clients, host.canSend ⟨time, x, server.primary, []⟩ = true) :
    Conveys (relay host server seen passes [delay]) server clients seen passes timeoutMs := by
  refine ⟨fun log t kind hclient hdest hpayload => ?_, fun _ _ _ => rfl⟩
  have hcan : host.canSend t = true := by
    rw [Responder.canSend_request host hpayload, ← hsend t.time t.source hclient, ← hdest]
  refine ⟨relayed server (seen t.source) (passes log t) [delay] t, ?_, ?_⟩
  · simp only [relay, Host.network, hcan, hdest, if_true]
  · refine ⟨fun r hr => (Responder.mem_relayed hr).1, fun r hr => ?_, ?_⟩
    · rwa [List.mem_singleton.mp (Responder.mem_relayed hr).2.1]
    · rw [Responder.map_datagram_relayed]

theorem mem_all (kind : Kind) : kind ∈ Kind.all := by
  cases kind <;> decide

/-- The state of a run: what is known of the datagrams, and the sockets that are open. -/
structure Ready (server : Listeners Endpoint) (seen : Endpoint → Endpoint) (flags : Role → Bool)
    (taken addresses : List Endpoint) (w : World) : Prop where
  attributed : Attributed server (SeenAs seen) (flags · = true) Kind.all w
  sorted : w.Sorted
  taken : w.taken = taken
  addresses : w.addresses = addresses

namespace Ready

variable {server : Listeners Endpoint} {seen : Endpoint → Endpoint} {flags : Role → Bool}
  {taken addresses : List Endpoint} {net : Network} {w w' : World} {x address : Endpoint}

theorem start (taken : List Endpoint) : Ready server seen flags taken [] (.start taken) :=
  ⟨.start taken, List.Pairwise.nil, rfl, rfl⟩

theorem later (h : Ready server seen flags taken addresses w) (hl : w.Later w') :
    Ready server seen flags taken addresses w' :=
  ⟨h.attributed.quiet hl.toQuiet, hl.sorted h.sorted, hl.taken.trans h.taken,
    hl.addresses.trans h.addresses⟩

theorem bind (h : Ready server seen flags taken addresses w)
    (hb : w.bindSocket net address = (.ok x, w')) :
    net.bind (taken ++ addresses) address = .ok x ∧
      Ready server seen flags taken (addresses ++ [x]) w' := by
  have hq := World.quiet_bindSocket hb
  obtain ⟨hbind, haddresses⟩ := World.bindSocket_ok hb
  rw [h.taken, h.addresses] at hbind
  rw [h.addresses] at haddresses
  exact ⟨hbind, h.attributed.quiet hq, hq.sorted h.sorted, hq.taken.trans h.taken, haddresses⟩

theorem not_refused (h : Ready server seen flags taken addresses w) {e : OsError}
    (hbind : net.bind (taken ++ addresses) address = .ok x) :
    w.bindSocket net address ≠ (.error e, w') := by
  intro hb
  have herror := World.bindSocket_error hb
  rw [h.taken, h.addresses, hbind] at herror
  cases herror

theorem close (h : Ready server seen flags taken addresses w) (x : SocketAddress) :
    Ready server seen flags taken (addresses.erase x) (w.closeSocket x) := by
  have hq := World.quiet_closeSocket w x
  refine ⟨h.attributed.quiet hq, hq.sorted h.sorted, hq.taken.trans h.taken, ?_⟩
  rw [World.addresses_closeSocket, h.addresses]

/-- A request can be sent, and every reply that gets through is in time. -/
theorem send {sent : Bool} {kind : Kind} {rs : List Response} {timeoutMs : Nat}
    (h : Ready server seen flags taken addresses w) (hx : x ∈ addresses)
    (hcarry : net.carry w.log ⟨w.clock, x, server.primary, (Message.request kind).encode⟩ = some rs)
    (hconveyed : Conveyed server (seen x) flags timeoutMs
      ⟨w.clock, x, server.primary, (Message.request kind).encode⟩ rs)
    (hsend : w.send net x server.primary (Message.request kind).encode = (sent, w')) :
    sent = true ∧ Ready server seen flags taken addresses w' ∧
      ∀ role ∈ replyPlan kind .primary, flags role = true →
        w'.Pending x (w'.clock + timeoutMs)
          ⟨server.get role, (Message.reply kind (seen x)).encode⟩ := by
  cases sent with
  | false => cases (World.send_false hsend).1.symm.trans hcarry
  | true =>
    obtain ⟨rs', hcarry', hresponded⟩ := World.send_true hsend
    obtain rfl : rs' = rs := Option.some.inj (hcarry'.symm.trans hcarry)
    have hanswered : AnsweredFor net server (SeenAs seen) (flags · = true) w.log
        ⟨w.clock, x, server.primary, (Message.request kind).encode⟩ := by
      intro rs hrs r hr
      obtain rfl := Option.some.inj (hrs.symm.trans hcarry)
      obtain ⟨role, hpasses, hcaused⟩ := hconveyed.caused rfl rfl hr
      exact ⟨_, role, .inl rfl, hconveyed.back r hr, hpasses, hcaused⟩
    refine ⟨rfl, ⟨h.attributed.send (mem_all kind) hanswered hsend, hresponded.sorted h.sorted,
      hresponded.taken.trans h.taken, hresponded.addresses.trans h.addresses⟩, ?_⟩
    intro role hplan hpasses
    obtain ⟨r, hr, hreply⟩ := hconveyed.reply rfl hplan hpasses
    have hback : r.destination = x := hconveyed.back r hr
    have hopen : r.destination ∈ w.addresses := by rwa [hback, h.addresses]
    have hpending := hresponded.soon hr hopen (hconveyed.timely r hr)
    rwa [hback, hreply, ← hresponded.clock] at hpending

/-- A reply that is accepted from a listener says under which address the socket is seen, even if it
answers an earlier request. -/
theorem accepted {role : Role} {timeoutMs : Nat} {m : Message}
    (h : Ready server seen flags taken addresses w) (hserver : Function.Injective server.get)
    (hawait : w.await net x timeoutMs (.only (server.get role)) = (.reply m, w')) :
    flags role = true ∧ m.observed = some (seen x).text := by
  obtain ⟨d, hd, hj⟩ := (World.await_sound hawait).2 m rfl
  obtain ⟨t, kind, source, -, hsource, -, -, -, hseen, -, hpasses, rfl, -⟩ :=
    h.attributed.judged hserver hd hj
  have hsource : source = seen x := by rw [← hsource]; exact hseen
  exact ⟨hpasses, by rw [hsource]; rfl⟩

theorem hears {role : Role} {kind : Kind} {source : Endpoint} {timeoutMs : Nat} {r : Reading}
    (h : Ready server seen flags taken addresses w) (hx : x ∈ addresses) (hnet : net.failure w.log x = none)
    (hpending : w.Pending x (w.clock + timeoutMs) ⟨server.get role, (Message.reply kind source).encode⟩)
    (hawait : w.await net x timeoutMs (.only (server.get role)) = (r, w')) : ∃ m, r = .reply m := by
  have hjudge : (Filter.only (server.get role)).judge
      ⟨server.get role, (Message.reply kind source).encode⟩ = .usable (.reply kind source) := by
    simp [Filter.judge, Filter.accepts, Message.decode_reply]
  obtain ⟨m, hm⟩ := World.awaitUntil_reply (h.addresses.symm ▸ hx) h.sorted hpending hjudge
  rw [← World.await_of_no_failure hnet, hawait] at hm
  exact ⟨m, hm⟩

end Ready

/-! ## Batches -/

theorem Step.expected_mem_replyPlan (step : Step) : step.expected ∈ replyPlan step.kind .primary := by
  cases step <;> decide

section Batches

variable {s : Session} {clients : List SocketAddress} {seen : Endpoint → Endpoint}
  {passes : List (Transmission × Bool) → Transmission → Role → Bool} {flags : Role → Bool}
  {taken addresses : List Endpoint} {net : Network} {w w' : World} {h : List Moment} {step : Step}
  {o o' : Outcome} {x : SocketAddress}
  (hserver : Function.Injective s.server.get)
  (hnet : Conveys net s.server clients seen passes s.settings.timeoutMs.toNat)
  (hsteady : Steady s.server passes flags) (hclient : x ∈ clients)

include hserver hnet hsteady hclient

/-- An attempt observes the address under which its socket is seen, or nothing. -/
theorem attempt_lossless (hready : Ready s.server seen flags taken addresses w)
    (hx : x ∈ addresses)
    (hr : ((s.batch x step.kind step.expected).attempt o).Runs net w h o' w') :
    Ready s.server seen flags taken addresses w' ∧
      o'.observed = o.observed ++ if flags step.expected then [(seen x).text] else [] := by
  obtain ⟨rs, hcarry, hconveyed⟩ := hnet.conveyed w.log
    ⟨w.clock, x, s.server.primary, (Message.request step.kind).encode⟩ step.kind hclient rfl rfl
  have hflags : passes w.log ⟨w.clock, x, s.server.primary, (Message.request step.kind).encode⟩ =
      flags := by
    funext role
    exact hsteady _ _ role (fun e he => (hready.attributed.asked e he).1) rfl
  rw [hflags] at hconveyed
  rcases Batch.attempt_runs hr with ⟨hsend, -, -⟩ | ⟨w₁, r, hsend, hawait, -, rfl⟩
  · cases (hready.send hx hcarry hconveyed hsend).1
  obtain ⟨-, hready₁, hpending⟩ := hready.send hx hcarry hconveyed hsend
  refine ⟨hready₁.later (World.await_sound hawait).1, ?_⟩
  rw [Batch.observed_count]
  cases hflag : flags step.expected with
  | false =>
    cases r with
    | reply m => cases hflag.symm.trans (hready₁.accepted hserver hawait).1
    | onlyUndecodable => simp
    | nothing => simp
  | true =>
    -- The reply to this very attempt is in time, even if what is read is another one.
    have hexpected := hpending step.expected step.expected_mem_replyPlan hflag
    obtain ⟨m, rfl⟩ := hready₁.hears hx (hnet.readable w₁.log x hclient) hexpected hawait
    have hobserved : m.observed = some (seen x).text := (hready₁.accepted hserver hawait).2
    simp [hobserved]

theorem attemptTimes_lossless {n : Nat} (hready : Ready s.server seen flags taken addresses w)
    (hx : x ∈ addresses)
    (hr : ((s.batch x step.kind step.expected).attemptTimes n o).Runs net w h o' w') :
    Ready s.server seen flags taken addresses w' ∧ o'.observed = o.observed ++
      if flags step.expected then List.replicate n (seen x).text else [] := by
  induction n generalizing w h o with
  | zero =>
    obtain ⟨-, rfl, rfl⟩ := Batch.attemptTimes_runs_zero hr
    exact ⟨hready, by simp⟩
  | succ n ih =>
    obtain ⟨h₁, h₂, o₁, w₁, -, hfirst, hrest⟩ := Batch.attemptTimes_runs_succ hr
    obtain ⟨hready₁, hobserved₁⟩ := attempt_lossless hserver hnet hsteady hclient hready hx hfirst
    obtain ⟨hready₂, hobserved₂⟩ := ih hready₁ hrest
    refine ⟨hready₂, ?_⟩
    rw [hobserved₂, hobserved₁]
    split <;> simp [List.replicate_succ]

/-- A batch observes the address under which its socket is seen in every attempt, or never. -/
theorem batch_lossless (step : Step) (hready : Ready s.server seen flags taken addresses w)
    (hx : x ∈ addresses) (hr : (s.batch x step.kind step.expected).run.Runs net w h o w') :
    Ready s.server seen flags taken addresses w' ∧ o.observed =
      if flags step.expected then List.replicate s.settings.maxAttempts.toNat (seen x).text
      else [] :=
  attemptTimes_lossless hserver hnet hsteady hclient hready hx hr

end Batches

/-! ## Steps -/

theorem replicate_eq_nil_iff {n : UInt32} (hpos : n ≠ 0) (flag : Bool) (a : String) :
    (if flag then List.replicate n.toNat a else []) = [] ↔ flag = false := by
  have hne : n.toNat ≠ 0 := fun hzero => hpos (UInt32.toNat_inj.mp hzero)
  cases flag <;> simp [hne]

section Steps

variable {s : Session} {second : SocketAddress} {seen : Endpoint → Endpoint}
  {passes : List (Transmission × Bool) → Transmission → Role → Bool} {flags : Role → Bool}
  {taken : List Endpoint} {net : Network} {w w' : World} {h : List Moment}
  (hserver : Function.Injective s.server.get) (hpos : s.settings.maxAttempts ≠ 0)
  (hnet : Conveys net s.server [s.socket, second] seen passes s.settings.timeoutMs.toNat)
  (hsteady : Steady s.server passes flags)

include hserver hpos hnet hsteady

/-- A step of the first socket gets a reply just if the listener that it expects gets through. -/
theorem probe_lossless (step : Step) {addresses : List Endpoint} {o : Outcome}
    (hready : Ready s.server seen flags taken addresses w) (hx : s.socket ∈ addresses)
    (hr : (s.probe step.kind step.expected).Runs net w h o w') :
    Ready s.server seen flags taken addresses w' ∧ o.gotReply = flags step.expected ∧
      o.observed = if flags step.expected then
        List.replicate s.settings.maxAttempts.toNat (seen s.socket).text else [] := by
  obtain ⟨hready', hobserved⟩ :=
    batch_lossless hserver hnet hsteady List.mem_cons_self step hready hx hr
  refine ⟨hready', ?_, hobserved⟩
  have hnil := replicate_eq_nil_iff hpos (flags step.expected) (seen s.socket).text
  rw [← hobserved] at hnil
  cases hflag : flags step.expected with
  | false => exact gotReply_eq_false_iff.mpr (hnil.mpr hflag)
  | true => exact gotReply_iff.mpr fun he => by simp [hnil.mp he] at hflag

theorem portRestriction_lossless {c : Course}
    (hready : Ready s.server seen flags taken [s.socket] w)
    (hr : s.portRestriction.Runs net w h c w') :
    c.classification = if flags .tertiary then .restricted else .portRestricted := by
  obtain ⟨o, ho, rfl⟩ := Session.portRestriction_runs hr
  obtain ⟨-, hgot, -⟩ := probe_lossless hserver hpos hnet hsteady .portRestriction hready
    List.mem_cons_self ho
  rw [hgot, apply_ite Course.classification]
  rfl

theorem firewall_lossless {c : Course} (hready : Ready s.server seen flags taken [s.socket] w)
    (hr : s.firewall.Runs net w h c w') :
    c.classification = if flags .secondary then .openInternet else .symmetricFirewall := by
  obtain ⟨o, ho, rfl⟩ := Session.firewall_runs hr
  obtain ⟨-, hgot, -⟩ := probe_lossless hserver hpos hnet hsteady .firewall hready
    List.mem_cons_self ho
  rw [hgot, apply_ite Course.classification]
  rfl

/-- Both sockets observe the address under which they are seen. -/
theorem compared_lossless {a b : Outcome} (hprimary : flags .primary = true)
    (hbind : net.bind (taken ++ [s.socket]) (.of s.localIp 0) = .ok second)
    (hready : Ready s.server seen flags taken [s.socket] w)
    (hc : Session.Compared net s w h a b w') :
    Ready s.server seen flags taken [s.socket] w' ∧
      (SameMapping a b ↔ seen s.socket = seen second) := by
  obtain @⟨socket, w₁, w₂, w₃, h₁, h₂, _, _, hb, ha, ho⟩ := hc
  obtain ⟨hbound, hready₁⟩ := hready.bind hb
  obtain rfl : socket = second := Except.ok.inj (hbound.symm.trans hbind)
  obtain ⟨hready₂, hfirst⟩ := batch_lossless hserver hnet hsteady
    List.mem_cons_self .symmetricNat hready₁ List.mem_cons_self ha
  obtain ⟨hready₃, hother⟩ := batch_lossless hserver hnet hsteady
    (List.mem_cons_of_mem _ List.mem_cons_self) .symmetricNat hready₂
    (List.mem_cons_of_mem _ List.mem_cons_self) ho
  constructor
  · have herase : [s.socket, socket].erase socket = [s.socket] := by
      rw [List.erase_cons]
      split
      · rename_i he
        rw [LawfulBEq.eq_of_beq he]
      · simp
    exact herase ▸ hready₃.close socket
  · have hn : s.settings.maxAttempts.toNat ≠ 0 := fun hzero => hpos (UInt32.toNat_inj.mp hzero)
    have hflag : flags Step.symmetricNat.expected = true := hprimary
    rw [SameMapping, hfirst, hother, hflag]
    simp [List.head?_replicate, hn, Endpoint.text_eq_iff, eq_comm]

theorem symmetric_lossless {r : Attempted Course} (hprimary : flags .primary = true)
    (hbind : net.bind (taken ++ [s.socket]) (.of s.localIp 0) = .ok second)
    (hready : Ready s.server seen flags taken [s.socket] w) (hr : s.symmetric.Runs net w h r w') :
    ∃ c, r = .ok c ∧ c.classification =
      if seen s.socket ≠ seen second then .symmetricNat
      else if flags .tertiary then .restricted else .portRestricted := by
  rcases Session.symmetric_runs hr with ⟨e, hb, -, -⟩ | ⟨a, b, w₁, h₁, h₂, -, hc, hpath⟩
  · exact absurd hb (hready.not_refused hbind)
  obtain ⟨hready₁, hsame⟩ := compared_lossless hserver hpos hnet hsteady hprimary hbind hready hc
  rcases hpath with ⟨hok, c, hp, rfl⟩ | ⟨verdict, herror, -, -, rfl⟩
  · have hseen := hsame.mp (compareMappings_eq_ok_iff.mp hok)
    have hc := portRestriction_lossless hserver hpos hnet hsteady hready₁ hp
    exact ⟨_, rfl, by rw [if_neg fun hne => hne hseen]; exact hc⟩
  · have hseen : seen s.socket ≠ seen second :=
      fun he => not_sameMapping_of_error herror (hsame.mpr he)
    exact ⟨_, rfl, by rw [if_pos hseen]; rfl⟩

theorem fullCone_lossless {r : Attempted Course} (hprimary : flags .primary = true)
    (hbind : net.bind (taken ++ [s.socket]) (.of s.localIp 0) = .ok second)
    (hready : Ready s.server seen flags taken [s.socket] w) (hr : s.fullCone.Runs net w h r w') :
    ∃ c, r = .ok c ∧ c.classification =
      if flags .secondary then .fullCone
      else if seen s.socket ≠ seen second then .symmetricNat
      else if flags .tertiary then .restricted else .portRestricted := by
  obtain ⟨o, w₁, h₁, h₂, -, ho, hpath⟩ := Session.fullCone_runs hr
  obtain ⟨hready₁, hgot, -⟩ := probe_lossless hserver hpos hnet hsteady .fullCone hready
    List.mem_cons_self ho
  have hgot : o.gotReply = flags .secondary := hgot
  rcases hpath with ⟨hreply, -, -, rfl⟩ | ⟨hreply, q, hs, rfl⟩
  · exact ⟨_, rfl, by rw [if_pos (hgot.symm.trans hreply)]; rfl⟩
  · obtain ⟨c, rfl, hc⟩ :=
      symmetric_lossless hserver hpos hnet hsteady hprimary hbind hready₁ hs
    refine ⟨_, rfl, ?_⟩
    rw [← hgot, hreply, if_neg Bool.false_ne_true]
    exact hc

/-- The first step matches in full just if the first socket is seen under its own address. -/
theorem allMatched_iff {o : Outcome} (hprimary : flags .primary = true)
    (hready : Ready s.server seen flags taken [s.socket] w)
    (hr : (s.probe .ping .primary).Runs net w h o w') :
    AllMatched s.settings.maxAttempts s.socket.text o ↔ seen s.socket = s.socket := by
  obtain ⟨-, -, hobserved⟩ := probe_lossless hserver hpos hnet hsteady .reachability hready
    List.mem_cons_self hr
  have hn : s.settings.maxAttempts.toNat ≠ 0 := fun hzero => hpos (UInt32.toNat_inj.mp hzero)
  have hflag : flags Step.reachability.expected = true := hprimary
  rw [AllMatched, hobserved, if_pos hflag, List.replicate_inj, Endpoint.text_eq_iff]
  simp [hn]

/-- All steps together come to the classification that belongs to the network. -/
theorem reachability_lossless {r : Attempted Course}
    (hbind : net.bind (taken ++ [s.socket]) (.of s.localIp 0) = .ok second)
    (hready : Ready s.server seen flags taken [s.socket] w)
    (hr : s.reachability.Runs net w h r w') :
    ∃ c, r = .ok c ∧ c.classification = expectedClassification seen flags s.socket second := by
  obtain ⟨o, w₁, h₁, h₂, -, ho, hpath⟩ := Session.reachability_runs hr
  obtain ⟨hready₁, hgot, -⟩ := probe_lossless hserver hpos hnet hsteady .reachability hready
    List.mem_cons_self ho
  have hgot : o.gotReply = flags .primary := hgot
  have hmatched := Session.probe_allMatched_iff ho hpos
  rcases hpath with ⟨hsilent, -, -, rfl⟩ | ⟨hreply, hall, c, hf, rfl⟩ | ⟨hreply, hall, q, hf, rfl⟩
  · refine ⟨_, rfl, ?_⟩
    simp [expectedClassification, ← hgot, hsilent, Course.concluded]
  · have hprimary := hgot.symm.trans hreply
    have hown := allMatched_iff hserver hpos hnet hsteady hprimary hready ho
    refine ⟨_, rfl, ?_⟩
    have hc := firewall_lossless hserver hpos hnet hsteady hready₁ hf
    simp only [expectedClassification, hprimary, hown.mp (hmatched.mp hall)]
    exact hc
  · have hprimary := hgot.symm.trans hreply
    have hown := allMatched_iff hserver hpos hnet hsteady hprimary hready ho
    have hmapped : seen s.socket ≠ s.socket := by
      rw [Ne, ← hown, ← hmatched, hall]
      exact Bool.false_ne_true
    obtain ⟨c, rfl, hc⟩ := fullCone_lossless hserver hpos hnet hsteady hprimary hbind hready₁ hf
    refine ⟨_, rfl, ?_⟩
    simp only [expectedClassification, hprimary, hmapped]
    exact hc

end Steps

/-! ## Clients -/

namespace Client

/-- The host of a client in a network: the address of the server is known and there is a way to it, and
the sockets of a run can be bound. -/
structure Opens (c : Client) (net : Network) (taken : List Endpoint) (primary : Endpoint)
    (localIp : Ip) (first second : SocketAddress) : Prop where
  resolved : preferred? (net.resolve c.settings.serverHost c.settings.ports.primary) = some primary
  port : primary.port = c.settings.ports.primary
  routeSocket : ∃ socket, net.bind taken (routeAddress primary) = .ok socket
  route : net.route primary = some localIp
  firstBound : net.bind taken (.of localIp c.settings.localPort) = .ok first
  secondBound : net.bind (taken ++ [first]) (.of localIp 0) = .ok second

variable {c : Client} {stamp : Stamp} {net : Network} {taken : List Endpoint} {primary : Endpoint}
  {localIp : Ip} {first second : SocketAddress} {seen : Endpoint → Endpoint}
  {passes : List (Transmission × Bool) → Transmission → Role → Bool} {flags : Role → Bool}
  {w w' : World} {h : List Moment}

section

variable (hopens : c.Opens net taken primary localIp first second)
  (hports : ∀ p ∈ c.settings.ports.toList, p ≠ 0)
  (hnet : Conveys net (c.listenersAt primary) [first, second] seen passes
    c.settings.timeoutMs.toNat)
  (hsteady : Steady (c.listenersAt primary) passes flags)

include hopens in
theorem outboundIp_lossless {r : Attempted (Option Ip)}
    (hready : Ready (c.listenersAt primary) seen flags taken [] w)
    (hr : (outboundIp primary).Runs net w h r w') :
    r = .ok (some localIp) ∧ Ready (c.listenersAt primary) seen flags taken [] w' := by
  obtain ⟨socket, hbind⟩ := hopens.routeSocket
  rw [← List.append_nil taken] at hbind
  rcases outboundIp_runs hr with ⟨e, hb, -, -⟩ | ⟨socket', w₁, hb, -, rfl, rfl⟩
  · exact absurd hb (hready.not_refused hbind)
  · obtain ⟨-, hready₁⟩ := hready.bind hb
    have hclosed := hready₁.close socket'
    rw [List.nil_append, List.erase_cons_head] at hclosed
    exact ⟨by rw [hopens.route], hclosed⟩

include hopens hports hnet hsteady

theorem takeSteps_lossless {r : Attempted Trail}
    (hready : Ready (c.listenersAt primary) seen flags taken [] w)
    (hr : (c.takeSteps (c.listenersAt primary) localIp).Runs net w h r w') :
    ∃ t, r = .ok t ∧
      t.course.classification = expectedClassification seen flags first second := by
  have hbind := hopens.firstBound
  rw [← List.append_nil taken] at hbind
  rcases takeSteps_runs hr with ⟨e, hb, -, -⟩ | ⟨socket, w₁, h₁, q, w₂, hb, hq, -, rfl, -⟩
  · exact absurd hb (hready.not_refused hbind)
  obtain ⟨hbound, hready₁⟩ := hready.bind hb
  obtain rfl : socket = first := Except.ok.inj (hbound.symm.trans hbind)
  obtain ⟨course, rfl, hcourse⟩ := reachability_lossless
    (c.listenersAt_injective hopens.port hports) c.maxAttempts_ne_zero hnet hsteady hopens.secondBound
    hready₁ hq
  exact ⟨_, rfl, hcourse⟩

theorem trail_lossless {r : Attempted Trail}
    (hready : Ready (c.listenersAt primary) seen flags taken [] w) (hr : c.trail.Runs net w h r w') :
    ∃ t, r = .ok t ∧
      t.course.classification = expectedClassification seen flags first second := by
  obtain ⟨h₁, -, ⟨hnone, -⟩ | ⟨primary', hp, h₂, h₃, q, w₁, -, ho, hpath⟩⟩ := trail_runs hr
  · cases hnone.symm.trans hopens.resolved
  obtain rfl : primary' = primary := Option.some.inj (hp.symm.trans hopens.resolved)
  obtain ⟨rfl, hready₁⟩ := outboundIp_lossless hopens hready ho
  rcases hpath with ⟨f, hf, -⟩ | ⟨hnone, -⟩ | ⟨ip, hip, hsteps⟩
  · cases hf
  · cases hnone
  · cases hip
    exact takeSteps_lossless hopens hports hnet hsteady hready₁ hsteps

theorem run_lossless : ∃ report w', (c.run stamp).run net (.start taken) = (.ok report, w') ∧
    report.classification = expectedClassification seen flags first second := by
  obtain ⟨h, r, w', hruns⟩ : ∃ h r w', (c.run stamp).Runs net (.start taken) h r w' :=
    Program.exists_runs _ _
  obtain ⟨t, h₁, h₂, ht, -, hend⟩ := run_runs hruns
  obtain ⟨trail, rfl, hclassification⟩ :=
    trail_lossless hopens hports hnet hsteady (.start taken) ht
  rcases hend with ⟨f, hf, -⟩ | ⟨trail', htrail, -, rfl⟩
  · cases hf
  · cases htrail
    exact ⟨_, w', hruns.run, hclassification⟩

end

/-- Discovery against a responder over a network that loses no request, and no reply of the listeners that
get through, gives exactly the classification that belongs to the network. -/
theorem run_classifies (hopens : c.Opens net taken primary localIp first second)
    (hports : ∀ p ∈ c.settings.ports.toList, p ≠ 0)
    (hnet : Conveys net (c.listenersAt primary) [first, second] seen (fun _ _ => flags)
      c.settings.timeoutMs.toNat) :
    ∃ report w', (c.run stamp).run net (.start taken) = (.ok report, w') ∧
      report.classification = expectedClassification seen flags first second :=
  run_lossless hopens hports hnet fun _ _ _ _ _ => rfl

/-- A client on the loopback interface finds its responder, and the first free ports. -/
theorem opens_narrowHost {seen : Endpoint → Endpoint}
    {passes : List (Transmission × Bool) → Transmission → Role → Bool} {delays : List Nat} :
    Client.default.Opens (relay narrowHost loopbackListeners seen passes delays) []
      (.v4 .loopback 3478) (.v4 .loopback) (.v4 .loopback 32768) (.v4 .loopback 32769) :=
  ⟨rfl, rfl, ⟨.v4 .unspecified 32768, rfl⟩, rfl, rfl, rfl⟩

theorem canSend_narrowHost (time : Nat) (x : SocketAddress)
    (hx : x ∈ [Endpoint.v4 .loopback 32768, .v4 .loopback 32769]) :
    narrowHost.canSend ⟨time, x, loopbackListeners.primary, []⟩ = true := by
  rcases List.mem_cons.mp hx with rfl | hx
  · rfl
  · rw [List.mem_singleton.mp hx]
    rfl

/-- Replies may take almost as long as an attempt waits. -/
theorem run_classifies_restricted :
    ∃ report w', (Client.default.run ⟨⟨0⟩, 0⟩).run (restrictingRelay [4999]) (.start []) =
        (.ok report, w') ∧ report.classification = .restricted := by
  have hdelay : 4999 < Client.default.settings.timeoutMs.toNat := by decide
  exact run_classifies opens_narrowHost default_ports (relay_conveys hdelay canSend_narrowHost)

end Client

end NatBehaviour.Discovery
