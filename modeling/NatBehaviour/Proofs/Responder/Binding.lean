import NatBehaviour.Proofs.Network.Sockets
import NatBehaviour.Proofs.Responder.Relay
import NatBehaviour.Responder.Binding

/-!
Binding a responder is all or nothing. Its listeners are bound in turn; when one of them cannot be bound,
those before it are closed, and the world is what it was at first. Which listener is named as the one that
could not be bound follows from the settings and from the addresses in use.
-/

namespace NatBehaviour.Responder

open NatBehaviour.Net (Ip Endpoint)
open NatBehaviour.Network (Allots Exclusive InTurn Moment Program SocketAddress World)
open NatBehaviour.Wire (Listeners Role)

variable {net : Network} {w w' : World} {h : List Moment} {α : Type}

/-- The address that the settings have for a listener. -/
def configured (r : Settings.Responder) (role : Role) : Endpoint := .of r.bindIp (r.ports.get role)

theorem bindListener_runs {ip : Ip} {port : UInt16} {r : Except Failure SocketAddress}
    (hr : (bindListener ip port).Runs net w h r w') :
    (∃ e, w.bindSocket net (.of ip port) = (.error e, w') ∧
      r = .error (.bind (.listener (.of ip port) e))) ∨
    ∃ socket, w.bindSocket net (.of ip port) = (.ok socket, w') ∧ r = .ok socket := by
  obtain ⟨h₁, h₂, bound, w₁, rfl, hb, rest⟩ := hr.bind
  obtain ⟨rfl, hw⟩ := hb.perform
  cases bound with
  | error e =>
    obtain ⟨rfl, rfl, rfl⟩ := rest.pure
    exact .inl ⟨e, hw, rfl⟩
  | ok socket =>
    obtain ⟨rfl, rfl, rfl⟩ := rest.pure
    exact .inr ⟨socket, hw, rfl⟩

/-- What comes of binding listeners for some addresses: all of them are bound in turn, or one of them cannot
be bound and nothing has changed. -/
inductive AllOrNothing (net : Network) (w : World) (addresses : List Endpoint)
    (made : List SocketAddress → α → Prop) : Except Failure α → World → Prop
  | all {xs : List SocketAddress} {a : α} {w' : World} (bound : InTurn net w.inUse addresses xs)
      (result : made xs a) (opened : w' = w.opened xs) : AllOrNothing net w addresses made (.ok a) w'
  | nothing {front back : List Endpoint} {address : Endpoint} {xs : List SocketAddress} {e : OsError}
      (split : addresses = front ++ address :: back) (bound : InTurn net w.inUse front xs)
      (refused : net.bind (w.inUse ++ xs) address = .error e) :
      AllOrNothing net w addresses made (.error (.bind (.listener address e))) w

/-- One more listener in front: it is closed again if what follows fails. -/
theorem withListener_allOrNothing (hnet : Exclusive net) {ip : Ip} {port : UInt16}
    {next : SocketAddress → Program (Except Failure α)} {r : Except Failure α}
    {addresses : List Endpoint} {made : List SocketAddress → α → Prop}
    (hr : (withListener ip port next).Runs net w h r w')
    (hnext : ∀ {socket w₁ h₁ q w₂}, (next socket).Runs net w₁ h₁ q w₂ →
      AllOrNothing net w₁ addresses (fun xs a => made (socket :: xs) a) q w₂) :
    AllOrNothing net w (.of ip port :: addresses) made r w' := by
  obtain ⟨h₁, h₂, bound, w₁, rfl, hb, rest⟩ := hr.bind
  rcases bindListener_runs hb with ⟨e, hw, rfl⟩ | ⟨socket, hw, rfl⟩
  · obtain ⟨-, rfl, rfl⟩ := rest.pure
    obtain ⟨hrefused, rfl⟩ := World.bindSocket_refused hw
    rw [← List.append_nil w'.inUse] at hrefused
    exact .nothing (List.nil_append _).symm (.nil _) hrefused
  obtain ⟨hbound, rfl⟩ := World.bindSocket_opened hw
  obtain ⟨h₃, h₄, q, w₂, rfl, hq, hend⟩ := rest.bind
  have hafter := hnext hq
  cases hafter with
  | @all xs a w₂ hxs hmade hopened =>
    obtain ⟨-, rfl, rfl⟩ := hend.pure
    rw [World.inUse_opened] at hxs
    exact .all (.cons hbound hxs) hmade (hopened.trans (World.opened_cons w socket xs).symm)
  | @nothing front back address xs e hsplit hxs hrefused =>
    obtain ⟨h₅, h₆, u, w₃, rfl, hclose, hdone⟩ := hend.bind
    obtain ⟨-, hw₃⟩ := hclose.perform
    obtain ⟨-, rfl, rfl⟩ := hdone.pure
    have hfresh : socket ∉ w.addresses :=
      fun hmem => hnet.unused hbound (World.mem_inUse_of_mem_addresses hmem)
    obtain rfl : w = w' := (World.closeSocket_opened hfresh).symm.trans (congrArg Prod.snd hw₃)
    rw [World.inUse_opened] at hxs hrefused
    rw [List.append_assoc] at hrefused
    rw [hsplit]
    exact .nothing (List.cons_append ..).symm (.cons hbound hxs) hrefused

/-- The three listeners, in the order of their roles. -/
theorem bind_allOrNothing (hnet : Exclusive net) {r : Settings.Responder}
    {result : Except Failure (Listeners SocketAddress)} (hvalid : r.validate = .ok ())
    (hr : (bind r).Runs net w h result w') :
    AllOrNothing net w (Role.all.map (configured r)) (fun xs ls => xs = ls.toList) result w' := by
  unfold bind at hr
  rw [hvalid] at hr
  refine withListener_allOrNothing hnet hr fun hsecond => ?_
  refine withListener_allOrNothing hnet hsecond fun hthird => ?_
  refine withListener_allOrNothing hnet hthird fun hdone => ?_
  obtain ⟨-, rfl, rfl⟩ := hdone.pure
  exact .all (.nil _) rfl (World.opened_nil _).symm

/-- Listeners that are bound in turn have the address and the ports of the settings, and ports of their own
where the settings leave the choice to the system. -/
theorem listeners_of_inTurn (hnet : Allots net) {r : Settings.Responder} {ls : Listeners SocketAddress}
    {inUse : List Endpoint} (hls : InTurn net inUse (Role.all.map (configured r)) ls.toList) :
    (∀ role, ls.get role = .of r.bindIp (ls.get role).port ∧ (ls.get role).port ≠ 0 ∧
      (r.ports.get role ≠ 0 → (ls.get role).port = r.ports.get role)) ∧
    Function.Injective fun role => (ls.get role).port := by
  have heach : ∀ role, ls.get role = .of r.bindIp (ls.get role).port ∧ (ls.get role).port ≠ 0 ∧
      (r.ports.get role ≠ 0 → (ls.get role).port = r.ports.get role) := by
    have hallotted := hls.allotted hnet
    simp only [Role.all, List.map_cons, List.map_nil, Listeners.toList, List.forall₂_cons, configured,
      Endpoint.of_withPort, Endpoint.port_of] at hallotted
    obtain ⟨⟨hip, hport, hzero⟩, ⟨hip', hport', hzero'⟩, ⟨hip'', hport'', hzero''⟩, -⟩ := hallotted
    intro role
    cases role with
    | primary => exact ⟨hip, hzero, hport⟩
    | secondary => exact ⟨hip', hzero', hport'⟩
    | tertiary => exact ⟨hip'', hzero'', hport''⟩
  have hnodup := (hls.unused hnet.toExclusive).1
  refine ⟨heach, fun a b hports => ?_⟩
  have hsame : ls.get a = ls.get b := by
    rw [(heach a).1, (heach b).1]
    exact congrArg (Endpoint.of r.bindIp) hports
  simp only [Listeners.toList, List.nodup_cons, List.mem_cons, List.not_mem_nil, or_false, not_or] at hnodup
  cases a <;> cases b <;> grind [Listeners.get]

/-- Binding a responder comes to one of three ends. Settings that are not valid are refused before any socket
is touched, and only they are. Otherwise all listeners are bound, to the configured address, with different
ports, which are the configured ones where these are not zero; or the first one that cannot be bound, given
those before it, is named. No other socket is bound or closed, and a failure leaves everything as it was. -/
theorem bind_all_or_nothing {r : Settings.Responder} {result : Except Failure (Listeners SocketAddress)}
    (hnet : Allots net) (hr : (bind r).Runs net w h result w') :
    (∀ failure, r.validate = .error failure → result = .error failure ∧ h = []) ∧
    ((∃ fault, result = .error (.config fault)) ↔ r.validate ≠ .ok ()) ∧
    (∀ ls, result = .ok ls →
      w' = w.opened ls.toList ∧ InTurn net w.inUse (Role.all.map (configured r)) ls.toList ∧
      (∀ role, ls.get role = .of r.bindIp (ls.get role).port ∧ (ls.get role).port ≠ 0 ∧
        (r.ports.get role ≠ 0 → (ls.get role).port = r.ports.get role)) ∧
      Function.Injective fun role => (ls.get role).port) ∧
    (∀ fault, result = .error (.bind fault) →
      ∃ front role back xs e, Role.all = front ++ role :: back ∧
        InTurn net w.inUse (front.map (configured r)) xs ∧
        net.bind (w.inUse ++ xs) (configured r role) = .error e ∧
        fault = .listener (configured r role) e) ∧
    ∀ failure, result = .error failure → w' = w := by
  cases hvalid : r.validate with
  | error failure =>
    have hconfig : ∃ fault, failure = .config fault := by
      unfold Settings.Responder.validate at hvalid
      split at hvalid
      · cases hvalid
        exact ⟨_, rfl⟩
      · cases hvalid
    obtain ⟨fault, rfl⟩ := hconfig
    unfold bind at hr
    rw [hvalid] at hr
    obtain ⟨rfl, rfl, rfl⟩ := hr.pure
    refine ⟨?_, ?_, nofun, nofun, fun _ _ => rfl⟩
    · intro failure hfailure
      cases hfailure
      exact ⟨rfl, rfl⟩
    · exact ⟨fun _ => nofun, fun _ => ⟨fault, rfl⟩⟩
  | ok u =>
    have hends := bind_allOrNothing hnet.toExclusive hvalid hr
    cases hends with
    | @all xs ls w' hbound hmade hopened =>
      subst hmade
      refine ⟨nofun, ⟨nofun, fun hne => absurd rfl hne⟩, ?_, nofun, nofun⟩
      intro ls' hls
      cases hls
      exact ⟨hopened, hbound, listeners_of_inTurn hnet hbound⟩
    | @nothing front back address xs e hsplit hbound hrefused =>
      refine ⟨nofun, ⟨nofun, fun hne => absurd rfl hne⟩, nofun, ?_, fun _ _ => rfl⟩
      intro fault hfault
      cases hfault
      obtain ⟨roles, rest, hall, rfl, hrest⟩ := List.map_eq_append_iff.mp hsplit
      obtain ⟨role, back, rfl, rfl, rfl⟩ := List.map_eq_cons_iff.mp hrest
      exact ⟨roles, role, back, xs, e, hall, hbound, hrefused, rfl⟩

/-- On the loopback interface, with a fixed port for the secondary listener only. -/
def oneFixed (port : UInt16) : Settings.Responder :=
  { Settings.Responder.ephemeralLoopback with ports := ⟨0, port, 0⟩ }

/-- The system chooses other ports for the two other listeners; but it may have given the fixed port away
before. -/
theorem bind_all_or_nothing_oneFixed :
    (∃ h ls w', (bind (oneFixed 3479)).Runs (narrowHost.network fun _ _ => []) (.start []) h (.ok ls) w' ∧
      w' = (World.start []).opened ls.toList ∧ (ls.get .secondary).port = 3479 ∧
      (ls.get .primary).port ≠ (ls.get .tertiary).port) ∧
    ∃ h role e w', (bind (oneFixed 32768)).Runs (narrowHost.network fun _ _ => []) (.start []) h
        (.error (.bind (.listener (configured (oneFixed 32768) role) e))) w' ∧
      (configured (oneFixed 32768) role).port = 32768 ∧ w' = .start [] := by
  have hnet : Allots (narrowHost.network fun _ _ => []) :=
    Network.Host.allots_network narrowHost (by decide) _
  constructor
  · have hbound : ((bind (oneFixed 3479)).run (narrowHost.network fun _ _ => []) (.start [])).1 =
        .ok ⟨.v4 .loopback 32768, .v4 .loopback 3479, .v4 .loopback 32769⟩ := by decide +kernel
    obtain ⟨h, hr⟩ := Program.runs_of_run (Prod.ext hbound rfl)
    obtain ⟨-, -, hall, -, -⟩ := bind_all_or_nothing hnet hr
    obtain ⟨hopened, -, hlisteners, hports⟩ := hall _ rfl
    refine ⟨h, _, _, hr, hopened, (hlisteners .secondary).2.2 (by decide), fun hsame => ?_⟩
    cases hports hsame
  · have hrefused : ((bind (oneFixed 32768)).run (narrowHost.network fun _ _ => []) (.start [])).1 =
        .error (.bind (.listener (.v4 .loopback 32768) .addressInUse)) := by decide +kernel
    obtain ⟨h, hr⟩ := Program.runs_of_run (Prod.ext hrefused rfl)
    obtain ⟨-, -, -, hfault, hsame⟩ := bind_all_or_nothing hnet hr
    obtain ⟨front, role, back, xs, e, -, -, -, hlistener⟩ := hfault _ rfl
    obtain ⟨haddress, rfl⟩ := BindFault.listener.inj hlistener
    rw [haddress] at hr
    exact ⟨h, role, _, _, hr, by rw [← haddress]; rfl, hsame _ rfl⟩

end NatBehaviour.Responder
