import Mathlib.Data.List.Forall2
import NatBehaviour.Proofs.Network.Transmissions

/-!
Sockets that are bound and closed. A system never gives an address that is in use to another socket, so that
closing a socket restores exactly what was there before it was bound. Several sockets may be bound in turn,
each of them given those before it.
-/

namespace NatBehaviour.Network

open NatBehaviour.Net (Endpoint)

/-- No socket gets an address that is in use. -/
structure Exclusive (net : Network) : Prop where
  unused : ∀ {inUse address x}, net.bind inUse address = .ok x → x ∉ inUse

/-- What every system does when it binds a socket: it keeps the address, and the port as well unless that is
zero, which stands for any other port. -/
structure Allots (net : Network) : Prop extends Exclusive net where
  address : ∀ {inUse address x}, net.bind inUse address = .ok x → x = address.withPort x.port
  port : ∀ {inUse address x}, net.bind inUse address = .ok x → address.port ≠ 0 → x.port = address.port
  port_ne_zero : ∀ {inUse address x}, net.bind inUse address = .ok x → x.port ≠ 0

namespace Host

theorem conflicts_self (e : Endpoint) : conflicts e e = true := by
  have hcovers : covers e.ip.canonical e.ip.canonical = true := by
    cases e.ip.canonical <;> simp [covers]
  simp [conflicts, hcovers]

theorem not_mem_of_isFree {inUse : List Endpoint} {e : Endpoint} (h : isFree inUse e = true) :
    e ∉ inUse := by
  intro he
  have hconflict := List.all_eq_true.mp h e he
  rw [conflicts_self] at hconflict
  cases hconflict

theorem allots_network (host : Host) (hports : 0 ∉ host.ephemeral)
    (answer : List (Transmission × Bool) → Transmission → List Response) :
    Allots (host.network answer) := by
  have hbind {inUse : List Endpoint} {address x : Endpoint}
      (h : host.bind inUse address = .ok x) : ∃ port, x = address.withPort port ∧ x ∉ inUse ∧
        port ∈ if address.port = 0 then host.ephemeral else [address.port] := by
    unfold bind at h
    split at h
    · cases h
    · simp only [choosePort] at h
      split at h
      · rename_i port hfind
        cases h
        exact ⟨port, rfl, not_mem_of_isFree (by simpa using List.find?_some hfind),
          List.mem_of_find?_eq_some hfind⟩
      · cases h
  refine ⟨⟨?_⟩, ?_, ?_, ?_⟩
  · intro inUse address x h
    obtain ⟨port, -, hunused, -⟩ := hbind h
    exact hunused
  · intro inUse address x h
    obtain ⟨port, rfl, -, -⟩ := hbind h
    rw [Endpoint.port_withPort]
  · intro inUse address x h hfixed
    obtain ⟨port, rfl, -, hmem⟩ := hbind h
    rw [if_neg hfixed, List.mem_singleton] at hmem
    rw [Endpoint.port_withPort, hmem]
  · intro inUse address x h
    obtain ⟨port, rfl, -, hmem⟩ := hbind h
    rw [Endpoint.port_withPort]
    split at hmem
    · exact fun hzero => hports (hzero ▸ hmem)
    · rename_i hfixed
      rwa [List.mem_singleton.mp hmem]

end Host

namespace World

variable {net : Network} {w w' : World} {address : Endpoint} {x : SocketAddress}

/-- The same world with more sockets, which have just been bound. -/
def opened (w : World) (xs : List SocketAddress) : World :=
  { w with sockets := w.sockets ++ xs.map (⟨·, []⟩) }

@[simp] theorem opened_nil (w : World) : w.opened [] = w := by
  simp [opened]

theorem opened_cons (w : World) (x : SocketAddress) (xs : List SocketAddress) :
    w.opened (x :: xs) = (w.opened [x]).opened xs := by
  simp [opened]

@[simp] theorem inUse_opened (w : World) (xs : List SocketAddress) :
    (w.opened xs).inUse = w.inUse ++ xs := by
  simp [inUse, opened, Function.comp_def]

theorem mem_inUse_of_mem_addresses (h : x ∈ w.addresses) : x ∈ w.inUse :=
  List.mem_append_right w.taken h

theorem bindSocket_opened (h : w.bindSocket net address = (.ok x, w')) :
    net.bind w.inUse address = .ok x ∧ w' = w.opened [x] := by
  unfold bindSocket at h
  split at h
  · cases h
  · rename_i hbound
    cases h
    exact ⟨hbound, rfl⟩

theorem bindSocket_refused {e : OsError} (h : w.bindSocket net address = (.error e, w')) :
    net.bind w.inUse address = .error e ∧ w' = w := by
  unfold bindSocket at h
  split at h
  · rename_i hrefused
    cases h
    exact ⟨hrefused, rfl⟩
  · cases h

theorem erase_append_singleton {xs : List SocketAddress} (hx : x ∉ xs) : (xs ++ [x]).erase x = xs := by
  rw [List.erase_append_right _ hx, List.erase_cons_head, List.append_nil]

/-- A socket that is closed as soon as it has been bound leaves no trace. -/
theorem closeSocket_opened (hx : x ∉ w.addresses) : (w.opened [x]).closeSocket x = w := by
  have hsockets : (w.sockets ++ [Socket.mk x []]).eraseP (·.address = x) = w.sockets := by
    rw [List.eraseP_append_right]
    · simp
    · intro s hs
      have hne : s.address ≠ x := fun heq => hx (heq ▸ List.mem_map_of_mem hs)
      simpa using hne
  simp only [closeSocket, opened, List.map_cons, List.map_nil, hsockets]

/-- Every action leaves the sockets of others alone and keeps what is on its way in order. -/
theorem perform_keeps (w : World) (action : Action) :
    (w.perform net action).2.taken = w.taken ∧ (w.Sorted → (w.perform net action).2.Sorted) := by
  cases htransmission : Moment.transmission? ⟨w, action, (w.perform net action).1⟩ with
  | none =>
    have hquiet := quiet_perform w action htransmission
    exact ⟨hquiet.taken, hquiet.sorted⟩
  | some e =>
    cases action with
    | send socket destination payload =>
      obtain ⟨sent, w', hsend⟩ : ∃ sent w', w.send net socket destination payload = (sent, w') :=
        ⟨_, _, rfl⟩
      simp only [perform, hsend]
      cases sent with
      | false =>
        rw [(send_false hsend).2]
        exact ⟨rfl, id⟩
      | true =>
        obtain ⟨rs, -, hresponded⟩ := send_true hsend
        exact ⟨hresponded.taken, hresponded.sorted⟩
    | _ => cases htransmission

end World

namespace Program

variable {α : Type} {p : Program α} {net : Network} {w w' : World} {h : List Moment} {a : α}

/-- A run neither binds nor closes sockets of others. -/
theorem Runs.taken (hr : p.Runs net w h a w') : w'.taken = w.taken := by
  induction hr with
  | done => rfl
  | act _ ih => exact ih.trans (World.perform_keeps _ _).1

theorem Runs.sorted (hr : p.Runs net w h a w') (hsorted : w.Sorted) : w'.Sorted := by
  induction hr with
  | done => exact hsorted
  | act _ ih => exact ih ((World.perform_keeps _ _).2 hsorted)

end Program

/-! ## Sockets bound in turn -/

/-- Sockets for some addresses, bound one after the other, each of them given those before it. -/
inductive InTurn (net : Network) : List Endpoint → List Endpoint → List SocketAddress → Prop
  | nil (inUse : List Endpoint) : InTurn net inUse [] []
  | cons {inUse addresses : List Endpoint} {address : Endpoint} {x : SocketAddress}
      {xs : List SocketAddress} (bound : net.bind inUse address = .ok x)
      (rest : InTurn net (inUse ++ [x]) addresses xs) : InTurn net inUse (address :: addresses) (x :: xs)

namespace InTurn

variable {net : Network} {inUse addresses : List Endpoint} {xs : List SocketAddress}

theorem unused (hnet : Exclusive net) (h : InTurn net inUse addresses xs) :
    xs.Nodup ∧ ∀ x ∈ xs, x ∉ inUse := by
  induction h with
  | nil inUse => exact ⟨.nil, fun _ hx => absurd hx List.not_mem_nil⟩
  | @cons inUse addresses address x xs bound rest ih =>
    obtain ⟨hnodup, hunused⟩ := ih
    refine ⟨List.nodup_cons.mpr ⟨fun hx => hunused x hx (by simp), hnodup⟩, ?_⟩
    intro y hy
    rcases List.mem_cons.mp hy with rfl | hy
    · exact hnet.unused bound
    · exact fun hmem => hunused y hy (List.mem_append_left _ hmem)

/-- Each socket is what was asked for. -/
theorem allotted (hnet : Allots net) (h : InTurn net inUse addresses xs) :
    List.Forall₂ (fun address x => x = address.withPort x.port ∧
      (address.port ≠ 0 → x.port = address.port) ∧ x.port ≠ 0) addresses xs := by
  induction h with
  | nil => exact .nil
  | cons bound _ ih => exact .cons ⟨hnet.address bound, hnet.port bound, hnet.port_ne_zero bound⟩ ih

end InTurn

end NatBehaviour.Network
