import NatBehaviour.Network.Host
import NatBehaviour.Proofs.Network.Delivery
import NatBehaviour.Proofs.Network.Runs

/-!
What a run tries to send, and which replies it reads. The log of a world grows by exactly the transmissions
of the run, in their order. A run is `OneByOne` if nothing else happens between a transmission and the wait
for its reply; then the fate of each transmission is known before the next one.
-/

namespace NatBehaviour.Network

open NatBehaviour.Json (Bytes)
open NatBehaviour.Net (Endpoint)
open NatBehaviour.Probe (Filter Reading)
open NatBehaviour.Wire (Message)

/-- What a moment adds to the log. -/
def Moment.transmission? : Moment → Option (Transmission × Bool)
  | ⟨w, .send socket destination payload, sent⟩ =>
    some (⟨w.clock, socket, destination, payload⟩, sent)
  | _ => none

/-- Everything that a run tries to send, in order, and whether it was sent. -/
def transmissions (h : List Moment) : List (Transmission × Bool) := h.filterMap Moment.transmission?

/-- What a run tries to send: from where, to where and what. -/
def addressed (h : List Moment) : List (SocketAddress × Endpoint × Bytes) :=
  (transmissions h).map fun e => (e.1.source, e.1.destination, e.1.payload)

/-- The reply that a moment reads. -/
def Moment.reply? : Moment → Option Message
  | ⟨_, .await _ _ _, .reply m⟩ => some m
  | _ => none

/-- The replies that a run reads, in order. -/
def heard (h : List Moment) : List Message := h.filterMap Moment.reply?

@[simp] theorem heard_append (h h' : List Moment) : heard (h ++ h') = heard h ++ heard h' :=
  List.filterMap_append

@[simp] theorem transmissions_nil : transmissions [] = [] := rfl

@[simp] theorem transmissions_append (h h' : List Moment) :
    transmissions (h ++ h') = transmissions h ++ transmissions h' := List.filterMap_append

@[simp] theorem addressed_nil : addressed [] = [] := rfl

@[simp] theorem addressed_append (h h' : List Moment) :
    addressed (h ++ h') = addressed h ++ addressed h' := by
  simp [addressed]

theorem transmissions_cons_of_none {m : Moment} (hm : m.transmission? = none) (h : List Moment) :
    transmissions (m :: h) = transmissions h := List.filterMap_cons_none hm

theorem addressed_cons_of_none {m : Moment} (hm : m.transmission? = none) (h : List Moment) :
    addressed (m :: h) = addressed h := by
  rw [addressed, transmissions_cons_of_none hm, addressed]

theorem mem_addressed {h : List Moment} {e : Transmission × Bool} (he : e ∈ transmissions h) :
    (e.1.source, e.1.destination, e.1.payload) ∈ addressed h := List.mem_map_of_mem he

variable {net : Network}

/-- Only a send adds datagrams to a world. -/
theorem World.quiet_perform (w : World) (action : Action)
    (hsilent : Moment.transmission? ⟨w, action, (w.perform net action).1⟩ = none) :
    Quiet w (w.perform net action).2 := by
  cases action with
  | resolve host port => exact .refl w
  | bind address =>
    obtain ⟨r, w', hbind⟩ : ∃ r w', w.bindSocket net address = (r, w') := ⟨_, _, rfl⟩
    simp only [World.perform, hbind]
    exact World.quiet_bindSocket hbind
  | close socket => exact World.quiet_closeSocket w socket
  | route socket destination => exact .refl w
  | send socket destination payload => cases hsilent
  | await socket timeoutMs filter =>
    obtain ⟨r, w', hawait⟩ : ∃ r w', w.await net socket timeoutMs filter = (r, w') := ⟨_, _, rfl⟩
    simp only [World.perform, hawait]
    exact (World.await_sound hawait).1.toQuiet
  | clock => exact .refl w

theorem World.log_perform (w : World) (action : Action) :
    (w.perform net action).2.log =
      (Moment.transmission? ⟨w, action, (w.perform net action).1⟩).toList ++ w.log := by
  cases htransmission : Moment.transmission? ⟨w, action, (w.perform net action).1⟩ with
  | none => exact (World.quiet_perform w action htransmission).log
  | some e =>
    cases action with
    | send socket destination payload =>
      obtain rfl := Option.some.inj htransmission
      obtain ⟨sent, w', hsend⟩ : ∃ sent w', w.send net socket destination payload = (sent, w') :=
        ⟨_, _, rfl⟩
      simp only [World.perform, hsend]
      cases sent with
      | false =>
        rw [(World.send_false hsend).2]
        rfl
      | true =>
        obtain ⟨rs, -, hresponded⟩ := World.send_true hsend
        exact hresponded.log
    | _ => cases htransmission

/-- A run adds to the log just what it tries to send. -/
theorem Program.Runs.log {α : Type} {p : Program α} {w w' : World} {h : List Moment} {a : α}
    (hr : p.Runs net w h a w') : w'.log = (transmissions h).reverse ++ w.log := by
  induction hr with
  | done => rfl
  | @act action next w w' h a rest ih =>
    rw [ih, World.log_perform, transmissions, transmissions, List.filterMap_cons]
    cases Moment.transmission? ⟨w, action, (w.perform net action).1⟩ with
    | none => rfl
    | some e => simp

/-- A run that sends nothing adds no datagrams. -/
theorem Program.Runs.quiet {α : Type} {p : Program α} {w w' : World} {h : List Moment} {a : α}
    (hr : p.Runs net w h a w') (hsilent : transmissions h = []) : w.Quiet w' := by
  induction hr with
  | done => exact .refl _
  | @act action next w w' h a rest ih =>
    rw [transmissions, List.filterMap_cons] at hsilent
    cases htransmission : Moment.transmission? ⟨w, action, (w.perform net action).1⟩ with
    | none =>
      rw [htransmission] at hsilent
      exact (World.quiet_perform w action htransmission).trans (ih hsilent)
    | some e =>
      rw [htransmission] at hsilent
      cases hsilent

/-- A history in which the wait for a reply follows at once on every transmission that was sent: the next
transmission comes only after what the wait has read. -/
inductive OneByOne : List Moment → Prop
  | nil : OneByOne []
  | other {m : Moment} {h : List Moment} (silent : m.transmission? = none) (rest : OneByOne h) :
    OneByOne (m :: h)
  | refused {w : World} {socket : SocketAddress} {destination : Endpoint} {payload : Bytes}
      {h : List Moment} (rest : OneByOne h) :
    OneByOne (⟨w, .send socket destination payload, false⟩ :: h)
  | awaited {w w' : World} {socket : SocketAddress} {destination : Endpoint} {payload : Bytes}
      {timeoutMs : Nat} {filter : Filter} {reading : Reading} {h : List Moment} (rest : OneByOne h) :
    OneByOne (⟨w, .send socket destination payload, true⟩ ::
      ⟨w', .await socket timeoutMs filter, reading⟩ :: h)

theorem OneByOne.append {h h' : List Moment} (hh : OneByOne h) (hh' : OneByOne h') :
    OneByOne (h ++ h') := by
  induction hh with
  | nil => exact hh'
  | other silent _ ih => exact .other silent ih
  | refused _ ih => exact .refused ih
  | awaited _ ih => exact .awaited ih

/-- What every system does: a name stands for addresses with the port that was asked for, and nothing can
be sent to port 0. -/
structure Orderly (net : Network) : Prop where
  port : ∀ {host port e}, e ∈ net.resolve host port → e.port = port
  unsendable : ∀ {log t}, t.destination.port = 0 → net.carry log t = none

theorem Host.orderly_network (host : Host)
    (answer : List (Transmission × Bool) → Transmission → List Response) :
    Orderly (host.network answer) where
  port := by
    intro name port e he
    obtain ⟨ip, -, rfl⟩ := List.mem_map.mp he
    cases ip <;> rfl
  unsendable := by
    intro log t ht
    simp [Host.network, Host.canSend, ht]

/-- What is sent in an orderly system does not go to port 0. -/
theorem Program.Runs.sent_port {α : Type} {p : Program α} {w w' : World} {h : List Moment} {a : α}
    (hnet : Orderly net) (hr : p.Runs net w h a w') {t : Transmission} (ht : (t, true) ∈ transmissions h) :
    t.destination.port ≠ 0 := by
  induction hr with
  | done => cases ht
  | @act action next w w' h a rest ih =>
    obtain ⟨m, hm, hmt⟩ := List.mem_filterMap.mp ht
    rcases List.mem_cons.mp hm with rfl | hm
    · cases action with
      | send socket destination payload =>
        obtain ⟨rfl, hsent⟩ := Prod.mk.inj (Option.some.inj hmt)
        have hsend : w.send net socket destination payload =
            (true, (w.send net socket destination payload).2) := Prod.ext hsent rfl
        obtain ⟨rs, hcarry, -⟩ := World.send_true hsend
        intro hzero
        cases (hnet.unsendable hzero).symm.trans hcarry
      | _ => cases hmt
    · exact ih (List.mem_filterMap.mpr ⟨m, hm, hmt⟩)

end NatBehaviour.Network
