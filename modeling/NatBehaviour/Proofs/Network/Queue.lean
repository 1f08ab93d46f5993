import NatBehaviour.Proofs.Network.Clock

/-!
The inbox of a socket is a queue. What arrives is put at its end, in the order of the times at which it is
due, and a client that waits takes from its front, up to the first usable datagram that is there or arrives in
time. A world delivers what is on its way when it is due, so that between one action and the next nothing is
left out and nothing is overtaken.
-/

namespace NatBehaviour.Network

open NatBehaviour.Json (Bytes)
open NatBehaviour.Net (Endpoint)
open NatBehaviour.Probe (Datagram Filter Reading)
open NatBehaviour.Wire (Message)

namespace World

variable {w w' w'' : World} {x : Endpoint} {f : Filter} {stop : Nat} {net : Network}

/-! ## What is due -/

/-- What is on its way is in order, and nothing of it is due yet. -/
structure Punctual (w : World) : Prop where
  sorted : w.Sorted
  pending : ∀ a ∈ w.arrivals, w.clock < a.due

theorem punctual_start (taken : List Endpoint) : (start taken).Punctual :=
  ⟨.nil, fun _ ha => absurd ha List.not_mem_nil⟩

theorem punctual_flush (w : World) {as : List Arrival} (h : as.Pairwise (·.due ≤ ·.due)) :
    (w.flush as).Punctual := by
  induction as generalizing w with
  | nil => exact ⟨.nil, fun _ ha => absurd ha List.not_mem_nil⟩
  | cons a later ih =>
    obtain ⟨hfirst, hlater⟩ := List.pairwise_cons.mp h
    unfold flush
    split
    · exact ih _ hlater
    · rename_i hdue
      refine ⟨h, fun b hb => ?_⟩
      have hnow : w.clock < a.due := Nat.lt_of_not_le hdue
      rcases List.mem_cons.mp hb with rfl | hb
      · exact hnow
      · exact Nat.lt_of_lt_of_le hnow (hfirst b hb)

theorem punctual_respond (h : w.Punctual) (r : Response) : (w.respond r).Punctual := by
  refine ⟨sorted_respond h.sorted r, ?_⟩
  rw [clock_respond, respond]
  split
  · exact h.pending
  · intro a ha
    rcases mem_insertArrival.mp ha with rfl | ha
    · dsimp only
      omega
    · exact h.pending a ha

theorem punctual_foldl (h : w.Punctual) (rs : List Response) : (rs.foldl respond w).Punctual := by
  induction rs generalizing w with
  | nil => exact h
  | cons r rs ih => exact ih (punctual_respond h r)

theorem punctual_send {socket : SocketAddress} {destination : Endpoint} {payload : Bytes} {sent : Bool}
    (hw : w.Punctual) (h : w.send net socket destination payload = (sent, w')) : w'.Punctual := by
  rw [send] at h
  split at h
  · cases h
    exact ⟨hw.sorted, hw.pending⟩
  · cases h
    exact punctual_foldl (w := { w with log := _ :: w.log }) ⟨hw.sorted, hw.pending⟩ _

/-- A reply that is heard among the arrivals leaves those that are not due. -/
theorem punctual_hearArrivals {as : List Arrival} {seen : Bool} {m : Message}
    (hsorted : as.Pairwise (·.due ≤ ·.due)) (h : hearArrivals x f stop as seen w = .reply m w') :
    w'.Punctual := by
  induction as generalizing seen w with
  | nil => cases h
  | cons a later ih =>
    have hlater := (List.pairwise_cons.mp hsorted).2
    unfold hearArrivals at h
    split at h
    · dsimp only at h
      split at h
      · cases h
        exact punctual_flush _ hlater
      · exact ih hlater h
    · cases h

theorem punctual_awaitUntil {r : Reading} (hw : w.Punctual) (h : w.awaitUntil x f stop = (r, w')) :
    w'.Punctual := by
  have hsound := sound_hear w x f stop
  unfold awaitUntil at h
  split at h
  · rename_i m w₁ heard
    cases h
    unfold hear at heard
    split at heard
    · cases heard
      exact ⟨hw.sorted, hw.pending⟩
    · exact punctual_hearArrivals hw.sorted heard
  · rename_i seen w₁ heard
    rw [heard] at hsound
    cases h
    exact punctual_flush _ (Quiet.sorted hsound.toQuiet hw.sorted)

theorem punctual_await {timeoutMs : Nat} {r : Reading} (hw : w.Punctual)
    (h : w.await net x timeoutMs f = (r, w')) : w'.Punctual := by
  rcases await_cases h with ⟨-, rfl⟩ | ⟨ms, -, h⟩
  · exact hw
  · exact punctual_awaitUntil hw h

/-- No action leaves anything behind that is due. -/
theorem punctual_perform (h : w.Punctual) (action : Action) : (w.perform net action).2.Punctual := by
  cases action with
  | bind address =>
    simp only [perform, bindSocket]
    split <;> exact ⟨h.sorted, h.pending⟩
  | send socket destination payload => exact punctual_send h rfl
  | await socket timeoutMs filter => exact punctual_await h rfl
  | _ => exact ⟨h.sorted, h.pending⟩

/-! ## Taking from the front -/

/-- Those of some arrivals that are for one socket. -/
def headed (x : Endpoint) (as : List Arrival) : List Arrival := as.filter (·.destination = x)

@[simp] theorem headed_append (x : Endpoint) (as bs : List Arrival) :
    headed x (as ++ bs) = headed x as ++ headed x bs := List.filter_append as bs

/-- A world in which the first of the arrivals have happened, and a socket has been read: what has been taken
and what is left is what there was and what has arrived. -/
structure Took (x : Endpoint) (w : World) (ds : List Datagram) (w' : World) : Prop where
  addresses : w'.addresses = w.addresses
  clock : w.clock ≤ w'.clock
  queue : ∃ front, w.arrivals = front ++ w'.arrivals ∧ (∀ a ∈ front, a.due ≤ w'.clock) ∧
    w.inbox x ++ (headed x front).map (·.datagram) = ds ++ w'.inbox x

namespace Took

variable {ds es : List Datagram}

theorem refl (x : Endpoint) (w : World) : Took x w [] w :=
  ⟨rfl, Nat.le_refl _, [], rfl, fun _ ha => absurd ha List.not_mem_nil, List.append_nil _⟩

theorem trans (h : Took x w ds w') (h' : Took x w' es w'') : Took x w (ds ++ es) w'' where
  addresses := h'.addresses.trans h.addresses
  clock := Nat.le_trans h.clock h'.clock
  queue := by
    obtain ⟨front, harrivals, hdue, hinbox⟩ := h.queue
    obtain ⟨more, harrivals', hdue', hinbox'⟩ := h'.queue
    refine ⟨front ++ more, by rw [harrivals, harrivals', List.append_assoc], ?_, ?_⟩
    · intro a ha
      rcases List.mem_append.mp ha with ha | ha
      · exact Nat.le_trans (hdue a ha) h'.clock
      · exact hdue' a ha
    · calc w.inbox x ++ (headed x (front ++ more)).map (·.datagram)
        _ = w.inbox x ++ (headed x front).map (·.datagram) ++ (headed x more).map (·.datagram) := by
          rw [headed_append, List.map_append, List.append_assoc]
        _ = ds ++ (w'.inbox x ++ (headed x more).map (·.datagram)) := by rw [hinbox, List.append_assoc]
        _ = ds ++ es ++ w''.inbox x := by rw [hinbox', List.append_assoc]

theorem clock_le (hclock : w.clock ≤ stop) : Took x w [] { w with clock := stop } :=
  ⟨rfl, hclock, [], rfl, fun _ ha => absurd ha List.not_mem_nil, List.append_nil _⟩

theorem setInbox (hx : x ∈ w.addresses) {rest : List Datagram} (h : w.inbox x = ds ++ rest) :
    Took x w ds (w.setInbox x rest) where
  addresses := addresses_setInbox w x rest
  clock := Nat.le_refl _
  queue := by
    refine ⟨[], rfl, fun _ ha => absurd ha List.not_mem_nil, ?_⟩
    rw [inbox_setInbox hx, ← h]
    exact List.append_nil _

/-- What is due goes to the end of the inbox. -/
theorem deliver (hx : x ∈ w.addresses) {a : Arrival} {later : List Arrival} (hdue : a.due ≤ w.clock) :
    Took x { w with arrivals := a :: later } []
      { w.deliver a.destination a.datagram with arrivals := later } where
  addresses := addresses_deliver w a.destination a.datagram
  clock := Nat.le_refl _
  queue := by
    refine ⟨[a], rfl, fun b hb => List.mem_singleton.mp hb ▸ hdue, ?_⟩
    have hinbox : w.inbox x ++ (headed x [a]).map (·.datagram) =
        (w.deliver a.destination a.datagram).inbox x := by
      rw [inbox_deliver hx, headed]
      by_cases hdest : a.destination = x
      · simp [hdest]
      · simp [hdest, Ne.symm hdest]
    exact hinbox

theorem arrive (hx : x ∈ w.addresses) (a : Arrival) (later : List Arrival) :
    Took x { w with arrivals := a :: later } [] (w.arrive a later) :=
  (clock_le (w := { w with arrivals := a :: later }) (Nat.le_max_left _ _)).trans
    (deliver (w := { w with clock := max w.clock a.due }) hx (Nat.le_max_right _ _))

theorem flush (hx : x ∈ w.addresses) (as : List Arrival) :
    Took x { w with arrivals := as } [] (w.flush as) := by
  induction as generalizing w with
  | nil => exact .refl _ _
  | cons a later ih =>
    unfold World.flush
    split
    · rename_i hdue
      exact (deliver hx hdue).trans (ih (by rwa [addresses_deliver]))
    · exact .refl _ _

theorem settle (hx : x ∈ w.addresses) (time : Nat) : Took x w [] (w.settle time) :=
  (clock_le (Nat.le_max_left _ _)).trans
    (flush (w := { w with clock := max w.clock time }) hx w.arrivals)

theorem found {seen : Bool} {m : Message} {rest : List Datagram} (hx : x ∈ w.addresses)
    (h : w.check x f seen = .found m rest) :
    ∃ ds d, Took x w (ds ++ [d]) (w.setInbox x rest) ∧ f.usable ds = [] ∧ f.reply? d = some m := by
  obtain ⟨ds, d, hinbox, hds, hd⟩ := Filter.found_of_scan h
  exact ⟨ds, d, setInbox hx (by rw [hinbox, List.append_assoc]; rfl), hds, hd⟩

theorem exhausted {seen seen' : Bool} (hx : x ∈ w.addresses) (h : w.check x f seen = .exhausted seen') :
    Took x w (w.inbox x) (w.setInbox x []) ∧ f.usable (w.inbox x) = [] ∧
      seen' = (seen || (w.inbox x).any f.isGarbled) :=
  ⟨setInbox hx (List.append_nil _).symm, Filter.exhausted_of_scan h⟩

end Took

/-! ## Waiting -/

/-- What a hearing takes from a socket: datagrams up to the first one that is usable, or all that there are
before some time. -/
def Hearing.Takes (x : Endpoint) (f : Filter) (stop : Nat) (seen : Bool) (w : World) : Hearing → Prop
  | .reply m w' => ∃ ds d, Took x w (ds ++ [d]) w' ∧ f.usable ds = [] ∧ f.reply? d = some m
  | .silence seen' w' => ∃ ds, Took x w ds w' ∧ f.usable ds = [] ∧ seen' = (seen || ds.any f.isGarbled) ∧
      w'.inbox x = [] ∧ ∀ a ∈ w'.arrivals, stop ≤ a.due

theorem Hearing.Takes.of_took {hearing : Hearing} {seen : Bool} {ds : List Datagram} (h : Took x w ds w')
    (hds : f.usable ds = []) (hs : hearing.Takes x f stop (seen || ds.any f.isGarbled) w') :
    hearing.Takes x f stop seen w := by
  cases hearing with
  | reply m w'' =>
    obtain ⟨es, d, htook, hes, hd⟩ := hs
    refine ⟨ds ++ es, d, ?_, by rw [Filter.usable_append, hds, hes, List.nil_append], hd⟩
    rw [List.append_assoc]
    exact h.trans htook
  | silence seen' w'' =>
    obtain ⟨es, htook, hes, hseen, hinbox, hlate⟩ := hs
    refine ⟨ds ++ es, h.trans htook, ?_, ?_, hinbox, hlate⟩
    · rw [Filter.usable_append, hds, hes, List.nil_append]
    · rw [hseen, List.any_append, Bool.or_assoc]

/-- Nothing has been heard so far, and the rest is late. -/
theorem silence_takes {as : List Arrival} {seen : Bool} (hempty : w.inbox x = [])
    (hlate : ∀ a ∈ as, stop ≤ a.due) :
    Hearing.Takes x f stop seen { w with arrivals := as } (.silence seen { w with arrivals := as }) :=
  ⟨[], .refl x _, rfl, (Bool.or_false seen).symm, hempty, hlate⟩

theorem hearArrivals_takes {as : List Arrival} {seen : Bool} (hx : x ∈ w.addresses)
    (hsorted : as.Pairwise (·.due ≤ ·.due)) (hempty : w.inbox x = []) :
    (hearArrivals x f stop as seen w).Takes x f stop seen { w with arrivals := as } := by
  induction as generalizing seen w with
  | nil => exact silence_takes hempty fun _ ha => absurd ha List.not_mem_nil
  | cons a later ih =>
    obtain ⟨hfirst, hlater⟩ := List.pairwise_cons.mp hsorted
    unfold hearArrivals
    split
    · have harrived := Took.arrive hx a later
      have hx' : x ∈ (w.arrive a later).addresses := by
        rw [harrived.addresses]
        exact hx
      refine .of_took harrived rfl ?_
      rw [List.any_nil, Bool.or_false]
      dsimp only
      split
      · rename_i m rest hfound
        obtain ⟨ds, d, hread, hds, hd⟩ := Took.found hx' hfound
        have hflushed := Took.flush (hread.addresses ▸ hx') later
        exact ⟨ds, d, by simpa using hread.trans hflushed, hds, hd⟩
      · rename_i seen' hexhausted
        obtain ⟨hread, hds, rfl⟩ := Took.exhausted hx' hexhausted
        refine .of_took hread hds ?_
        exact ih (hread.addresses ▸ hx') hlater (inbox_setInbox hx' [])
    · rename_i hdue
      refine silence_takes hempty fun b hb => ?_
      rcases List.mem_cons.mp hb with rfl | hb
      · exact Nat.le_of_not_lt hdue
      · exact Nat.le_trans (Nat.le_of_not_lt hdue) (hfirst b hb)

theorem hear_takes (hx : x ∈ w.addresses) (hsorted : w.Sorted) :
    (w.hear x f stop).Takes x f stop false w := by
  unfold hear
  split
  · rename_i m rest hfound
    exact Took.found hx hfound
  · rename_i seen hexhausted
    obtain ⟨hread, hds, rfl⟩ := Took.exhausted hx hexhausted
    refine .of_took hread hds ?_
    exact hearArrivals_takes (hread.addresses ▸ hx) hsorted (inbox_setInbox hx [])

/-- A wait in vain goes on to its end, and has taken all but what arrives too late. -/
structure Vain (x : Endpoint) (stop : Nat) (w : World) (ds : List Datagram) (w' : World) : Prop where
  clock : stop ≤ w'.clock
  split : ∃ early late, w.arrivals = early ++ late ++ w'.arrivals ∧
    (∀ a ∈ late ++ w'.arrivals, stop ≤ a.due) ∧
    w.inbox x ++ (headed x early).map (·.datagram) = ds ∧ w'.inbox x = (headed x late).map (·.datagram)

/-- A wait comes to what it takes, which is one usable datagram at most. -/
theorem awaitUntil_takes {r : Reading} (hx : x ∈ w.addresses) (hsorted : w.Sorted)
    (h : w.awaitUntil x f stop = (r, w')) :
    ∃ ds, Took x w ds w' ∧ r = f.comesTo ds ∧ (f.usable ds).length ≤ 1 ∧
      (f.usable ds = [] → Vain x stop w ds w') := by
  have htakes : (w.hear x f stop).Takes x f stop false w := hear_takes hx hsorted
  unfold awaitUntil at h
  split at h
  · rename_i m w₁ heard
    rw [heard] at htakes
    cases h
    obtain ⟨ds, d, htook, hds, hd⟩ := htakes
    obtain ⟨husable, hreply⟩ := Filter.comesTo_found hds hd
    rw [← hreply]
    refine ⟨ds ++ [d], htook, rfl, by rw [husable]; exact Nat.le_refl 1, fun hnone => ?_⟩
    rw [husable] at hnone
    cases hnone
  · rename_i seen w₁ heard
    rw [heard] at htakes
    cases h
    obtain ⟨ds, htook, hds, hseen, hinbox, hlate⟩ := htakes
    have hsettled := Took.settle (htook.addresses ▸ hx) stop
    obtain ⟨early, harrivals, -, hearly⟩ := htook.queue
    obtain ⟨late, harrivals', -, hlast⟩ := hsettled.queue
    refine ⟨ds, by simpa using htook.trans hsettled, ?_, by rw [hds]; exact Nat.zero_le 1, fun _ => ?_⟩
    · rw [Filter.comesTo_silence hds, hseen, Bool.false_or]
    · rw [hinbox, List.append_nil] at hearly
      rw [hinbox, List.nil_append, List.nil_append] at hlast
      refine ⟨by rw [clock_settle]; exact Nat.le_max_right _ _, early, late, ?_, ?_, hearly, hlast.symm⟩
      · rw [harrivals, harrivals', List.append_assoc]
      · exact harrivals' ▸ hlate

/-- A client that waits hears what is usable and has arrived, or arrives in time. -/
theorem awaitUntil_reply {d : Datagram} {m : Message} (hx : x ∈ w.addresses) (hsorted : w.Sorted)
    (hd : w.Pending x stop d) (hj : f.judge d = .usable m) : ∃ m', (w.awaitUntil x f stop).1 = .reply m' := by
  obtain ⟨r, w', h⟩ : ∃ r w', w.awaitUntil x f stop = (r, w') := ⟨_, _, rfl⟩
  obtain ⟨ds, -, hr, -, hvain⟩ := awaitUntil_takes hx hsorted h
  cases husable : f.usable ds with
  | cons m' later => exact ⟨m', by rw [h, hr, Filter.comesTo, husable]⟩
  | nil =>
    obtain ⟨early, late, harrivals, hlate, hds, -⟩ := (hvain husable).split
    have hmem : d ∈ ds := by
      rw [← hds, List.mem_append]
      refine hd.imp id fun harrival => ?_
      obtain ⟨a, ha, hdest, rfl, hdue⟩ := harrival
      rw [harrivals, List.append_assoc, List.mem_append] at ha
      have hearly := ha.resolve_right fun ha => Nat.not_lt_of_le (hlate a ha) hdue
      exact List.mem_map_of_mem (List.mem_filter.mpr ⟨hearly, by simpa using hdest⟩)
    have hnone := Filter.usable_eq_nil_iff.mp husable d hmem
    rw [Filter.reply?_eq_some_iff.mpr hj] at hnone
    cases hnone

/-- A wait takes a front of what there is, even if it ends with an error; without one it is not in vain before
its end. -/
theorem await_takes {timeoutMs : Nat} {r : Reading} (hx : x ∈ w.addresses) (hsorted : w.Sorted)
    (h : w.await net x timeoutMs f = (r, w')) :
    ∃ ds, Took x w ds w' ∧ r = f.comesTo ds ∧ (f.usable ds).length ≤ 1 ∧
      (net.failure w.log x = none → f.usable ds = [] → Vain x (w.clock + timeoutMs) w ds w') := by
  by_cases hnet : net.failure w.log x = none
  · rw [await_of_no_failure hnet] at h
    obtain ⟨ds, htook, hr, husable, hvain⟩ := awaitUntil_takes hx hsorted h
    exact ⟨ds, htook, hr, husable, fun _ => hvain⟩
  rcases await_cases h with ⟨rfl, rfl⟩ | ⟨ms, -, h⟩
  · exact ⟨[], .refl x w', rfl, Nat.zero_le 1, fun hnone => absurd hnone hnet⟩
  · obtain ⟨ds, htook, hr, husable, -⟩ := awaitUntil_takes hx hsorted h
    exact ⟨ds, htook, hr, husable, fun hnone => absurd hnone hnet⟩

/-! ## Sending -/

/-- What some responses bring at once. -/
def immediate (now : Nat) (rs : List Response) : List Arrival :=
  (rs.filter (·.delay = 0)).map fun r => ⟨now, r.destination, r.datagram⟩

theorem due_immediate {now : Nat} {rs : List Response} {a : Arrival} (ha : a ∈ headed x (immediate now rs)) :
    a.due = now := by
  obtain ⟨r, -, rfl⟩ := List.mem_map.mp (List.mem_filter.mp ha).1
  rfl

theorem inbox_respond (hx : x ∈ w.addresses) (r : Response) :
    (w.respond r).inbox x = w.inbox x ++ (headed x (immediate w.clock [r])).map (·.datagram) := by
  rw [respond, immediate, headed]
  by_cases hnow : r.delay = 0
  · rw [if_pos hnow, inbox_deliver hx]
    by_cases hdest : r.destination = x
    · simp [hnow, hdest]
    · simp [hnow, hdest, Ne.symm hdest]
  · have hlater : [r].filter (·.delay = 0) = [] := by simp [hnow]
    rw [if_neg hnow, hlater]
    exact (List.append_nil _).symm

theorem inbox_foldl (hx : x ∈ w.addresses) (rs : List Response) :
    (rs.foldl respond w).inbox x = w.inbox x ++ (headed x (immediate w.clock rs)).map (·.datagram) := by
  induction rs generalizing w with
  | nil => exact (List.append_nil _).symm
  | cons r rs ih =>
    have hall : immediate w.clock (r :: rs) = immediate w.clock [r] ++ immediate w.clock rs := by
      rw [immediate, ← List.singleton_append, List.filter_append, List.map_append]
      rfl
    rw [List.foldl_cons, ih (by rwa [addresses_respond]), inbox_respond hx, clock_respond, hall, headed_append,
      List.map_append, List.append_assoc]

theorem inbox_send {socket : SocketAddress} {destination : Endpoint} {payload : Bytes} {sent : Bool}
    (hx : x ∈ w.addresses) (h : w.send net socket destination payload = (sent, w')) :
    w'.inbox x = w.inbox x ++ (headed x (immediate w.clock
      ((net.carry w.log ⟨w.clock, socket, destination, payload⟩).getD []))).map (·.datagram) := by
  rw [send] at h
  cases hcarry : net.carry w.log ⟨w.clock, socket, destination, payload⟩ with
  | none =>
    rw [hcarry] at h
    cases h
    exact (List.append_nil _).symm
  | some rs =>
    rw [hcarry] at h
    cases h
    exact inbox_foldl (w := { w with log := _ :: w.log }) hx rs

theorem addresses_send {socket : SocketAddress} {destination : Endpoint} {payload : Bytes} {sent : Bool}
    (h : w.send net socket destination payload = (sent, w')) : w'.addresses = w.addresses := by
  cases sent with
  | false => rw [(send_false h).2]; rfl
  | true =>
    obtain ⟨rs, -, hresponded⟩ := send_true h
    exact hresponded.addresses

end World

/-- So it is in every world that a program gets to. -/
theorem Program.Runs.punctual {α : Type} {p : Program α} {net : Network} {w w' : World} {ms : List Moment}
    {a : α} (hr : p.Runs net w ms a w') (h : w.Punctual) : w'.Punctual := by
  induction hr with
  | done => exact h
  | act _ ih => exact ih (World.punctual_perform h _)

/-! ## Actions -/

namespace Moment

variable {net : Network} {x : Endpoint} {m : Moment} {ds : List Datagram}

/-- The world after an action. -/
def after (net : Network) (m : Moment) : World := (m.world.perform net m.action).2

/-- What reaches a socket while an action is taken: what is brought about at once if it is a send, and what is
due by the end if it is a wait. -/
def arrived (net : Network) (x : Endpoint) (m : Moment) : List Arrival :=
  match m.action with
  | .send socket destination payload =>
    let responses := (net.carry m.world.log ⟨m.world.clock, socket, destination, payload⟩).getD []
    World.headed x (World.immediate m.world.clock responses)
  | .await _ _ _ => World.headed x (m.world.arrivals.filter (·.due ≤ (m.after net).clock))
  | _ => []

/-- What an action takes from a socket: so much of what there was and what has arrived as is not left. -/
def taken (net : Network) (x : Endpoint) (m : Moment) : List Datagram :=
  let all := m.world.inbox x ++ (m.arrived net x).map (·.datagram)
  all.take (all.length - ((m.after net).inbox x).length)

theorem taken_eq
    (h : m.world.inbox x ++ (m.arrived net x).map (·.datagram) = ds ++ (m.after net).inbox x) :
    m.taken net x = ds := by
  rw [taken, h, List.length_append, Nat.add_sub_cancel]
  exact List.take_left

end Moment

/-- What reaches a socket in some part of a run. -/
def arrived (net : Network) (x : Endpoint) (ms : List Moment) : List Arrival := ms.flatMap (·.arrived net x)

/-- What is taken from a socket in some part of a run. -/
def taken (net : Network) (x : Endpoint) (ms : List Moment) : List Datagram := ms.flatMap (·.taken net x)

section

variable (net : Network) (x : Endpoint) (m : Moment) (ms ms' : List Moment)

@[simp] theorem arrived_nil : arrived net x [] = [] := rfl

@[simp] theorem arrived_singleton : arrived net x [m] = m.arrived net x := List.flatMap_singleton _ m

@[simp] theorem arrived_append : arrived net x (ms ++ ms') = arrived net x ms ++ arrived net x ms' :=
  List.flatMap_append

@[simp] theorem taken_nil : taken net x [] = [] := rfl

@[simp] theorem taken_singleton : taken net x [m] = m.taken net x := List.flatMap_singleton _ m

@[simp] theorem taken_append : taken net x (ms ++ ms') = taken net x ms ++ taken net x ms' :=
  List.flatMap_append

end

/-- A part of a run in which the inbox of a socket is a queue. -/
structure Queues (net : Network) (x : Endpoint) (w : World) (ms : List Moment) (w' : World) : Prop where
  addresses : w'.addresses = w.addresses
  punctual : w'.Punctual
  clock : w.clock ≤ w'.clock
  inbox : w.inbox x ++ (arrived net x ms).map (·.datagram) = taken net x ms ++ w'.inbox x
  within : ∀ a ∈ arrived net x ms, w.clock ≤ a.due ∧ a.due ≤ w'.clock
  sorted : (arrived net x ms).Pairwise (·.due ≤ ·.due)
  /-- If it ends with a wait in vain and without an error, that has gone on to its end, and only what arrived
  too late is left. -/
  late : ∀ w₁ timeoutMs f r, ms.getLast? = some ⟨w₁, .await x timeoutMs f, r⟩ →
    net.failure w₁.log x = none → f.usable (taken net x ms) = [] → w₁.clock + timeoutMs ≤ w'.clock ∧
      ∃ early late, arrived net x ms = early ++ late ∧ w'.inbox x = late.map (·.datagram) ∧
        ∀ a ∈ late, w₁.clock + timeoutMs ≤ a.due

namespace Queues

variable {net : Network} {x : Endpoint} {w w' w'' : World} {ms ms' : List Moment}

theorem refl (net : Network) (x : Endpoint) (h : w.Punctual) : Queues net x w [] w where
  addresses := rfl
  punctual := h
  clock := Nat.le_refl _
  inbox := List.append_nil _
  within _ ha := absurd ha List.not_mem_nil
  sorted := .nil
  late _ _ _ _ hlast := nomatch hlast

theorem append (h : Queues net x w ms w') (h' : Queues net x w' ms' w'') : Queues net x w (ms ++ ms') w'' where
  addresses := h'.addresses.trans h.addresses
  punctual := h'.punctual
  clock := Nat.le_trans h.clock h'.clock
  inbox := by
    calc w.inbox x ++ (arrived net x (ms ++ ms')).map (·.datagram)
      _ = w.inbox x ++ (arrived net x ms).map (·.datagram) ++ (arrived net x ms').map (·.datagram) := by
        rw [arrived_append, List.map_append, List.append_assoc]
      _ = taken net x ms ++ (w'.inbox x ++ (arrived net x ms').map (·.datagram)) := by
        rw [h.inbox, List.append_assoc]
      _ = taken net x (ms ++ ms') ++ w''.inbox x := by rw [h'.inbox, ← List.append_assoc, taken_append]
  within := by
    intro a ha
    rw [arrived_append] at ha
    rcases List.mem_append.mp ha with ha | ha
    · obtain ⟨hfirst, hlast⟩ := h.within a ha
      exact ⟨hfirst, Nat.le_trans hlast h'.clock⟩
    · obtain ⟨hfirst, hlast⟩ := h'.within a ha
      exact ⟨Nat.le_trans h.clock hfirst, hlast⟩
  sorted := by
    rw [arrived_append, List.pairwise_append]
    exact ⟨h.sorted, h'.sorted, fun a ha b hb => Nat.le_trans (h.within a ha).2 (h'.within b hb).1⟩
  late := by
    intro w₁ timeoutMs f r hlast hnet hvain
    rw [taken_append, Filter.usable_append, List.append_eq_nil_iff] at hvain
    rw [List.getLast?_append] at hlast
    cases hlast' : ms'.getLast? with
    | some m =>
      rw [hlast', Option.some_or] at hlast
      obtain ⟨hclock, early, late, harrived, hinbox, hlate⟩ :=
        h'.late w₁ timeoutMs f r (hlast'.trans hlast) hnet hvain.2
      refine ⟨hclock, arrived net x ms ++ early, late, ?_, hinbox, hlate⟩
      rw [arrived_append, harrived, List.append_assoc]
    | none =>
      -- Nothing has happened since, and so the inbox is the same.
      obtain rfl := List.getLast?_eq_none_iff.mp hlast'
      rw [hlast', Option.none_or] at hlast
      obtain ⟨hclock, early, late, harrived, hinbox, hlate⟩ := h.late w₁ timeoutMs f r hlast hnet hvain.1
      have hsame : w'.inbox x = w''.inbox x := by simpa using h'.inbox
      exact ⟨Nat.le_trans hclock h'.clock, early, late, by simpa using harrived, hsame ▸ hinbox, hlate⟩

/-- A queue during one action. -/
theorem single {m : Moment} {as : List Arrival} {ds : List Datagram} (hafter : m.after net = w')
    (harrived : m.arrived net x = as) (haddresses : w'.addresses = m.world.addresses) (hpunctual : w'.Punctual)
    (hclock : m.world.clock ≤ w'.clock)
    (hinbox : m.world.inbox x ++ as.map (·.datagram) = ds ++ w'.inbox x)
    (hwithin : ∀ a ∈ as, m.world.clock ≤ a.due ∧ a.due ≤ w'.clock) (hsorted : as.Pairwise (·.due ≤ ·.due))
    (hlate : ∀ w₁ timeoutMs f r, m = ⟨w₁, .await x timeoutMs f, r⟩ → net.failure w₁.log x = none →
      f.usable ds = [] → w₁.clock + timeoutMs ≤ w'.clock ∧
        ∃ early late, as = early ++ late ∧ w'.inbox x = late.map (·.datagram) ∧
          ∀ a ∈ late, w₁.clock + timeoutMs ≤ a.due) :
    Queues net x m.world [m] w' ∧ taken net x [m] = ds := by
  subst hafter harrived
  have htaken := Moment.taken_eq hinbox
  rw [← arrived_singleton] at hinbox hwithin hsorted hlate
  rw [← taken_singleton] at htaken
  refine ⟨⟨haddresses, hpunctual, hclock, htaken ▸ hinbox, hwithin, hsorted, ?_⟩, htaken⟩
  intro w₁ timeoutMs f r hlast hnet hvain
  exact hlate w₁ timeoutMs f r (Option.some.inj hlast) hnet (htaken ▸ hvain)

/-- A send takes nothing. -/
theorem send {socket : SocketAddress} {destination : Endpoint} {payload : Bytes} {sent : Bool}
    (hw : w.Punctual) (hx : x ∈ w.addresses) (h : w.send net socket destination payload = (sent, w')) :
    Queues net x w [⟨w, .send socket destination payload, sent⟩] w' ∧
      taken net x [⟨w, .send socket destination payload, sent⟩] = [] := by
  have hafter : Moment.after net ⟨w, .send socket destination payload, sent⟩ = w' := congrArg Prod.snd h
  have hclock := World.clock_send h
  refine single hafter rfl (World.addresses_send h) (World.punctual_send hw h) (Nat.le_of_eq hclock.symm)
    (World.inbox_send hx h).symm ?_ ?_ nofun
  · intro a ha
    rw [World.due_immediate ha, hclock]
    exact ⟨Nat.le_refl _, Nat.le_refl _⟩
  · refine List.pairwise_of_forall_mem_list fun a ha b hb => Nat.le_of_eq ?_
    rw [World.due_immediate ha, World.due_immediate hb]

/-- What is due by the end of a wait is what has happened. -/
theorem filter_due {as front later : List Arrival} {now : Nat} (h : as = front ++ later)
    (hfront : ∀ a ∈ front, a.due ≤ now) (hlater : ∀ a ∈ later, now < a.due) :
    as.filter (·.due ≤ now) = front := by
  have hkept : front.filter (·.due ≤ now) = front :=
    List.filter_eq_self.mpr fun a ha => by simpa using hfront a ha
  have hgone : later.filter (·.due ≤ now) = [] :=
    List.filter_eq_nil_iff.mpr fun a ha => by simpa using hlater a ha
  rw [h, List.filter_append, hkept, hgone, List.append_nil]

/-- A wait comes to what it takes. -/
theorem await (net : Network) {timeoutMs : Nat} {f : Filter} {r : Reading} (hw : w.Punctual)
    (hx : x ∈ w.addresses) (h : w.await net x timeoutMs f = (r, w')) :
    Queues net x w [⟨w, .await x timeoutMs f, r⟩] w' ∧
      r = f.comesTo (taken net x [⟨w, .await x timeoutMs f, r⟩]) ∧
      (f.usable (taken net x [⟨w, .await x timeoutMs f, r⟩])).length ≤ 1 := by
  have hpunctual := World.punctual_await hw h
  obtain ⟨ds, htook, hr, husable, hvainly⟩ := World.await_takes hx hw.sorted h
  obtain ⟨front, harrivals, hdue, hinbox⟩ := htook.queue
  have hafter : Moment.after net ⟨w, .await x timeoutMs f, r⟩ = w' := congrArg Prod.snd h
  have harrived : Moment.arrived net x ⟨w, .await x timeoutMs f, r⟩ = World.headed x front := by
    rw [Moment.arrived, hafter, filter_due harrivals hdue hpunctual.pending]
  have hpending : ∀ a ∈ front, w.clock < a.due :=
    fun a ha => hw.pending a (harrivals ▸ List.mem_append_left _ ha)
  have hsorted : front.Pairwise (·.due ≤ ·.due) := by
    have hall := hw.sorted
    rw [World.Sorted, harrivals] at hall
    exact (List.pairwise_append.mp hall).1
  obtain ⟨hqueue, htaken⟩ := single hafter harrived htook.addresses hpunctual htook.clock hinbox
    (fun a ha => ⟨Nat.le_of_lt (hpending a (List.mem_filter.mp ha).1), hdue a (List.mem_filter.mp ha).1⟩)
    (hsorted.filter _) <| by
      intro w₁ timeoutMs' f' r' hm hnet hvain
      cases hm
      obtain ⟨hend, early, late, harrivals', hlate, -, hleft⟩ := hvainly hnet hvain
      obtain rfl := List.append_cancel_right (harrivals.symm.trans harrivals')
      exact ⟨hend, World.headed x early, World.headed x late, World.headed_append x early late, hleft,
        fun a ha => hlate a (List.mem_append_left _ (List.mem_filter.mp ha).1)⟩
  rw [htaken]
  exact ⟨hqueue, hr, husable⟩

end Queues

end NatBehaviour.Network
