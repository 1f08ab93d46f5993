import NatBehaviour.Proofs.Discovery.Sockets
import NatBehaviour.Proofs.Network.Deadline

/-!
Discoveries with a deadline. One that would end in time gives the result that it gives without the deadline;
one that would not gives nothing, whatever it has found out by then. It has sent what it would have sent up to
then, and its sockets are closed.
-/

namespace NatBehaviour.Discovery

open NatBehaviour.Network (Exclusive Moment OnlyOpen Program SocketAddress World transmissions)
open NatBehaviour.Responder (narrowHost restrictingRelay)

variable {net : Network} {w w' : World} {h h' : List Moment} {xs extra : List SocketAddress}
  {steps : List Step}

/-! ## Sockets of a run that is broken off -/

/-- At some moments the given sockets are open, and beside them only new ones. -/
def Beside (xs : List SocketAddress) (h : List Moment) : Prop :=
  ∀ m ∈ h, ∃ extra, m.world.addresses = xs ++ extra ∧ ∀ x ∈ extra, x ∉ xs

namespace Beside

theorem append (hb : Beside xs h) (hb' : Beside xs h') : Beside xs (h ++ h') :=
  fun m hm => (List.mem_append.mp hm).elim (hb m) (hb' m)

theorem of_onlyOpen (ho : OnlyOpen net (xs ++ extra) h) (hextra : ∀ x ∈ extra, x ∉ xs) : Beside xs h :=
  fun m hm => ⟨extra, (ho m hm).1, hextra⟩

theorem of_same (ho : OnlyOpen net xs h) : Beside xs h := by
  rw [← List.append_nil xs] at ho
  exact of_onlyOpen ho nofun

theorem of_one {x : SocketAddress} (ho : OnlyOpen net (xs ++ [x]) h) (hx : x ∉ xs) : Beside xs h :=
  of_onlyOpen ho fun y hy => by rwa [List.mem_singleton.mp hy]

theorem of_concat {x : SocketAddress} (hb : Beside (xs ++ [x]) h) (hx : x ∉ xs) : Beside xs h := by
  intro m hm
  obtain ⟨extra, hsame, hextra⟩ := hb m hm
  refine ⟨x :: extra, by rw [hsame, List.append_assoc, List.singleton_append], ?_⟩
  intro y hy
  rcases List.mem_cons.mp hy with rfl | hy
  · exact hx
  · exact fun hmem => hextra y hy (List.mem_append_left _ hmem)

end Beside

theorem Session.Uses.beside {s : Session} (ho : Session.Uses net s xs h steps) : Beside xs h := by
  cases ho with
  | one only single requests => exact .of_same only
  | two fresh before during after single asked compared asks =>
    exact ((Beside.of_same before).append (.of_one during fresh)).append (.of_same after)

namespace Client

variable {c : Client} {first? : Option SocketAddress}

theorem Looks.beside (hl : Looks net xs h) : Beside xs h := by
  cases hl with
  | blindly only => exact .of_same only
  | around fresh before during => exact (Beside.of_same before).append (.of_one during fresh)

theorem Uses.beside (ho : Uses c net xs h first? steps) : Beside xs h := by
  cases ho with
  | nothing looks after idle => exact looks.beside.append (.of_same after)
  | steps looks fresh bound walks path closed after idle =>
    have hwalk := walks.beside.of_concat fresh
    have hrest := hwalk.append ((Beside.of_one closed fresh).append (.of_same after))
    exact looks.beside.append ((Beside.of_same bound).append hrest)

/-- When a run that has been broken off is given up, the sockets are those that were there before. -/
theorem brokenOff_closes (hnet : Exclusive net) (hsorted : w.Sorted) {stamp : Stamp}
    {r : Attempted Report} (hr : (c.run stamp).Runs net w h r w') {limit : Nat} {w₁ : World}
    (hb : Program.BrokenOff limit w h w₁) : (Program.abandon w w₁).addresses = w.addresses := by
  obtain ⟨-, -, ⟨first?, steps, huses, -⟩, -⟩ := run_closes_sockets hnet hsorted hr
  have hbeside := huses.beside
  obtain ⟨-, later, -, -, -, -⟩ := hb
  rename_i front back m
  obtain ⟨extra, hsame, hextra⟩ := hbeside m (by simp)
  exact Program.addresses_abandon (later.addresses.trans hsame) hextra

end Client

/-! ## Results -/

section Results

variable {p : Settings.Probe} {stamp : Stamp} {deadlineMs : Nat} {c : Client}

theorem ofSettings_of_fault {fault : ConfigFault} (hfault : p.fault? = some fault) :
    Client.ofSettings p = .error (.config fault) := by
  unfold Client.ofSettings
  split
  · rename_i fault' hfault'
    rw [Option.some.inj (hfault'.symm.trans hfault)]
  · rename_i hvalid
    cases hvalid.symm.trans hfault

theorem classifyWithin_rejected {f : Failure} (hp : Client.ofSettings p = .error f) :
    classifyWithin net p stamp deadlineMs w = (.error f, w) := by
  unfold classifyWithin
  rw [hp]

theorem classifyWithin_done (hp : Client.ofSettings p = .ok c) {r : Attempted Classification}
    (hdone : (c.classify stamp).runUntil net (w.clock + deadlineMs) w = (some r, w')) :
    classifyWithin net p stamp deadlineMs w = (r.map some, w') := by
  unfold classifyWithin
  rw [hp]
  simp only [Program.runWithin, hdone]

theorem classifyWithin_brokenOff (hp : Client.ofSettings p = .ok c)
    (hcut : (c.classify stamp).runUntil net (w.clock + deadlineMs) w = (none, w')) :
    classifyWithin net p stamp deadlineMs w = (.ok none, Program.abandon w w') := by
  unfold classifyWithin
  rw [hp]
  simp only [Program.runWithin, hcut]

/-- Only a discovery that is broken off comes to nothing. -/
theorem map_some_ne_none {α : Type} (r : Attempted α) : r.map some ≠ .ok none := by
  cases r <;> nofun

end Results

/-- A discovery with a deadline gives the result of the same discovery without one, if that ends before the
deadline. If that ends after it, it gives no result. Then it has sent just what the other one sends before the
deadline, and nothing of what that sends after it; and the sockets are those that were there before. -/
theorem classifyWithin_agrees (hnet : Exclusive net) (hsorted : w.Sorted) {p : Settings.Probe}
    {stamp : Stamp} {r : Attempted Classification} (hr : (classify p stamp).Runs net w h r w')
    (deadlineMs : Nat) :
    (∀ fault, p.fault? = some fault →
      classifyWithin net p stamp deadlineMs w = (.error (.config fault), w)) ∧
    (w'.clock < w.clock + deadlineMs → classifyWithin net p stamp deadlineMs w = (r.map some, w')) ∧
    (w.clock + deadlineMs < w'.clock → ∃ w₁, classifyWithin net p stamp deadlineMs w = (.ok none, w₁)) ∧
    ∀ w₁, classifyWithin net p stamp deadlineMs w = (.ok none, w₁) →
      (∃ front back, transmissions h = front ++ back ∧ w₁.log = front.reverse ++ w.log ∧
        (∀ e ∈ front, e.1.time ≤ w.clock + deadlineMs) ∧ ∀ e ∈ back, w.clock + deadlineMs ≤ e.1.time) ∧
      w₁.taken = w.taken ∧ w₁.addresses = w.addresses := by
  cases hp : Client.ofSettings p with
  | error f =>
    unfold classify at hr
    rw [hp] at hr
    obtain ⟨-, rfl, rfl⟩ := hr.pure
    refine ⟨fun fault hfault => ?_, fun _ => classifyWithin_rejected hp, fun hlate => ?_, fun w₁ hnone => ?_⟩
    · exact classifyWithin_rejected (ofSettings_of_fault hfault)
    · exact absurd hlate (Nat.not_lt.mpr (Nat.le_add_right _ _))
    · cases (classifyWithin_rejected hp).symm.trans hnone
  | ok c =>
    have haccepted : ∀ fault, p.fault? ≠ some fault := fun fault hfault => by
      cases hp.symm.trans (ofSettings_of_fault hfault)
    unfold classify at hr
    rw [hp] at hr
    obtain ⟨q, hq, -⟩ := Program.Runs.bind_pure hr
    rcases hr.runUntil (Nat.le_add_right w.clock deadlineMs) with ⟨htimely, hdone⟩ | ⟨hlate, w₁, hcut, hbroken⟩
    · have hresult := classifyWithin_done hp hdone
      refine ⟨fun fault hfault => absurd hfault (haccepted fault), fun _ => hresult,
        fun hlate => absurd htimely (Nat.not_le.mpr hlate), fun w₁ hnone => ?_⟩
      exact absurd (Prod.mk.inj (hresult.symm.trans hnone)).1 (map_some_ne_none r)
    · have hresult := classifyWithin_brokenOff hp hcut
      refine ⟨fun fault hfault => absurd hfault (haccepted fault),
        fun htimely => absurd htimely (Nat.lt_asymm hlate), fun _ => ⟨_, hresult⟩, fun w₂ hnone => ?_⟩
      obtain ⟨-, rfl⟩ := Prod.mk.inj (hresult.symm.trans hnone)
      have haddresses := Client.brokenOff_closes hnet hsorted hq hbroken
      obtain ⟨silent, later, taken, log, early, late⟩ := hbroken
      rename_i front back m
      refine ⟨⟨transmissions front, transmissions back, ?_, log, early, late⟩, taken, haddresses⟩
      rw [Network.transmissions_append, Network.transmissions_cons_of_none silent]

/-- Behind a translator that drops what comes from the secondary listener, a discovery waits in vain for some
time. Twenty seconds are enough for it, a tenth of a second is not. -/
theorem classifyWithin_agrees_restricted :
    ∃ h w' w₁ front back,
      (classify .default ⟨⟨0⟩, 0⟩).Runs (restrictingRelay [20]) (.start []) h (.ok .restricted) w' ∧
      classifyWithin (restrictingRelay [20]) .default ⟨⟨0⟩, 0⟩ 20000 (.start []) =
        (.ok (some .restricted), w') ∧
      classifyWithin (restrictingRelay [20]) .default ⟨⟨0⟩, 0⟩ 100 (.start []) = (.ok none, w₁) ∧
      transmissions h = front ++ back ∧ w₁.log = front.reverse ∧ front.length = 4 ∧ w₁.addresses = [] := by
  have hnet : Exclusive (restrictingRelay [20]) :=
    (Network.Host.allots_network narrowHost (by decide) _).toExclusive
  have hsorted : (World.start []).Sorted := (World.punctual_start []).sorted
  have hresult : ((classify .default ⟨⟨0⟩, 0⟩).run (restrictingRelay [20]) (.start [])).1 =
      .ok .restricted := by decide +kernel
  have hclock : 100 < ((classify .default ⟨⟨0⟩, 0⟩).run (restrictingRelay [20]) (.start [])).2.clock ∧
      ((classify .default ⟨⟨0⟩, 0⟩).run (restrictingRelay [20]) (.start [])).2.clock < 20000 := by
    decide +kernel
  obtain ⟨r, w', hrun⟩ :
      ∃ r w', (classify .default ⟨⟨0⟩, 0⟩).run (restrictingRelay [20]) (.start []) = (r, w') := ⟨_, _, rfl⟩
  rw [hrun] at hresult hclock
  obtain rfl := hresult
  obtain ⟨h, hr⟩ := Program.runs_of_run hrun
  obtain ⟨-, hdone, -, -⟩ := classifyWithin_agrees hnet hsorted hr 20000
  obtain ⟨-, -, hlate, hnone⟩ := classifyWithin_agrees hnet hsorted hr 100
  obtain ⟨w₁, hgiven⟩ := hlate (by simpa [World.start] using hclock.1)
  obtain ⟨⟨front, back, hsplit, hlog, -, -⟩, -, haddresses⟩ := hnone w₁ hgiven
  rw [show (World.start []).log = [] from rfl, List.append_nil] at hlog
  have hsent : (classifyWithin (restrictingRelay [20]) .default ⟨⟨0⟩, 0⟩ 100 (.start [])).2.log.length = 4 := by
    decide +kernel
  rw [hgiven, hlog, List.length_reverse] at hsent
  have hfinished := hdone (by simpa [World.start] using hclock.2)
  exact ⟨h, w', w₁, front, back, hr, hfinished, hgiven, hsplit, hlog, hsent, haddresses⟩

end NatBehaviour.Discovery
