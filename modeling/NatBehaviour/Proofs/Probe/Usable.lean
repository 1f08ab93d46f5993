import NatBehaviour.Probe.Filter

/-!
What datagrams are to a client that waits. It takes them in order up to the first one that it can use, and what
the wait comes to is decided by those that it has taken.
-/

namespace NatBehaviour.Probe.Filter

open NatBehaviour.Wire (Message received)

variable {f : Filter} {d : Datagram} {ds ds' rest : List Datagram} {m : Message} {seen seen' : Bool}

/-- The message in a datagram, if the source is accepted and it decodes. -/
def reply? (f : Filter) (d : Datagram) : Option Message :=
  if f.accepts d.source then (Message.decode (received d.payload)).toOption else none

/-- The source is accepted, but the datagram does not decode. -/
def isGarbled (f : Filter) (d : Datagram) : Bool :=
  f.accepts d.source && !(Message.decode (received d.payload)).isOk

/-- The messages in some datagrams, in their order. -/
def usable (f : Filter) (ds : List Datagram) : List Message := ds.filterMap f.reply?

/-- What a wait comes to that has taken some datagrams. -/
def comesTo (f : Filter) (ds : List Datagram) : Reading :=
  match f.usable ds with
  | m :: _ => .reply m
  | [] => .ofSilence (ds.any f.isGarbled)

theorem judge_eq (f : Filter) (d : Datagram) :
    f.judge d =
      match f.reply? d with
      | some m => .usable m
      | none => if f.isGarbled d then .undecodable else .ignored := by
  unfold judge reply? isGarbled
  cases f.accepts d.source with
  | false => rfl
  | true => cases Message.decode (received d.payload) <;> rfl

theorem reply?_eq_some_iff : f.reply? d = some m ↔ f.judge d = .usable m := by
  rw [judge_eq]
  cases f.reply? d with
  | none => cases f.isGarbled d <;> simp
  | some m' => simp

@[simp] theorem usable_append : f.usable (ds ++ ds') = f.usable ds ++ f.usable ds' := List.filterMap_append

theorem usable_eq_nil_iff : f.usable ds = [] ↔ ∀ d ∈ ds, f.reply? d = none := List.filterMap_eq_nil_iff

theorem comesTo_found (hds : f.usable ds = []) (hd : f.reply? d = some m) :
    f.usable (ds ++ [d]) = [m] ∧ f.comesTo (ds ++ [d]) = .reply m := by
  have hone : f.usable [d] = [m] := List.filterMap_cons_some hd
  have hall : f.usable (ds ++ [d]) = [m] := by rw [usable_append, hds, hone, List.nil_append]
  exact ⟨hall, by rw [comesTo, hall]⟩

theorem comesTo_silence (h : f.usable ds = []) : f.comesTo ds = .ofSilence (ds.any f.isGarbled) := by
  rw [comesTo, h]

/-! ## Going through an inbox -/

/-- What is found is the first usable datagram, and what is behind it stays where it is. -/
theorem found_of_scan (h : f.scan seen ds = .found m rest) :
    ∃ front d, ds = front ++ d :: rest ∧ f.usable front = [] ∧ f.reply? d = some m := by
  induction ds generalizing seen with
  | nil => cases h
  | cons d ds ih =>
    rw [scan, judge_eq] at h
    cases hd : f.reply? d with
    | some m' =>
      rw [hd] at h
      cases h
      exact ⟨[], d, rfl, rfl, hd⟩
    | none =>
      have hlater : ∃ seen', f.scan seen' ds = .found m rest := by
        rw [hd] at h
        cases hgarbled : f.isGarbled d <;> rw [hgarbled] at h <;> exact ⟨_, h⟩
      obtain ⟨seen', hlater⟩ := hlater
      obtain ⟨front, e, rfl, hfront, he⟩ := ih hlater
      exact ⟨d :: front, e, rfl, by rwa [usable, List.filterMap_cons_none hd], he⟩

theorem exhausted_of_scan (h : f.scan seen ds = .exhausted seen') :
    f.usable ds = [] ∧ seen' = (seen || ds.any f.isGarbled) := by
  induction ds generalizing seen with
  | nil =>
    cases h
    exact ⟨rfl, (Bool.or_false _).symm⟩
  | cons d ds ih =>
    rw [scan, judge_eq] at h
    cases hd : f.reply? d with
    | some m' =>
      rw [hd] at h
      cases h
    | none =>
      rw [hd] at h
      rw [usable, List.filterMap_cons_none hd, List.any_cons]
      cases hgarbled : f.isGarbled d with
      | false =>
        rw [hgarbled] at h
        exact ih h
      | true =>
        rw [hgarbled] at h
        obtain ⟨hds, hseen⟩ := ih h
        exact ⟨hds, by rw [hseen, Bool.true_or, Bool.or_true]⟩

end NatBehaviour.Probe.Filter
