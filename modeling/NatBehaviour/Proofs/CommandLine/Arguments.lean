import NatBehaviour.CommandLine.Invocation
import NatBehaviour.Proofs.Net.AddressText

/-!
What the arguments of the program say. The environment stands in for an option just where the arguments do not
give it, so that accepted arguments are accepted without the environment as well, and what is given there is
kept. Every choice of options has arguments that give it.
-/

namespace NatBehaviour.CommandLine

open NatBehaviour.Net (Ip)

variable {environment : String → Option String} {options : List CommandOption} {arguments : List String}

namespace Given

variable {g g' : Given} {o : CommandOption} {v : String}

theorem complete_empty (options : List CommandOption) (g : Given) :
    g.complete (fun _ => none) options = .ok g := by
  induction options with
  | nil => rfl
  | cons o options ih =>
    have hnothing : o.standIn.bind (fun _ => none : String → Option String) = none := by
      cases o.standIn <;> rfl
    rw [complete, hnothing]
    cases g.value? o.long <;> exact ih

end Given

/-- A number as it is written for an option. -/
def numeral (n : Nat) : String := String.ofList (Nat.toDigits 10 n)

/-- No sign stands in front of a number. -/
theorem exists_digit (n : Nat) : ∃ c ds, Nat.toDigits 10 n = c :: ds ∧ c ≠ '+' ∧ c ≠ '-' := by
  obtain ⟨c, ds, hds⟩ := List.exists_cons_of_ne_nil (Nat.toDigits_ne_nil (n := n) (b := 10))
  have hdigit : c.isDigit = true :=
    Nat.isDigit_of_mem_toDigits (by decide) (by decide) (hds ▸ List.mem_cons_self)
  refine ⟨c, ds, hds, ?_, ?_⟩
  · rintro rfl
    cases hdigit
  · rintro rfl
    cases hdigit

theorem natural?_numeral (n : Nat) : natural? (numeral n) = some n := by
  obtain ⟨c, ds, hds, hplus, -⟩ := exists_digit n
  have hdigits : (c :: ds).all (·.isDigit) = true :=
    List.all_eq_true.mpr fun d hd => Nat.isDigit_of_mem_toDigits (by decide) (by decide) (hds ▸ hd)
  have hvalue : (c :: ds).foldl (fun n c => n * 10 + (c.toNat - '0'.toNat)) 0 = n := by
    rw [← hds]
    simpa only [Nat.ofDigitChars_eq_foldl, Nat.mul_comm] using
      Nat.ofDigitChars_toDigits (b := 10) (n := n) (by decide) (by decide)
  unfold natural?
  simp only [numeral, String.toList_ofList, hds]
  split
  · rename_i ds' heq
    exact absurd (List.cons.inj heq).1 hplus
  · simp only [hdigits, hvalue, List.isEmpty_cons, Bool.not_false, Bool.and_self, if_true]

theorem uint32?_numeral (n : UInt32) : uint32? (numeral n.toNat) = some n := by
  obtain ⟨c, ds, hds, -, hminus⟩ := exists_digit n.toNat
  have htoList : (numeral n.toNat).toList = c :: ds := by rw [numeral, String.toList_ofList, hds]
  unfold uint32?
  simp only [htoList]
  split
  · rename_i ds' heq
    exact absurd (List.cons.inj heq).1 hminus
  · rw [natural?_numeral]
    simp [Option.filter, n.toNat_lt_size]

theorem uint64?_numeral (n : UInt64) : uint64? (numeral n.toNat) = some n := by
  unfold uint64?
  rw [natural?_numeral]
  simp [Option.filter, n.toNat_lt_size]

/-- The argument that gives an option its value. -/
def assignment (p : String × String) : String := "--" ++ p.1 ++ "=" ++ p.2

theorem toList_assignment (name v : String) :
    (assignment (name, v)).toList = '-' :: '-' :: (name.toList ++ '=' :: v.toList) := by
  simp [assignment]

/-- An option among others takes a value. -/
structure Admits (options : List CommandOption) (p : String × String) : Prop where
  plain : '=' ∉ p.1.toList
  admitted : ∃ o accepts, options.find? (·.long = p.1) = some o ∧ o.action = .value accepts ∧ accepts p.2 = true

namespace Given

theorem splitEquals_append {name : List Char} (hplain : '=' ∉ name) (v : List Char) :
    splitEquals (name ++ '=' :: v) = (String.ofList name, some (String.ofList v)) := by
  have hname : ∀ c ∈ name, (decide (c ≠ '=')) = true := by
    intro c hc
    exact decide_eq_true fun heq => hplain (heq ▸ hc)
  unfold splitEquals
  rw [List.takeWhile_append_of_pos hname, List.dropWhile_append_of_pos hname]
  simp

theorem put_of_accepts {values : List (String × String)} {o : CommandOption} {v : String}
    {accepts : String → Bool} (hnew : values.lookup o.long = none) (haction : o.action = .value accepts)
    (haccepts : accepts v = true) :
    put ⟨values, none, false⟩ o v = .ok ⟨values ++ [(o.long, v)], none, false⟩ := by
  simp [put, value?, hnew, haction, haccepts]

/-- An argument with a value is taken as such where no other value is pending. -/
theorem take_assignment {values : List (String × String)} {p : String × String} (hp : Admits options p)
    (hnew : values.lookup p.1 = none) :
    take ⟨values, none, false⟩ options (assignment p) = .ok ⟨values ++ [p], none, false⟩ := by
  obtain ⟨name, v⟩ := p
  obtain ⟨hplain, o, accepts, hfind, haction, haccepts⟩ := hp
  have hlong : o.long = name := by simpa using List.find?_some hfind
  obtain ⟨c, s, hs⟩ := List.exists_cons_of_ne_nil (l := name.toList ++ '=' :: v.toList) (by simp)
  have htake : take ⟨values, none, false⟩ options (assignment (name, v)) =
      long ⟨values, none, false⟩ options name (some v) := by
    unfold take
    rw [toList_assignment, hs]
    simp only
    rw [← hs, splitEquals_append hplain, String.ofList_toList, String.ofList_toList]
  rw [htake]
  unfold long
  rw [hfind]
  simp only [takesValue, haction, settlePut, settle]
  rw [put_of_accepts (hlong ▸ hnew) haction haccepts, hlong]

/-- Arguments with values are taken one after the other. -/
theorem takeUntil_assignments {isCommand : String → Bool} {ps values : List (String × String)}
    {rest : List String} (hcommand : ∀ p ∈ ps, isCommand (assignment p) = false)
    (hadmits : ∀ p ∈ ps, Admits options p) (hdistinct : (ps.map Prod.fst).Nodup)
    (hnew : ∀ p ∈ ps, values.lookup p.1 = none) :
    takeUntil options isCommand (ps.map assignment ++ rest) ⟨values, none, false⟩ =
      takeUntil options isCommand rest ⟨values ++ ps, none, false⟩ := by
  induction ps generalizing values with
  | nil => rw [List.map_nil, List.nil_append, List.append_nil]
  | cons p ps ih =>
    rw [List.map_cons, List.nodup_cons] at hdistinct
    obtain ⟨hfresh, hdistinct⟩ := hdistinct
    rw [List.forall_mem_cons] at hcommand hadmits hnew
    have hlater : ∀ q ∈ ps, (values ++ [p]).lookup q.1 = none := by
      intro q hq
      have hne : q.1 ≠ p.1 := fun heq => hfresh (heq ▸ List.mem_map_of_mem hq)
      rw [List.lookup_append, hnew.2 q hq]
      simpa using hne
    rw [List.map_cons, List.cons_append, takeUntil, hcommand.1, Bool.and_false, if_neg Bool.false_ne_true,
      take_assignment hadmits.1 hnew.1]
    simp only
    rw [ih hcommand.2 hadmits.2 hdistinct hlater, List.append_assoc, List.singleton_append]

end Given

/-- Arguments with values, and what is left to take of them. -/
theorem takeAll_assignments {ps : List (String × String)} {rest : List String} {g : Given}
    (hadmits : ∀ p ∈ ps, Admits options p) (hdistinct : (ps.map Prod.fst).Nodup)
    (hrest : Given.takeUntil options (fun _ => false) rest ⟨ps, none, false⟩ = .ok (g, []))
    (hsettled : g.pending = none) :
    takeAll (fun _ => none) options (ps.map assignment ++ rest) = .ok g := by
  have htaken : Given.takeUntil options (fun _ => false) (ps.map assignment ++ rest) .start =
      Given.takeUntil options (fun _ => false) rest ⟨[] ++ ps, none, false⟩ :=
    Given.takeUntil_assignments (fun _ _ => rfl) hadmits hdistinct fun _ _ => rfl
  unfold takeAll
  rw [htaken, List.nil_append, hrest]
  simp only [Given.finish, Given.settle, hsettled, Given.complete_empty]

def ServeOptions.values (o : ServeOptions) : List (String × String) :=
  (o.bindIp.map fun ip => ("bind", ip.text)).toList ++
    (o.maxInFlight.map fun n => ("max-in-flight", numeral n.toNat)).toList

def DetectOptions.values (o : DetectOptions) : List (String × String) :=
  (o.server.map fun s => ("server", s)).toList ++
    (o.attempts.map fun n => ("attempts", numeral n.toNat)).toList ++
    (o.timeoutMs.map fun n => ("timeout-ms", numeral n.toNat)).toList

theorem ServeOptions.admits_values (o : ServeOptions) : ∀ p ∈ o.values, Admits serveOptions p := by
  simp only [values, List.mem_append, Option.mem_toList, Option.map_eq_some_iff]
  rintro p (⟨ip, -, rfl⟩ | ⟨n, -, rfl⟩)
  · exact ⟨(by decide : '=' ∉ "bind".toList), _, _, rfl, rfl, by rw [Ip.ofString?_text]; rfl⟩
  · exact ⟨(by decide : '=' ∉ "max-in-flight".toList), _, _, rfl, rfl, by rw [uint64?_numeral]; rfl⟩

theorem DetectOptions.admits_values (o : DetectOptions) : ∀ p ∈ o.values, Admits detectOptions p := by
  simp only [values, List.mem_append, Option.mem_toList, Option.map_eq_some_iff]
  rintro p ((⟨s, -, rfl⟩ | ⟨n, -, rfl⟩) | ⟨n, -, rfl⟩)
  · exact ⟨(by decide : '=' ∉ "server".toList), _, _, rfl, rfl, rfl⟩
  · exact ⟨(by decide : '=' ∉ "attempts".toList), _, _, rfl, rfl, by rw [uint32?_numeral]; rfl⟩
  · exact ⟨(by decide : '=' ∉ "timeout-ms".toList), _, _, rfl, rfl, by rw [uint64?_numeral]; rfl⟩

/-- The arguments behind the name of a command. -/
def Command.written : Command → List String
  | .serve o => "serve" :: o.values.map assignment
  | .detect o => "detect" :: (o.values.map assignment ++ if o.json then ["--json"] else [])

theorem readServe_written (o : ServeOptions) :
    readServe (fun _ => none) (o.values.map assignment) = .ok (.serve o) := by
  have hdistinct : (o.values.map Prod.fst).Nodup := by
    cases hbind : o.bindIp <;> cases hmax : o.maxInFlight <;> simp [ServeOptions.values, hbind, hmax]
  have htaken : takeAll (fun _ => none) serveOptions (o.values.map assignment ++ []) =
      .ok ⟨o.values, none, false⟩ := takeAll_assignments o.admits_values hdistinct rfl rfl
  rw [List.append_nil] at htaken
  unfold readServe
  rw [htaken]
  obtain ⟨bindIp, maxInFlight⟩ := o
  cases bindIp <;> cases maxInFlight <;>
    simp [ServeOptions.values, Given.value?, List.lookup_cons, Ip.ofString?_text, uint64?_numeral, bind,
      Except.bind, pure, Except.pure]

/-- A switch in the end. -/
theorem takeUntil_json {ps : List (String × String)} (hnew : ps.lookup "json" = none) (json : Bool) :
    Given.takeUntil detectOptions (fun _ => false) (if json then ["--json"] else []) ⟨ps, none, false⟩ =
      .ok (⟨ps ++ if json then [("json", "")] else [], none, false⟩, []) := by
  cases json with
  | false => simp [Given.takeUntil]
  | true =>
    have hput : Given.take ⟨ps, none, false⟩ detectOptions "--json" =
        Given.put ⟨ps, none, false⟩ ⟨"json", none, none, .switch⟩ "" := rfl
    have htaken : Given.put ⟨ps, none, false⟩ ⟨"json", none, none, .switch⟩ "" =
        .ok ⟨ps ++ [("json", "")], none, false⟩ := by
      simp [Given.put, Given.value?, hnew]
    simp [Given.takeUntil, hput, htaken]

theorem readDetect_written (o : DetectOptions) :
    readDetect (fun _ => none) (o.values.map assignment ++ if o.json then ["--json"] else []) =
      .ok (.detect o) := by
  have hdistinct : (o.values.map Prod.fst).Nodup := by
    cases hserver : o.server <;> cases hattempts : o.attempts <;> cases htimeout : o.timeoutMs <;>
      simp [DetectOptions.values, hserver, hattempts, htimeout]
  have hnew : o.values.lookup "json" = none := by
    cases hserver : o.server <;> cases hattempts : o.attempts <;> cases htimeout : o.timeoutMs <;>
      simp [DetectOptions.values, List.lookup_cons, hserver, hattempts, htimeout]
  have htaken := takeAll_assignments o.admits_values hdistinct (takeUntil_json hnew o.json) rfl
  unfold readDetect
  rw [htaken]
  obtain ⟨server, attempts, timeoutMs, json⟩ := o
  cases server <;> cases attempts <;> cases timeoutMs <;> cases json <;>
    simp [DetectOptions.values, Given.value?, List.lookup_cons, uint32?_numeral, uint64?_numeral, bind,
      Except.bind, pure, Except.pure]

theorem readCommand_written (c : Command) : readCommand (fun _ => none) c.written = .ok c := by
  cases c with
  | serve o => exact readServe_written o
  | detect o => exact readDetect_written o

/-- The name of a command ends what is said in front of it. -/
theorem takeUntil_command (c : Command) (values : List (String × String)) :
    Given.takeUntil programOptions commandNames.contains c.written ⟨values, none, false⟩ =
      .ok (⟨values, none, false⟩, c.written) := by
  cases c <;> rfl

theorem not_command_assignment (p : String × String) : commandNames.contains (assignment p) = false := by
  have hhead : (assignment p).toList.head? = some '-' := by
    rw [toList_assignment, List.head?_cons]
  rw [List.contains_eq_mem, decide_eq_false_iff_not]
  intro hmem
  simp only [commandNames, List.mem_cons, List.not_mem_nil, or_false] at hmem
  rcases hmem with heq | heq | heq <;> rw [heq] at hhead <;> cases hhead

namespace Invocation

/-- The values in front of the command. -/
def values (i : Invocation) : List (String × String) := (i.config.map fun path => ("config", path)).toList

/-- The arguments that give the path of the settings and a command with its options. -/
def written (i : Invocation) : List String := i.values.map assignment ++ i.command.written

theorem admits_values {i : Invocation} (hconfig : i.config ≠ some "") :
    ∀ p ∈ i.values, Admits programOptions p := by
  simp only [values, Option.mem_toList, Option.map_eq_some_iff]
  rintro p ⟨path, hpath, rfl⟩
  have hsome : (path? path).isSome = true := by
    have hne : path ≠ "" := fun heq => hconfig (by rw [hpath, heq])
    simp [path?, hne]
  exact ⟨(by decide : '=' ∉ "config".toList), _, _, rfl, rfl, hsome⟩

/-- Every choice of options can be given, with every path but the empty one. -/
theorem ofArguments_written {i : Invocation} (hconfig : i.config ≠ some "") :
    Invocation.ofArguments (fun _ => none) i.written = .ok i := by
  have hdistinct : (i.values.map Prod.fst).Nodup := by
    cases hpath : i.config <;> simp [values, hpath]
  have hconfigs : (Given.value? ⟨i.values, none, false⟩ "config") = i.config := by
    cases hpath : i.config <;> simp [values, Given.value?, hpath]
  have htaken : Given.takeUntil programOptions commandNames.contains i.written .start =
      Given.takeUntil programOptions commandNames.contains i.command.written ⟨[] ++ i.values, none, false⟩ :=
    Given.takeUntil_assignments (fun p _ => not_command_assignment p) (admits_values hconfig) hdistinct
      fun _ _ => rfl
  rw [List.nil_append, takeUntil_command] at htaken
  simp only [ofArguments, htaken, readCommand_written, Given.finish, Given.settle,
    Given.complete_empty, hconfigs, bind, Except.bind, pure, Except.pure]

end Invocation

end NatBehaviour.CommandLine
