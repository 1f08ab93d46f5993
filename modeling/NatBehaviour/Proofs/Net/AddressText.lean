import NatBehaviour.Proofs.Net.Numeral

/-!
Addresses are read back from their text, whatever follows it. For IPv6 the text leaves out the longest
run of zeros: the search for it finds nothing but zeros, so that the reader puts back what was left
out. A group never passes for the beginning of an IPv4 address, since no point follows its digits.
-/

namespace NatBehaviour.Net

theorem takeOctet_decimal (a : UInt8) {rest : List Char} (hr : EndsNumeral 10 rest) :
    takeOctet (decimal a.toNat ++ rest) = some (a, rest) := by
  have hlen : (Nat.toDigits 10 a.toNat).length ≤ 3 :=
    (Nat.length_toDigits_le_iff (by decide) (by decide)).mpr (by have := a.toNat_lt; omega)
  have h : octet.take (decimal a.toNat ++ rest) = some (a.toNat, rest) :=
    Numeral.take_toDigits octet (by decide) (by decide) a.toNat_lt
      (by rintro k ⟨⟩; exact hlen) hr
  simp [takeOctet, h]

theorem endsNumeral_cons {base : Nat} {c : Char} (h : isDigitIn base c = false) (s : List Char) :
    EndsNumeral base (c :: s) := by
  rintro d ⟨⟩
  exact h

theorem takeDotOctet_decimal (a : UInt8) {rest : List Char} (hr : EndsNumeral 10 rest) :
    takeDotOctet ('.' :: decimal a.toNat ++ rest) = some (a, rest) := by
  simp [takeDotOctet, takeChar, takeOctet_decimal a hr]

/-- An IPv4 address is read back from its text. -/
theorem takeIpv4_chars (ip : Ipv4) {rest : List Char} (hr : EndsNumeral 10 rest) :
    takeIpv4 (ip.chars ++ rest) = some (ip, rest) := by
  have hdot (s : List Char) : EndsNumeral 10 ('.' :: s) := endsNumeral_cons (by decide) s
  simp only [Ipv4.chars, List.append_assoc, List.cons_append, takeIpv4]
  rw [takeOctet_decimal ip.a (hdot _)]
  simp only [Option.bind_eq_bind, Option.bind_some]
  rw [← List.cons_append, takeDotOctet_decimal ip.b (hdot _)]
  simp only [Option.bind_some]
  rw [← List.cons_append, takeDotOctet_decimal ip.c (hdot _)]
  simp only [Option.bind_some]
  rw [← List.cons_append, takeDotOctet_decimal ip.d hr]
  rfl

/-! ## The longest run of zeros -/

/-- A stretch of groups that are all zero. -/
def ZeroRun (gs : List UInt16) (run : Run) : Prop :=
  run.start + run.length ≤ gs.length ∧
    ∀ i, run.start ≤ i → i < run.start + run.length → gs[i]? = some 0

theorem ZeroRun.empty (gs : List UInt16) : ZeroRun gs ⟨0, 0⟩ :=
  ⟨by simp, fun i _ h => by simp at h⟩

theorem ZeroRun.extend {gs : List UInt16} {run : Run} (h : ZeroRun gs run)
    (hz : gs[run.start + run.length]? = some 0) : ZeroRun gs ⟨run.start, run.length + 1⟩ := by
  refine ⟨?_, fun i hs hi => ?_⟩
  · have := (List.getElem?_eq_some_iff.mp hz).1
    simp only
    omega
  · by_cases he : i = run.start + run.length
    · rw [he, hz]
    · exact h.2 i hs (by simp only at hi; omega)

/-- A zero at some place makes the run that ends there longer, or it starts a new one. -/
theorem ZeroRun.grow {gs : List UInt16} {current : Run} {i : Nat} (hc : ZeroRun gs current)
    (hend : current.length ≠ 0 → current.start + current.length = i) (hi : gs[i]? = some 0) :
    ∃ next, (if current.length = 0 then ⟨i, 1⟩ else ⟨current.start, current.length + 1⟩) = next ∧
      ZeroRun gs next ∧ next.start + next.length = i + 1 := by
  by_cases h : current.length = 0
  · have hzero : ZeroRun gs ⟨i, 0⟩ := by
      have hlt := (List.getElem?_eq_some_iff.mp hi).1
      refine ⟨by simp; omega, ?_⟩
      intro k hk hk'
      simp only at hk hk'
      omega
    rw [if_pos h]
    exact ⟨_, rfl, hzero.extend hi, rfl⟩
  · rw [if_neg h]
    refine ⟨_, rfl, hc.extend (by rwa [hend h]), ?_⟩
    simp only [← hend h]
    omega

/-- The current run and the best one so far are runs of zeros wherever the search stands. -/
theorem longestZeros_zeroRun (before gs : List UInt16) {current best : Run}
    (hc : ZeroRun (before ++ gs) current)
    (hend : current.length ≠ 0 → current.start + current.length = before.length)
    (hb : ZeroRun (before ++ gs) best) :
    ZeroRun (before ++ gs) (longestZeros before.length current best gs) := by
  induction gs generalizing before current best with
  | nil => exact hb
  | cons g gs ih =>
    have hshift : before ++ g :: gs = before ++ [g] ++ gs := by simp
    have hnext : before.length + 1 = (before ++ [g]).length := by simp
    unfold longestZeros
    split
    · rename_i hg
      obtain ⟨current', hcurrent, hc', hend'⟩ := hc.grow hend (by simp [hg])
      simp only [hcurrent]
      rw [hnext, hshift]
      rw [hshift] at hc' hb
      refine ih (before ++ [g]) hc' (fun _ => hend'.trans hnext) ?_
      split
      · exact hc'
      · exact hb
    · rw [hnext, hshift]
      rw [hshift] at hb
      exact ih (before ++ [g]) (.empty _) (by simp) hb

theorem ZeroRun.split {gs : List UInt16} {run : Run} (h : ZeroRun gs run) :
    gs.take run.start ++ List.replicate run.length 0 ++ gs.drop (run.start + run.length) = gs := by
  have hmid : (gs.drop run.start).take run.length = List.replicate run.length 0 := by
    apply List.ext_getElem?
    intro i
    rw [List.getElem?_take, List.getElem?_replicate]
    split
    · rw [List.getElem?_drop, h.2 _ (by omega) (by omega)]
    · rfl
  rw [← hmid, List.append_assoc, ← List.drop_drop, List.take_append_drop, List.take_append_drop]

/-! ## Groups -/

theorem takeGroup_toDigits (g : UInt16) {rest : List Char} (hr : EndsNumeral 16 rest) :
    group.take (Nat.toDigits 16 g.toNat ++ rest) = some (g.toNat, rest) := by
  have hlen : (Nat.toDigits 16 g.toNat).length ≤ 4 :=
    (Nat.length_toDigits_le_iff (by decide) (by decide)).mpr (by have := g.toNat_lt; omega)
  exact Numeral.take_toDigits group (by decide) (by decide) g.toNat_lt
    (by rintro k ⟨⟩; exact hlen) hr

theorem Numeral.take_eq_none {form : Numeral} {s : List Char} (h : EndsNumeral form.base s) :
    form.take s = none := by
  have hnil : s.takeWhile (isDigitIn form.base) = [] := by
    cases s with
    | nil => rfl
    | cons c s => simp [h c rfl]
  simp [Numeral.take, Numeral.admits, hnil]

/-- What is left of a text behind its first decimal digits does not begin with a point, so that no
IPv4 address stands at its front. -/
def NoIpv4 (s : List Char) : Prop := (s.dropWhile (isDigitIn 10)).head? ≠ some '.'

theorem takeIpv4_eq_none {s : List Char} (h : NoIpv4 s) : takeIpv4 s = none := by
  simp only [takeIpv4, takeOctet, Numeral.take, Option.bind_eq_bind]
  split
  · cases hs : s.dropWhile (isDigitIn octet.base) with
    | nil => simp [takeDotOctet, takeChar]
    | cons c t =>
      have hc : c ≠ '.' := by
        rintro rfl
        exact h (by rw [show (10 : Nat) = octet.base from rfl, hs]; rfl)
      simp [takeDotOctet, takeChar, hc]
  · rfl

theorem isDigitIn_mono {base base' : Nat} (hb : base ≤ base') {c : Char}
    (h : isDigitIn base c = true) : isDigitIn base' c = true := by
  simp only [isDigitIn, digitIn?, Option.isSome_ite] at h ⊢
  grind

theorem noIpv4_append {s rest : List Char} (hs : ∀ c ∈ s, isDigitIn 16 c = true)
    (hr : NoIpv4 rest) : NoIpv4 (s ++ rest) := by
  induction s with
  | nil => exact hr
  | cons c s ih =>
    have hc : c ≠ '.' := by
      rintro rfl
      exact absurd (hs '.' (by simp)) (by decide)
    simp only [NoIpv4, List.cons_append, List.dropWhile_cons]
    split
    · exact ih fun d hd => hs d (by simp [hd])
    · simpa using hc

/-- What may follow the groups of an address: no digit, no point, and no colon that leads on to
another group. -/
structure EndsGroups (rest : List Char) : Prop where
  digit : EndsNumeral 16 rest
  point : rest.head? ≠ some '.'
  colon : ∀ s, takeChar ':' rest = some s → EndsNumeral 16 s

theorem EndsNumeral.decimal {s : List Char} (h : EndsNumeral 16 s) : EndsNumeral 10 s := by
  intro c hc
  rw [Bool.eq_false_iff]
  intro hd
  have hx : isDigitIn 16 c = true := isDigitIn_mono (by decide) hd
  rw [h c hc] at hx
  cases hx

theorem EndsNumeral.noIpv4 {s : List Char} (h : EndsNumeral 16 s) (hp : s.head? ≠ some '.') :
    NoIpv4 s := by
  cases s with
  | nil => simp [NoIpv4]
  | cons c s => simpa [NoIpv4, h.decimal c rfl] using hp

/-- Groups behind the first one. -/
def laterGroups (gs : List UInt16) : List Char :=
  gs.flatMap fun g => ':' :: Nat.toDigits 16 g.toNat

theorem laterGroups_cons (g : UInt16) (gs : List UInt16) :
    laterGroups (g :: gs) = ':' :: Nat.toDigits 16 g.toNat ++ laterGroups gs := rfl

theorem groupChars_cons (g : UInt16) (gs : List UInt16) :
    groupChars (g :: gs) = Nat.toDigits 16 g.toNat ++ laterGroups gs := by
  induction gs generalizing g with
  | nil => simp [groupChars, laterGroups]
  | cons h gs ih =>
    have hg : groupChars (g :: h :: gs) = Nat.toDigits 16 g.toNat ++ ':' :: groupChars (h :: gs) := by
      simp [groupChars, List.intercalate_cons_cons]
    rw [hg, ih h, laterGroups_cons, List.cons_append]

theorem EndsGroups.later {rest : List Char} (hr : EndsGroups rest) (gs : List UInt16) :
    EndsNumeral 16 (laterGroups gs ++ rest) ∧ (laterGroups gs ++ rest).head? ≠ some '.' := by
  cases gs with
  | nil => exact ⟨hr.digit, hr.point⟩
  | cons g gs => exact ⟨endsNumeral_cons (by decide) _, by simp [laterGroups_cons]⟩

/-- One group is taken, whatever follows it. -/
theorem takeGroups_group {room : Nat} {isFirst : Bool} {s rest : List Char} {g : UInt16}
    (hs : takeSeparator isFirst s = some (Nat.toDigits 16 g.toNat ++ rest))
    (hr : EndsNumeral 16 rest) (hp : rest.head? ≠ some '.') :
    takeGroups (room + 1) isFirst s =
      (⟨g :: (takeGroups room false rest).1.groups, (takeGroups room false rest).1.endsInIpv4⟩,
        (takeGroups room false rest).2) := by
  have hno : (if room = 0 then none else (takeSeparator isFirst s).bind takeIpv4) = none := by
    rw [hs, Option.bind_some, takeIpv4_eq_none (noIpv4_append
      (fun c hc => isDigitIn_of_mem_toDigits (by decide) (by decide) hc) (hr.noIpv4 hp)), ite_self]
  rw [takeGroups, hno, hs]
  simp only [Option.bind_some, takeGroup_toDigits g hr, UInt16.ofNat_toNat, Nat.toUInt16_eq]

theorem takeGroups_stop {room : Nat} {isFirst : Bool} {s : List Char}
    (h : ∀ t, takeSeparator isFirst s = some t → EndsNumeral 16 t) :
    takeGroups room isFirst s = (⟨[], false⟩, s) := by
  cases room with
  | zero => rfl
  | succ room =>
    rw [takeGroups]
    cases ht : takeSeparator isFirst s with
    | none => simp
    | some t =>
      have h10 : octet.take t = none := Numeral.take_eq_none (h t ht).decimal
      have h16 : group.take t = none := Numeral.take_eq_none (h t ht)
      simp [takeIpv4, takeOctet, h10, h16]

theorem takeGroups_later {rest : List Char} (hr : EndsGroups rest) (gs : List UInt16) {room : Nat}
    (hroom : gs.length ≤ room) :
    takeGroups room false (laterGroups gs ++ rest) = (⟨gs, false⟩, rest) := by
  induction gs generalizing room with
  | nil => exact takeGroups_stop hr.colon
  | cons g gs ih =>
    obtain ⟨room, rfl⟩ : ∃ k, room = k + 1 := ⟨room - 1, by simp at hroom; omega⟩
    have hs : takeSeparator false (laterGroups (g :: gs) ++ rest) =
        some (Nat.toDigits 16 g.toNat ++ (laterGroups gs ++ rest)) := by
      simp [takeSeparator, laterGroups_cons, takeChar]
    rw [takeGroups_group hs (hr.later gs).1 (hr.later gs).2, ih (by simpa using hroom)]

/-- The groups of one part are read back, if the part ends there. -/
theorem takeGroups_groupChars {rest : List Char} (hr : EndsGroups rest) (gs : List UInt16)
    {room : Nat} (hroom : gs.length ≤ room) :
    takeGroups room true (groupChars gs ++ rest) = (⟨gs, false⟩, rest) := by
  cases gs with
  | nil => exact takeGroups_stop (by rintro t ⟨⟩; exact hr.digit)
  | cons g gs =>
    obtain ⟨room, rfl⟩ : ∃ k, room = k + 1 := ⟨room - 1, by simp at hroom; omega⟩
    have hs : takeSeparator true (groupChars (g :: gs) ++ rest) =
        some (Nat.toDigits 16 g.toNat ++ (laterGroups gs ++ rest)) := by
      simp [takeSeparator, groupChars_cons]
    rw [takeGroups_group hs (hr.later gs).1 (hr.later gs).2,
      takeGroups_later hr gs (by simpa using hroom)]

/-! ## Addresses -/

theorem Ipv6.ofGroups?_groups (ip : Ipv6) : ofGroups? ip.groups = some ip := rfl

theorem endsGroups_colons (s : List Char) : EndsGroups (':' :: ':' :: s) where
  digit := endsNumeral_cons (by decide) _
  point := by simp
  colon := by
    intro t ht
    simp only [takeChar, if_true, Option.some.injEq] at ht
    exact ht ▸ endsNumeral_cons (by decide) _

theorem takeIpv6_plain (ip : Ipv6) {rest : List Char} (hr : EndsGroups rest) :
    takeIpv6 (groupChars ip.groups ++ rest) = some (ip, rest) := by
  simp only [takeIpv6, takeGroups_groupChars hr ip.groups (Nat.le_refl 8)]
  simp [Ipv6.groups, Ipv6.ofGroups?]

/-- An address of which a run of at least two zeros has been left out. -/
theorem takeIpv6_compressed (ip : Ipv6) {run : Run} (hz : ZeroRun ip.groups run)
    (hl : 1 < run.length) {rest : List Char} (hr : EndsGroups rest) :
    takeIpv6 (groupChars (ip.groups.take run.start) ++ ':' :: ':' ::
      (groupChars (ip.groups.drop (run.start + run.length)) ++ rest)) = some (ip, rest) := by
  have hlen : ip.groups.length = 8 := rfl
  have hfit := hz.1
  have hhead : (ip.groups.take run.start).length = run.start := by
    rw [List.length_take]
    omega
  have htail : (ip.groups.drop (run.start + run.length)).length = 8 - run.start - run.length := by
    rw [List.length_drop]
    omega
  have hzeros : 8 - run.start - (8 - run.start - run.length) = run.length := by omega
  simp only [takeIpv6]
  rw [takeGroups_groupChars (endsGroups_colons _) _ (by omega)]
  simp only [hhead, show run.start ≠ 8 by omega, if_false, Bool.false_eq_true, takeChar, if_true,
    Option.bind_eq_bind, Option.bind_some]
  rw [takeGroups_groupChars hr _ (by omega)]
  simp only [htail, hzeros, hz.split, Ipv6.ofGroups?_groups]
  rfl

theorem Ipv4.groups_of_mapped {ip : Ipv6} {ip' : Ipv4} (h : ip.mapped? = some ip') :
    ip.groups = [0, 0, 0, 0, 0, 0xFFFF] ++ ip'.groups := by
  have word (g : UInt16) :
      (g / 256).toUInt8.toUInt16 * 256 + (g % 256).toUInt8.toUInt16 = g := by
    apply UInt16.toNat_inj.mp
    have := g.toNat_lt
    simp
    omega
  simp only [Ipv6.mapped?, Option.ite_none_right_eq_some, Option.some.injEq] at h
  obtain ⟨hfront, rfl⟩ := h
  simp only [Ipv4.groups, word]
  simpa [Ipv6.groups] using hfront

/-- An IPv4-mapped address, which ends in its IPv4 form. -/
theorem takeIpv6_mapped {ip : Ipv6} {ip' : Ipv4} (h : ip.mapped? = some ip') {rest : List Char}
    (hr : EndsNumeral 16 rest) :
    takeIpv6 ([':', ':', 'f', 'f', 'f', 'f', ':'] ++ ip'.chars ++ rest) = some (ip, rest) := by
  have htail : takeGroups 7 true (['f', 'f', 'f', 'f', ':'] ++ ip'.chars ++ rest) =
      (⟨0xFFFF :: ip'.groups, true⟩, rest) := by
    have hs : takeSeparator true (['f', 'f', 'f', 'f', ':'] ++ ip'.chars ++ rest) =
        some (Nat.toDigits 16 (0xFFFF : UInt16).toNat ++ (':' :: (ip'.chars ++ rest))) := rfl
    have hv4 : takeGroups 6 false (':' :: (ip'.chars ++ rest)) = (⟨ip'.groups, true⟩, rest) := by
      simp [takeGroups, takeSeparator, takeChar, takeIpv4_chars ip' hr.decimal]
    rw [takeGroups_group hs (endsNumeral_cons (by decide) _) (by simp), hv4]
  have hhead : takeGroups 8 true ([':', ':', 'f', 'f', 'f', 'f', ':'] ++ ip'.chars ++ rest) =
      (⟨[], false⟩, [':', ':', 'f', 'f', 'f', 'f', ':'] ++ ip'.chars ++ rest) :=
    takeGroups_stop (by rintro t ⟨⟩; exact endsNumeral_cons (by decide) _)
  have hof : Ipv6.ofGroups? ([0, 0, 0, 0, 0, 0xFFFF] ++ ip'.groups) = some ip := by
    rw [← Ipv4.groups_of_mapped h, Ipv6.ofGroups?_groups]
  simp only [takeIpv6]
  rw [hhead]
  simp only [List.length_nil, show 0 ≠ 8 by decide, if_false, Bool.false_eq_true, List.cons_append,
    List.nil_append, takeChar, if_true, Option.bind_eq_bind, Option.bind_some, Nat.sub_zero]
  simp only [List.cons_append, List.nil_append] at htail
  rw [htail]
  exact congrArg (Option.bind · fun ip => some (ip, rest)) hof

/-- An IPv6 address is read back from its text. -/
theorem takeIpv6_chars (ip : Ipv6) {rest : List Char} (hr : EndsGroups rest) :
    takeIpv6 (ip.chars ++ rest) = some (ip, rest) := by
  rw [Ipv6.chars]
  cases h : ip.mapped? with
  | some ip' => exact takeIpv6_mapped h hr.digit
  | none =>
    simp only
    split
    · rename_i hl
      have hz := longestZeros_zeroRun [] ip.groups (.empty _) (by simp) (.empty _)
      rw [List.append_assoc, List.cons_append, List.cons_append]
      exact takeIpv6_compressed ip hz hl hr
    · exact takeIpv6_plain ip hr

/-! ## Addresses of both kinds -/

theorem endsGroups_nil : EndsGroups [] where
  digit := nofun
  point := by simp
  colon := nofun

theorem noIpv4_groupChars {rest : List Char} (hr : EndsGroups rest) (gs : List UInt16) :
    NoIpv4 (groupChars gs ++ rest) := by
  cases gs with
  | nil => exact hr.digit.noIpv4 hr.point
  | cons g gs =>
    rw [groupChars_cons, List.append_assoc]
    obtain ⟨hdigit, hpoint⟩ := hr.later gs
    have hg : ∀ c ∈ Nat.toDigits 16 g.toNat, isDigitIn 16 c = true :=
      fun c hc => isDigitIn_of_mem_toDigits (by decide) (by decide) hc
    exact noIpv4_append hg (hdigit.noIpv4 hpoint)

/-- The text of an IPv6 address is not taken for an IPv4 one, also where it ends in one. -/
theorem Ipv6.noIpv4_chars (ip : Ipv6) : NoIpv4 ip.chars := by
  rw [Ipv6.chars]
  cases ip.mapped? with
  | some ip' => simp [NoIpv4, show isDigitIn 10 ':' = false by decide]
  | none =>
    simp only
    split
    · exact noIpv4_groupChars (endsGroups_colons _) _
    · have hplain := noIpv4_groupChars endsGroups_nil ip.groups
      rwa [List.append_nil] at hplain

/-- An address is read back from its text. -/
theorem Ip.ofString?_text (ip : Ip) : ofString? ip.text = some ip := by
  have htake : takeIp ip.chars = some (ip, []) := by
    cases ip with
    | v4 ip =>
      have h : takeIpv4 (ip.chars ++ []) = some (ip, []) := takeIpv4_chars ip nofun
      rw [List.append_nil] at h
      simp [takeIp, chars, h]
    | v6 ip =>
      have h := takeIpv6_chars ip endsGroups_nil
      rw [List.append_nil] at h
      simp [takeIp, chars, takeIpv4_eq_none ip.noIpv4_chars, h]
  simp [ofString?, ofWhole?, text, htake]

end NatBehaviour.Net
