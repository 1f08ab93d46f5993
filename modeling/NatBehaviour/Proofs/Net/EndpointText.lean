import NatBehaviour.Net.Endpoint
import NatBehaviour.Proofs.Net.AddressText

/-!
The text of an endpoint: it is read back to the same endpoint, so that endpoints with the same text are
equal, and it is short.
-/

namespace NatBehaviour.Net

theorem endsGroups_cons {c : Char} (hd : isDigitIn 16 c = false) (hp : c ≠ '.') (hc : c ≠ ':')
    (s : List Char) : EndsGroups (c :: s) where
  digit := endsNumeral_cons hd s
  point := by simpa using hp
  colon := by simp [takeChar, hc]

namespace Endpoint

theorem takePort_decimal (p : UInt16) : takePort (':' :: decimal p.toNat) = some (p, []) := by
  have h : Net.port.take (decimal p.toNat ++ []) = some (p.toNat, []) :=
    Numeral.take_toDigits Net.port (by decide) (by decide) p.toNat_lt (by rintro k ⟨⟩)
      (by rintro c ⟨⟩)
  rw [List.append_nil] at h
  simp [takePort, takeChar, h]

theorem takeScope_decimal (n : UInt32) (s : List Char) :
    takeScope ((if n = 0 then [] else '%' :: decimal n.toNat) ++ ']' :: s) = (n, ']' :: s) := by
  split
  · rename_i h
    simp [takeScope, takeChar, h]
  · have h : Net.scope.take (decimal n.toNat ++ ']' :: s) = some (n.toNat, ']' :: s) :=
      Numeral.take_toDigits Net.scope (by decide) (by decide) n.toNat_lt (by rintro k ⟨⟩)
        (endsNumeral_cons (by decide) s)
    simp [takeScope, takeChar, h]

theorem takeV6_chars (ip : Ipv6) (p : UInt16) (n : UInt32) :
    takeV6 (chars (.v6 ip p n)) = some (.v6 ip p n, []) := by
  have hends : EndsGroups ((if n = 0 then [] else '%' :: decimal n.toNat) ++
      ']' :: ':' :: decimal p.toNat) := by
    split
    · exact endsGroups_cons (by decide) (by decide) (by decide) _
    · exact endsGroups_cons (by decide) (by decide) (by decide) _
  simp only [takeV6, chars, List.cons_append, List.append_assoc]
  simp only [takeChar, if_true, Option.bind_eq_bind, Option.bind_some]
  rw [takeIpv6_chars ip hends]
  simp only [Option.bind_some, takeScope_decimal, if_true]
  rw [takePort_decimal]
  rfl

theorem takeV4_bracket (s : List Char) : takeV4 ('[' :: s) = none := by
  simp [takeV4, takeIpv4_eq_none (s := '[' :: s) (by simp [NoIpv4, show isDigitIn 10 '[' = false by decide])]

theorem take_chars (e : Endpoint) : take e.chars = some (e, []) := by
  cases e with
  | v4 ip p =>
    have hends : EndsNumeral 10 (':' :: decimal p.toNat) := endsNumeral_cons (by decide) _
    have h : takeV4 (chars (.v4 ip p)) = some (.v4 ip p, []) := by
      simp [takeV4, chars, takeIpv4_chars ip hends, takePort_decimal]
    simp [take, h]
  | v6 ip p n =>
    have hv4 : takeV4 (chars (.v6 ip p n)) = none := takeV4_bracket _
    simp [take, hv4, takeV6_chars]

/-- An endpoint is read back from its text. -/
theorem ofString?_text (e : Endpoint) : ofString? e.text = some e := by
  simp [ofString?, ofWhole?, text, take_chars]

theorem text_injective {a b : Endpoint} (h : a.text = b.text) : a = b := by
  have ha := ofString?_text a
  rw [h, ofString?_text] at ha
  exact (Option.some.inj ha).symm

theorem text_eq_iff {a b : Endpoint} : a.text = b.text ↔ a = b :=
  ⟨text_injective, congrArg text⟩

end Endpoint

/-! ## How long a text can be -/

theorem length_decimal_le {n k : Nat} (hk : 0 < k) (h : n < Nat.pow 10 k) :
    (decimal n).length ≤ k :=
  (Nat.length_toDigits_le_iff (by decide) hk).mpr h

theorem Ipv4.length_chars_le (ip : Ipv4) : ip.chars.length ≤ 15 := by
  have h (x : UInt8) : (decimal x.toNat).length ≤ 3 :=
    length_decimal_le (by decide) (Nat.lt_of_lt_of_le x.toNat_lt (by decide))
  have := h ip.a
  have := h ip.b
  have := h ip.c
  have := h ip.d
  simp only [Ipv4.chars, List.length_append, List.length_cons]
  omega

theorem length_laterGroups_le (gs : List UInt16) : (laterGroups gs).length ≤ 5 * gs.length := by
  induction gs with
  | nil => simp [laterGroups]
  | cons g gs ih =>
    have hg : (Nat.toDigits 16 g.toNat).length ≤ 4 :=
      (Nat.length_toDigits_le_iff (by decide) (by decide)).mpr (by have := g.toNat_lt; omega)
    simp only [laterGroups_cons, List.length_append, List.length_cons]
    omega

theorem length_groupChars_le (gs : List UInt16) : (groupChars gs).length ≤ 5 * gs.length := by
  cases gs with
  | nil => simp [groupChars]
  | cons g gs =>
    have h := length_laterGroups_le (g :: gs)
    rw [laterGroups_cons] at h
    rw [groupChars_cons]
    simp only [List.length_append, List.length_cons] at h ⊢
    omega

theorem Ipv6.length_chars_le (ip : Ipv6) : ip.chars.length ≤ 42 := by
  rw [Ipv6.chars]
  split
  · rename_i ip' _
    have := ip'.length_chars_le
    simp only [List.length_append, List.length_cons, List.length_nil]
    omega
  · have hlen : ip.groups.length = 8 := rfl
    have hz := (longestZeros_zeroRun [] ip.groups (.empty _) (by simp) (.empty _)).1
    simp only
    split
    · have hhead := length_groupChars_le
        (ip.groups.take (longestZeros 0 ⟨0, 0⟩ ⟨0, 0⟩ ip.groups).start)
      have htail := length_groupChars_le (ip.groups.drop
        ((longestZeros 0 ⟨0, 0⟩ ⟨0, 0⟩ ip.groups).start +
          (longestZeros 0 ⟨0, 0⟩ ⟨0, 0⟩ ip.groups).length))
      simp only [List.length_append, List.length_cons, List.length_take, List.length_drop] at hhead htail ⊢
      simp only [List.nil_append, List.length_nil] at hz
      omega
    · have := length_groupChars_le ip.groups
      omega

theorem Endpoint.length_chars_le (e : Endpoint) : e.chars.length ≤ 61 := by
  have hport (p : UInt16) : (decimal p.toNat).length ≤ 5 :=
    length_decimal_le (by decide) (Nat.lt_of_lt_of_le p.toNat_lt (by decide))
  cases e with
  | v4 ip p =>
    have := ip.length_chars_le
    have := hport p
    simp only [Endpoint.chars, List.length_append, List.length_cons]
    omega
  | v6 ip p n =>
    have := ip.length_chars_le
    have := hport p
    have hscope : (if n = 0 then [] else '%' :: decimal n.toNat).length ≤ 11 := by
      split
      · simp
      · have hn : n.toNat < Nat.pow 10 10 := Nat.lt_of_lt_of_le n.toNat_lt (by decide)
        have := length_decimal_le (by decide) hn
        rw [List.length_cons]
        omega
    simp only [Endpoint.chars, List.length_append, List.length_cons]
    omega

end NatBehaviour.Net
