import NatBehaviour.Net.IpReader

/-!
Numbers in addresses are read back from their digits, in every base up to sixteen, as long as no
further digit follows.
-/

namespace NatBehaviour.Net

theorem digitIn?_digitChar {base d : Nat} (hb : base ≤ 16) (hd : d < base) :
    digitIn? base d.digitChar = some d := by
  have table : ∀ b < 17, ∀ d < b, digitIn? b d.digitChar = some d := by decide
  exact table base (by omega) d hd

theorem isDigitIn_of_mem_toDigits {base n : Nat} {c : Char} (hl : 1 < base) (hb : base ≤ 16)
    (h : c ∈ Nat.toDigits base n) : isDigitIn base c = true := by
  induction n using Nat.strongRecOn with
  | ind n ih =>
    rw [Nat.toDigits_eq_if hl] at h
    split at h
    · rename_i hn
      rw [List.mem_singleton.mp h, isDigitIn, digitIn?_digitChar hb hn, Option.isSome_some]
    · rename_i hn
      rcases List.mem_append.mp h with h | h
      · exact ih (n / base) (Nat.div_lt_self (by omega) hl) h
      · rw [List.mem_singleton.mp h, isDigitIn,
          digitIn?_digitChar hb (Nat.mod_lt _ (by omega)), Option.isSome_some]

theorem numeral_append (base : Nat) (s : List Char) (c : Char) :
    numeral base (s ++ [c]) = numeral base s * base + (digitIn? base c).getD 0 := by
  simp [numeral]

theorem numeral_toDigits {base : Nat} (hl : 1 < base) (hb : base ≤ 16) (n : Nat) :
    numeral base (Nat.toDigits base n) = n := by
  induction n using Nat.strongRecOn with
  | ind n ih =>
    rw [Nat.toDigits_eq_if hl]
    split
    · rename_i hn
      simp [numeral, digitIn?_digitChar hb hn]
    · rename_i hn
      rw [numeral_append, ih (n / base) (Nat.div_lt_self (by omega) hl),
        digitIn?_digitChar hb (Nat.mod_lt _ (by omega)), Option.getD_some, Nat.div_add_mod']

/-- No number but zero begins with a zero. -/
theorem head_toDigits_ne_zero {base n : Nat} (hl : 1 < base) (hn : n ≠ 0) :
    (Nat.toDigits base n).head? ≠ some '0' := by
  induction n using Nat.strongRecOn with
  | ind n ih =>
    rw [Nat.toDigits_eq_if hl]
    split
    · simpa using hn
    · rename_i h
      have hq : n / base ≠ 0 := by
        have := Nat.div_pos (by omega : base ≤ n) (by omega)
        omega
      have hd := ih (n / base) (Nat.div_lt_self (by omega) hl) hq
      cases hs : Nat.toDigits base (n / base) with
      | nil => exact absurd hs Nat.toDigits_ne_nil
      | cons c s => simpa [hs] using hd

/-- What may follow a number: nothing, or something else than a digit. -/
def EndsNumeral (base : Nat) (rest : List Char) : Prop :=
  ∀ c ∈ rest.head?, isDigitIn base c = false

theorem takeWhile_toDigits {base n : Nat} {rest : List Char} (hl : 1 < base) (hb : base ≤ 16)
    (hr : EndsNumeral base rest) :
    (Nat.toDigits base n ++ rest).takeWhile (isDigitIn base) = Nat.toDigits base n := by
  rw [List.takeWhile_append_of_pos fun c hc => isDigitIn_of_mem_toDigits hl hb hc]
  cases rest with
  | nil => simp
  | cons c rest => simp [hr c rfl]

theorem dropWhile_toDigits {base n : Nat} {rest : List Char} (hl : 1 < base) (hb : base ≤ 16)
    (hr : EndsNumeral base rest) :
    (Nat.toDigits base n ++ rest).dropWhile (isDigitIn base) = rest := by
  rw [List.dropWhile_append_of_pos fun c hc => isDigitIn_of_mem_toDigits hl hb hc]
  cases rest with
  | nil => rfl
  | cons c rest => simp [hr c rfl]

theorem Numeral.admits_toDigits {form : Numeral} {n : Nat} (hl : 1 < form.base)
    (hb : form.base ≤ 16) (hn : n < form.limit)
    (hm : ∀ k ∈ form.maxDigits, (Nat.toDigits form.base n).length ≤ k) :
    form.admits (Nat.toDigits form.base n) = true := by
  have hzero : (Nat.toDigits form.base n).length = 1 ∨
      (Nat.toDigits form.base n).head? ≠ some '0' := by
    by_cases h : n = 0
    · exact .inl (by simp [h])
    · exact .inr (head_toDigits_ne_zero hl h)
  simp only [Numeral.admits, numeral_toDigits hl hb, Bool.and_eq_true, Bool.or_eq_true,
    decide_eq_true_eq, hn, and_true, Bool.not_eq_true', List.isEmpty_eq_false_iff]
  refine ⟨⟨Nat.toDigits_ne_nil, ?_⟩, ?_⟩
  · cases hk : form.maxDigits with
    | none => rfl
    | some k => simpa using hm k hk
  · rcases hzero with h | h <;> simp [h]

/-- A number is read back from its digits. -/
theorem Numeral.take_toDigits (form : Numeral) {n : Nat} {rest : List Char} (hl : 1 < form.base)
    (hb : form.base ≤ 16) (hn : n < form.limit)
    (hm : ∀ k ∈ form.maxDigits, (Nat.toDigits form.base n).length ≤ k)
    (hr : EndsNumeral form.base rest) :
    form.take (Nat.toDigits form.base n ++ rest) = some (n, rest) := by
  simp only [Numeral.take, takeWhile_toDigits hl hb hr, dropWhile_toDigits hl hb hr,
    Numeral.admits_toDigits hl hb hn hm, numeral_toDigits hl hb, if_true]
end NatBehaviour.Net
