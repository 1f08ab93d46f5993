import Mathlib.Tactic.Ring
import NatBehaviour.Settings.Probe

/-!
Spans of time as numbers of nanoseconds. A span has at most as many whole seconds as a word can count, and
within these limits there is exactly one span of every length. So the product of a span with a number is the
span of that length, however seconds and nanoseconds are multiplied apart; and where there is no span of that
length, there is no product.
-/

namespace NatBehaviour.Settings

namespace Duration

variable {d e : Duration} {n : UInt32}

/-- The length of a span in nanoseconds. -/
def length (d : Duration) : Nat := d.seconds.toNat * nanosPerSecond + d.nanos.toNat

theorem length_div (d : Duration) : d.length / nanosPerSecond = d.seconds.toNat := by
  have hnanos := d.nanos_lt
  rw [nanosPerSecond] at hnanos
  rw [length, nanosPerSecond]
  omega

theorem length_mod (d : Duration) : d.length % nanosPerSecond = d.nanos.toNat := by
  rw [length, Nat.mul_add_mod_self_right, Nat.mod_eq_of_lt d.nanos_lt]

theorem eq_of_length (h : d.length = e.length) : d = e := by
  have hseconds : d.seconds = e.seconds := by
    rw [← UInt64.toNat_inj, ← d.length_div, ← e.length_div, h]
  have hnanos : d.nanos = e.nanos := by
    rw [← UInt32.toNat_inj, ← d.length_mod, ← e.length_mod, h]
  cases d
  cases e
  simp_all

/-- There is a span of a length unless it has too many seconds. -/
theorem exists_length_iff {total : Nat} :
    (∃ d : Duration, d.length = total) ↔ total / nanosPerSecond < UInt64.size := by
  constructor
  · intro h
    obtain ⟨d, rfl⟩ := h
    rw [length_div]
    exact d.seconds.toNat_lt_size
  · intro hseconds
    have hnanos : total % nanosPerSecond < nanosPerSecond := Nat.mod_lt _ (by decide)
    have hword : total % nanosPerSecond < UInt32.size := Nat.lt_trans hnanos (by decide)
    refine ⟨⟨.ofNatLT _ hseconds, .ofNatLT _ hword, ?_⟩, ?_⟩
    · rw [UInt32.toNat_ofNatLT]
      exact hnanos
    · rw [length, UInt64.toNat_ofNatLT, UInt32.toNat_ofNatLT, Nat.div_add_mod']

/-- The parts of a span of whole milliseconds. -/
theorem length_eq_millis_iff {ms : Nat} : d.length = ms * nanosPerMilli ↔
    d.seconds.toNat = ms / 1000 ∧ d.nanos.toNat = ms % 1000 * nanosPerMilli ∧
      d.nanos.toNat < nanosPerSecond := by
  have hnanos := d.nanos_lt
  simp only [length, nanosPerSecond, nanosPerMilli] at hnanos ⊢
  omega

theorem length_ofMillis (ms : UInt64) : (ofMillis ms).length = ms.toNat * nanosPerMilli := by
  have hrest : (ms % 1000).toUInt32.toNat = ms.toNat % 1000 := by
    rw [UInt64.toNat_toUInt32, UInt64.toNat_mod]
    exact Nat.mod_eq_of_lt (Nat.lt_trans (Nat.mod_lt _ (by decide)) (by decide))
  have hnanos : ((ms % 1000).toUInt32 * 1000000).toNat = ms.toNat % 1000 * nanosPerMilli := by
    rw [UInt32.toNat_mul, hrest]
    exact Nat.mod_eq_of_lt (Nat.lt_of_lt_of_le
      (Nat.mul_lt_mul_of_pos_right (Nat.mod_lt _ (by decide)) (by decide)) (by decide))
  have hseconds : (ms / 1000).toNat = ms.toNat / 1000 := UInt64.toNat_div ms 1000
  rw [length, ofMillis, hnanos, hseconds, nanosPerSecond, nanosPerMilli]
  omega

theorem secondsTimes?_eq_some_iff {a s : UInt64} :
    secondsTimes? a n = some s ↔ s.toNat = a.toNat * n.toNat := by
  unfold secondsTimes?
  split
  · rename_i hfits
    have hproduct : (a * n.toUInt64).toNat = a.toNat * n.toNat := by
      rw [UInt64.toNat_mul, UInt32.toNat_toUInt64]
      exact Nat.mod_eq_of_lt hfits
    rw [Option.some_inj, ← UInt64.toNat_inj, hproduct, eq_comm]
  · rename_i hover
    have hword := s.toNat_lt_size
    simp only [reduceCtorEq, false_iff]
    omega

theorem secondsPlus?_eq_some_iff {a b s : UInt64} :
    secondsPlus? a b = some s ↔ s.toNat = a.toNat + b.toNat := by
  unfold secondsPlus?
  split
  · rename_i hfits
    have hsum : (a + b).toNat = a.toNat + b.toNat := by
      rw [UInt64.toNat_add]
      exact Nat.mod_eq_of_lt hfits
    rw [Option.some_inj, ← UInt64.toNat_inj, hsum, eq_comm]
  · rename_i hover
    have hword := s.toNat_lt_size
    simp only [reduceCtorEq, false_iff]
    omega

/-- The nanoseconds of a product, before they carry, fit into a word. -/
theorem toNat_nanos_mul (d : Duration) (n : UInt32) :
    (d.nanos.toUInt64 * n.toUInt64).toNat = d.nanos.toNat * n.toNat := by
  have hfits : d.nanos.toNat * n.toNat < UInt64.size :=
    Nat.lt_of_lt_of_le (Nat.mul_lt_mul'' d.nanos_lt n.toNat_lt_size) (by decide)
  rw [UInt64.toNat_mul, UInt32.toNat_toUInt64, UInt32.toNat_toUInt64]
  exact Nat.mod_eq_of_lt hfits

/-- The parts of a product. The seconds among the nanoseconds are added to the others. -/
theorem times?_parts : d.times? n = some e ↔
    e.seconds.toNat = d.seconds.toNat * n.toNat + d.nanos.toNat * n.toNat / nanosPerSecond ∧
      e.nanos.toNat = d.nanos.toNat * n.toNat % nanosPerSecond := by
  have hcarry : (d.nanos.toUInt64 * n.toUInt64 / 1000000000).toNat =
      d.nanos.toNat * n.toNat / nanosPerSecond := by
    rw [UInt64.toNat_div, toNat_nanos_mul]
    rfl
  have hrest : (d.nanos.toUInt64 * n.toUInt64 % 1000000000).toUInt32.toNat =
      d.nanos.toNat * n.toNat % nanosPerSecond := by
    rw [UInt64.toNat_toUInt32, UInt64.toNat_mod, toNat_nanos_mul]
    exact Nat.mod_eq_of_lt (Nat.lt_trans (Nat.mod_lt _ (by decide)) (by decide))
  simp only [times?, Option.bind_eq_bind, Option.bind_eq_some_iff, secondsTimes?_eq_some_iff,
    secondsPlus?_eq_some_iff, hcarry]
  constructor
  · intro h
    obtain ⟨s, hs, s', hs', h⟩ := h
    cases h
    exact ⟨by rw [hs', hs], hrest⟩
  · intro h
    obtain ⟨hseconds, hnanos⟩ := h
    have hfits : d.seconds.toNat * n.toNat < UInt64.size :=
      Nat.lt_of_le_of_lt (hseconds ▸ Nat.le_add_right _ _) e.seconds.toNat_lt_size
    refine ⟨.ofNatLT _ hfits, UInt64.toNat_ofNatLT .., e.seconds, ?_, ?_⟩
    · rw [hseconds, UInt64.toNat_ofNatLT]
    · refine congrArg some (eq_of_length ?_)
      rw [length, length, hrest, hnanos]

/-- A product is exact: the nanoseconds that carry are neither lost nor counted twice. -/
theorem times?_eq_some_iff : d.times? n = some e ↔ e.length = d.length * n.toNat := by
  have hlength : d.length * n.toNat =
      d.seconds.toNat * n.toNat * nanosPerSecond + d.nanos.toNat * n.toNat := by
    rw [length]
    ring
  have hseconds : d.length * n.toNat / nanosPerSecond =
      d.seconds.toNat * n.toNat + d.nanos.toNat * n.toNat / nanosPerSecond := by
    rw [hlength, Nat.mul_comm, Nat.mul_add_div (by decide)]
  have hnanos : d.length * n.toNat % nanosPerSecond = d.nanos.toNat * n.toNat % nanosPerSecond := by
    rw [hlength, Nat.mul_add_mod_self_right]
  rw [times?_parts, ← hseconds, ← hnanos, ← e.length_div, ← e.length_mod]
  constructor
  · intro h
    rw [← Nat.div_add_mod' e.length nanosPerSecond, h.1, h.2, Nat.div_add_mod']
  · intro h
    rw [h]
    exact ⟨rfl, rfl⟩

theorem times?_eq_none_iff :
    d.times? n = none ↔ UInt64.size ≤ d.length * n.toNat / nanosPerSecond := by
  rw [← Nat.not_lt, ← exists_length_iff, Option.eq_none_iff_forall_ne_some]
  simp only [ne_eq, times?_eq_some_iff, not_exists]

end Duration

/-! ## The budget of a batch -/

namespace Probe

variable {p : Probe} {d : Duration}

/-- The longest time that a batch can take, in milliseconds. -/
def budgetMs (p : Probe) : Nat := p.timeoutMs.toNat * p.maxAttempts.toNat

theorem length_timeout_mul (p : Probe) :
    p.timeout.length * p.maxAttempts.toNat = p.budgetMs * nanosPerMilli := by
  rw [timeout, Duration.length_ofMillis, budgetMs]
  ring

theorem budgetMs_seconds (p : Probe) : p.budgetMs * nanosPerMilli / nanosPerSecond = p.budgetMs / 1000 := by
  rw [nanosPerMilli, nanosPerSecond]
  omega

theorem batchBudget_eq_ok_iff : p.batchBudget = .ok d ↔ d.length = p.budgetMs * nanosPerMilli := by
  rw [← length_timeout_mul, ← Duration.times?_eq_some_iff, batchBudget]
  cases p.timeout.times? p.maxAttempts <;> simp

theorem batchBudget_eq_error_iff {fatal : Fatal} :
    p.batchBudget = .error fatal ↔ fatal = .durationOverflow ∧ UInt64.size ≤ p.budgetMs / 1000 := by
  rw [← budgetMs_seconds, ← length_timeout_mul, ← Duration.times?_eq_none_iff, batchBudget]
  cases p.timeout.times? p.maxAttempts <;> simp [eq_comm]

theorem exists_batchBudget_iff : (∃ d, p.batchBudget = .ok d) ↔ p.budgetMs / 1000 < UInt64.size := by
  simp only [batchBudget_eq_ok_iff, Duration.exists_length_iff, budgetMs_seconds]

/-- The budget of a batch is the product of the timeout and the number of attempts to the nanosecond, with less
than a second of nanoseconds, if a word can count its whole seconds; and in no other case is there one. -/
theorem batchBudget_exact (p : Probe) :
    ((∃ d, p.batchBudget = .ok d) ↔ p.timeoutMs.toNat * p.maxAttempts.toNat / 1000 ≤ 2 ^ 64 - 1) ∧
    (∀ d, p.batchBudget = .ok d ↔
      d.length = p.timeoutMs.toNat * p.maxAttempts.toNat * nanosPerMilli) ∧
    (∀ d, p.batchBudget = .ok d ↔
      d.seconds.toNat = p.timeoutMs.toNat * p.maxAttempts.toNat / 1000 ∧
        d.nanos.toNat = p.timeoutMs.toNat * p.maxAttempts.toNat % 1000 * nanosPerMilli ∧
        d.nanos.toNat < nanosPerSecond) ∧
    ∀ fatal, p.batchBudget = .error fatal ↔
      fatal = .durationOverflow ∧ 2 ^ 64 - 1 < p.timeoutMs.toNat * p.maxAttempts.toNat / 1000 := by
  have hsize : UInt64.size = 2 ^ 64 - 1 + 1 := rfl
  refine ⟨?_, fun d => batchBudget_eq_ok_iff, fun d => ?_, fun fatal => ?_⟩
  · rw [exists_batchBudget_iff, budgetMs, hsize, Nat.lt_add_one_iff]
  · rw [batchBudget_eq_ok_iff, Duration.length_eq_millis_iff, budgetMs]
  · rw [batchBudget_eq_error_iff, budgetMs, hsize, Nat.add_one_le_iff]

/-- The longest budget there is: its last 615 seconds carry from the milliseconds. -/
example : ({ default with timeoutMs := 18446744073709551615, maxAttempts := 1000 } : Probe).batchBudget.map
    (fun d => (d.seconds, d.nanos)) = .ok (18446744073709551615, 0) := by decide

end Probe

end NatBehaviour.Settings
