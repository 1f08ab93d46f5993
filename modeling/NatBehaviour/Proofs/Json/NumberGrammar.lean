import NatBehaviour.Proofs.Json.Grammar

/-!
The grammar of JSON numbers. A number is passed over whatever its size. A number is read as an integer in
a range just if it is written without point and exponent and lies in the range.
-/

namespace NatBehaviour.Json

/-! ## The parts of a number -/

/-- Digits, if any. -/
def AllDigits (ds : Bytes) : Prop := ∀ d ∈ ds, isDigit d = true

/-- The digits before the point: a zero stands alone. -/
inductive Whole : Bytes → Prop
  | zero : Whole [code '0']
  | digits {b : UInt8} {ds : Bytes} (hb : isDigit b = true) (hne : b ≠ code '0') (hds : AllDigits ds) :
      Whole (b :: ds)

inductive FractionText : Bytes → Option Bytes → Prop
  | absent : FractionText [] none
  | present {ds : Bytes} (hne : ds ≠ []) (hds : AllDigits ds) : FractionText (code '.' :: ds) (some ds)

inductive SignText : Bytes → Bool → Prop
  | absent : SignText [] false
  | plus : SignText [code '+'] false
  | minus : SignText [code '-'] true

inductive PowerText : Bytes → Option Int → Prop
  | absent : PowerText [] none
  | present {e : UInt8} {sign ds : Bytes} {negative : Bool} (he : e = code 'e' ∨ e = code 'E')
      (hsign : SignText sign negative) (hne : ds ≠ []) (hds : AllDigits ds) :
      PowerText (e :: (sign ++ ds)) (some (if negative then -(digitsValue ds) else digitsValue ds))

inductive LiteralText : Bytes → Literal → Prop
  | intro {negative : Bool} {whole fraction power : Bytes} {f : Option Bytes} {p : Option Int}
      (hwhole : Whole whole) (hfraction : FractionText fraction f) (hpower : PowerText power p) :
      LiteralText ((if negative then [code '-'] else []) ++ (whole ++ (fraction ++ power)))
        ⟨negative, whole, f, p⟩

/-- A number of any size. -/
def NumberText (t : Bytes) : Prop := ∃ l, LiteralText t l

/-- The digits end here. -/
def NoDigit (s : Bytes) : Prop := ∀ b, s.head? = some b → isDigit b = false

theorem isDigit_separator {b : UInt8} (h : isSeparator b = true) :
    isDigit b = false ∧ b ≠ code '.' ∧ b ≠ code 'e' ∧ b ≠ code 'E' := by
  simp only [isSeparator, isSpace, Bool.or_eq_true, decide_eq_true_eq] at h
  rcases h with ((((((rfl | rfl) | rfl) | rfl) | rfl) | rfl) | rfl) <;> decide

theorem Ends.noDigit {s : Bytes} (h : Ends s) : NoDigit s :=
  fun b hb => (isDigit_separator (h b hb)).1

theorem noDigit_cons {b : UInt8} (hb : isDigit b = false) (s : Bytes) : NoDigit (b :: s) := by
  intro c hc
  cases hc
  exact hb

/-! ## Runs of digits -/

theorem afterDigits_append {ds s : Bytes} (hds : AllDigits ds) (hs : NoDigit s) :
    digits (ds ++ s) = ds ∧ afterDigits (ds ++ s) = s := by
  have htake : s.takeWhile isDigit = [] := by
    cases s with
    | nil => rfl
    | cons b s => rw [List.takeWhile_cons_of_neg (by simp [hs b rfl])]
  have hdrop : s.dropWhile isDigit = s := by
    cases s with
    | nil => rfl
    | cons b s => rw [List.dropWhile_cons_of_neg (by simp [hs b rfl])]
  rw [digits, afterDigits, List.takeWhile_append_of_pos hds, List.dropWhile_append_of_pos hds, htake,
    hdrop]
  exact ⟨List.append_nil ds, rfl⟩

theorem allDigits_digits (s : Bytes) : AllDigits (digits s) :=
  List.all_eq_true.mp List.all_takeWhile

theorem digits_append_afterDigits (s : Bytes) : digits s ++ afterDigits s = s :=
  List.takeWhile_append_dropWhile

theorem readDigits_append {ending : Ending} {ds s : Bytes} (hne : ds ≠ []) (hds : AllDigits ds)
    (hs : NoDigit s) : readDigits ending (ds ++ s) = .ok (ds, s) := by
  obtain ⟨htake, hdrop⟩ := afterDigits_append hds hs
  cases ds with
  | nil => exact absurd rfl hne
  | cons b ds =>
    rw [List.cons_append] at htake hdrop ⊢
    rw [readDigits, if_pos (hds b List.mem_cons_self), htake, hdrop]

theorem allDigits_of_readDigits {ending : Ending} {s ds rest : Bytes}
    (h : readDigits ending s = .ok (ds, rest)) : s = ds ++ rest ∧ ds ≠ [] ∧ AllDigits ds := by
  unfold readDigits at h
  split at h
  · cases h
  rename_i b s
  split at h
  · rename_i hb
    simp only [Except.ok.injEq, Prod.mk.injEq] at h
    obtain ⟨rfl, rfl⟩ := h
    refine ⟨(digits_append_afterDigits _).symm, ?_, allDigits_digits _⟩
    rw [digits, List.takeWhile_cons_of_pos hb]
    exact List.cons_ne_nil _ _
  · cases h

/-! ## Reading the parts -/

section

variable {ending : Ending} {s rest : Bytes}

theorem Whole.readWhole {w : Bytes} (h : Whole w) (hs : NoDigit s) :
    readWhole ending (w ++ s) = .ok (w, s) := by
  cases h with
  | zero =>
    cases s with
    | nil => rfl
    | cons b s =>
      have hb := hs b rfl
      simp [Json.readWhole.eq_def, hb]
  | @digits b ds hb hne hds =>
    obtain ⟨htake, hdrop⟩ := afterDigits_append hds hs
    simp [Json.readWhole.eq_def, hne, hb, htake, hdrop]

theorem whole_of_readWhole {w : Bytes} (h : readWhole ending s = .ok (w, rest)) :
    s = w ++ rest ∧ Whole w := by
  unfold readWhole at h
  split at h
  · cases h
  rename_i b s
  split at h
  · rename_i hb
    have hzero : [b] = w ∧ s = rest := by
      split at h
      · cases h
        exact ⟨rfl, rfl⟩
      · split at h
        · cases h
        · cases h
          exact ⟨rfl, rfl⟩
    obtain ⟨rfl, rfl⟩ := hzero
    exact ⟨rfl, hb ▸ .zero⟩
  rename_i hne
  split at h
  · rename_i hb
    cases h
    refine ⟨?_, .digits hb hne (allDigits_digits s)⟩
    rw [List.cons_append, digits_append_afterDigits]
  · cases h

theorem FractionText.readFraction {t : Bytes} {f : Option Bytes} (h : FractionText t f)
    (hs : NoDigit s) (hpoint : s.head? ≠ some (code '.')) :
    readFraction ending (t ++ s) = .ok (f, s) := by
  cases h with
  | absent =>
    cases s with
    | nil => rfl
    | cons b s =>
      have hb : b ≠ code '.' := fun he => hpoint (he ▸ rfl)
      rw [List.nil_append, Json.readFraction, if_neg hb]
  | present hne hds =>
    rw [List.cons_append, Json.readFraction, if_pos rfl, readDigits_append hne hds hs]

theorem fractionText_of_readFraction {f : Option Bytes} (h : readFraction ending s = .ok (f, rest)) :
    ∃ t, s = t ++ rest ∧ FractionText t f := by
  unfold readFraction at h
  split at h
  · cases h
    exact ⟨[], rfl, .absent⟩
  split at h
  · rename_i hb
    split at h
    · cases h
    · rename_i hdigits
      cases h
      obtain ⟨rfl, hne, hds⟩ := allDigits_of_readDigits hdigits
      exact ⟨_, by rw [hb]; rfl, .present hne hds⟩
  · cases h
    exact ⟨[], rfl, .absent⟩

theorem SignText.readSign {sign : Bytes} {negative : Bool} (h : SignText sign negative)
    (hs : ∃ b t, s = b :: t ∧ isDigit b = true) : readSign (sign ++ s) = (negative, s) := by
  cases h with
  | absent =>
    obtain ⟨b, t, rfl, hb⟩ := hs
    have hplus : b ≠ code '+' := by
      rintro rfl
      exact absurd hb (by decide)
    have hminus : b ≠ code '-' := by
      rintro rfl
      exact absurd hb (by decide)
    rw [List.nil_append, Json.readSign, if_neg hplus, if_neg hminus]
  | plus => rfl
  | minus => rfl

theorem signText_of_readSign {negative : Bool} (h : readSign s = (negative, rest)) :
    ∃ sign, s = sign ++ rest ∧ SignText sign negative := by
  unfold readSign at h
  split at h
  · cases h
    exact ⟨[], rfl, .absent⟩
  split at h
  · rename_i hb
    cases h
    exact ⟨_, by rw [hb]; rfl, .plus⟩
  split at h
  · rename_i hb
    cases h
    exact ⟨_, by rw [hb]; rfl, .minus⟩
  · cases h
    exact ⟨[], rfl, .absent⟩

theorem PowerText.readPower {t : Bytes} {p : Option Int} (h : PowerText t p) (hs : Ends s) :
    readPower ending (t ++ s) = .ok (p, s) := by
  cases h with
  | absent =>
    cases s with
    | nil => rfl
    | cons b s =>
      obtain ⟨-, -, he, hE⟩ := isDigit_separator (hs b rfl)
      rw [List.nil_append, Json.readPower, if_neg (by simp [he, hE])]
  | @present e sign ds negative he hsign hne hds =>
    have hfirst : ∃ b t, ds ++ s = b :: t ∧ isDigit b = true := by
      obtain ⟨b, t, rfl⟩ := List.exists_cons_of_ne_nil hne
      exact ⟨b, t ++ s, rfl, hds b List.mem_cons_self⟩
    have hletter : (e = code 'e' || e = code 'E') = true := by simpa using he
    rw [List.cons_append, Json.readPower, if_pos hletter, List.append_assoc, hsign.readSign hfirst]
    dsimp only
    rw [readDigits_append hne hds hs.noDigit]

theorem powerText_of_readPower {p : Option Int} (h : readPower ending s = .ok (p, rest)) :
    ∃ t, s = t ++ rest ∧ PowerText t p := by
  unfold readPower at h
  split at h
  · cases h
    exact ⟨[], rfl, .absent⟩
  rename_i b s
  split at h
  · rename_i hb
    split at h
    rename_i negative s' hread
    obtain ⟨sign, hs, hsign⟩ := signText_of_readSign hread
    split at h
    · cases h
    · rename_i ds s'' hdigits
      cases h
      obtain ⟨hs', hne, hds⟩ := allDigits_of_readDigits hdigits
      rw [hs'] at hs
      exact ⟨b :: (sign ++ ds), by rw [hs]; simp, .present (by simpa using hb) hsign hne hds⟩
  · cases h
    exact ⟨[], rfl, .absent⟩

end

/-! ## Whole numbers -/

section

variable {ending : Ending} {s rest t : Bytes} {l : Literal}

theorem Whole.head {w : Bytes} (h : Whole w) : ∃ b u, w = b :: u ∧ isDigit b = true := by
  cases h with
  | zero => exact ⟨_, _, rfl, rfl⟩
  | digits hb _ _ => exact ⟨_, _, rfl, hb⟩

theorem PowerText.noDigit {t : Bytes} {p : Option Int} (h : PowerText t p) (hs : Ends s) :
    NoDigit (t ++ s) ∧ (t ++ s).head? ≠ some (code '.') := by
  cases h with
  | absent =>
    refine ⟨hs.noDigit, ?_⟩
    intro hpoint
    exact absurd rfl (isDigit_separator (hs _ hpoint)).2.1
  | present he _ _ _ => rcases he with rfl | rfl <;> exact ⟨noDigit_cons (by decide) _, by simp [code]⟩

theorem FractionText.noDigit {t : Bytes} {f : Option Bytes} (h : FractionText t f) (hs : NoDigit s) :
    NoDigit (t ++ s) := by
  cases h with
  | absent => exact hs
  | present _ _ => exact noDigit_cons (by decide) _

/-- A literal from behind its sign. -/
def readUnsigned (ending : Ending) (negative : Bool) (s : Bytes) : Except Cause (Literal × Bytes) :=
  match readWhole ending s with
  | .error cause => .error cause
  | .ok (whole, s) =>
    match readFraction ending s with
    | .error cause => .error cause
    | .ok (fraction, s) =>
      match readPower ending s with
      | .error cause => .error cause
      | .ok (power, s) => .ok (⟨negative, whole, fraction, power⟩, s)

theorem readLiteral_minus (s : Bytes) :
    readLiteral ending (code '-' :: s) = readUnsigned ending true s := rfl

theorem readLiteral_unsigned (hs : s.head? ≠ some (code '-')) :
    readLiteral ending s = readUnsigned ending false s := by
  simp only [readLiteral, hs, if_false, decide_false]
  rfl

theorem readUnsigned_append {negative : Bool} {whole fraction power : Bytes} {f : Option Bytes}
    {p : Option Int} (hwhole : Whole whole) (hfraction : FractionText fraction f)
    (hpower : PowerText power p) (hs : Ends s) :
    readUnsigned ending negative (whole ++ (fraction ++ power) ++ s) =
      .ok (⟨negative, whole, f, p⟩, s) := by
  obtain ⟨hnoDigit, hpoint⟩ := hpower.noDigit hs
  rw [readUnsigned, List.append_assoc, List.append_assoc,
    hwhole.readWhole (hfraction.noDigit hnoDigit)]
  dsimp only
  rw [hfraction.readFraction hnoDigit hpoint]
  dsimp only
  rw [hpower.readPower hs]

theorem LiteralText.readLiteral (h : LiteralText t l) (hs : Ends s) :
    readLiteral ending (t ++ s) = .ok (l, s) := by
  cases h with
  | @intro negative whole fraction power f p hwhole hfraction hpower =>
    cases negative with
    | true => exact readUnsigned_append hwhole hfraction hpower hs
    | false =>
      obtain ⟨b, u, hu, hb⟩ := hwhole.head
      have hminus : (whole ++ (fraction ++ power) ++ s).head? ≠ some (code '-') := by
        rintro he
        rw [hu] at he
        obtain rfl : b = code '-' := Option.some.inj he
        exact absurd hb (by decide)
      rw [if_neg Bool.false_ne_true, List.nil_append, readLiteral_unsigned hminus]
      exact readUnsigned_append hwhole hfraction hpower hs

theorem literalText_of_readUnsigned {negative : Bool}
    (h : readUnsigned ending negative s = .ok (l, rest)) :
    ∃ t, s = t ++ rest ∧ LiteralText ((if negative then [code '-'] else []) ++ t) l := by
  unfold readUnsigned at h
  split at h
  · cases h
  rename_i whole s₁ hwhole
  split at h
  · cases h
  rename_i fraction s₂ hfraction
  split at h
  · cases h
  rename_i power s₃ hpower
  cases h
  obtain ⟨rfl, hw⟩ := whole_of_readWhole hwhole
  obtain ⟨f, rfl, hf⟩ := fractionText_of_readFraction hfraction
  obtain ⟨p, rfl, hp⟩ := powerText_of_readPower hpower
  exact ⟨whole ++ (f ++ p), by simp, .intro hw hf hp⟩

theorem literalText_of_readLiteral (h : readLiteral ending s = .ok (l, rest)) :
    ∃ t, s = t ++ rest ∧ LiteralText t l := by
  by_cases hminus : s.head? = some (code '-')
  · obtain ⟨u, rfl⟩ : ∃ u, s = code '-' :: u := by
      cases s with
      | nil => cases hminus
      | cons b u => exact ⟨u, by rw [Option.some.inj hminus]⟩
    rw [readLiteral_minus] at h
    obtain ⟨t, rfl, ht⟩ := literalText_of_readUnsigned h
    exact ⟨code '-' :: t, rfl, ht⟩
  · rw [readLiteral_unsigned hminus] at h
    exact literalText_of_readUnsigned h

theorem skipNumber_append (h : NumberText t) (hs : Ends s) : skipNumber (t ++ s) = .ok s := by
  obtain ⟨l, hl⟩ := h
  rw [skipNumber, hl.readLiteral hs]

theorem numberText_of_skipNumber (h : skipNumber s = .ok rest) :
    ∃ t, s = t ++ rest ∧ NumberText t := by
  unfold skipNumber at h
  split at h
  · cases h
  · rename_i hread
    cases h
    obtain ⟨t, rfl, ht⟩ := literalText_of_readLiteral hread
    exact ⟨t, rfl, _, ht⟩

end

/-! ## Natural numbers -/

/-- Appends digits to a number. -/
def appendDigits (n : Nat) (ds : Bytes) : Nat := ds.foldl (fun n b => n * 10 + (b.toNat - 0x30)) n

theorem digitsValue_eq (ds : Bytes) : digitsValue ds = appendDigits 0 ds := rfl

theorem appendDigits_cons (n : Nat) (b : UInt8) (ds : Bytes) :
    appendDigits n (b :: ds) = appendDigits (n * 10 + (b.toNat - 0x30)) ds := by
  rw [appendDigits, List.foldl_cons, appendDigits]

theorem le_appendDigits (n : Nat) (ds : Bytes) : n ≤ appendDigits n ds := by
  induction ds generalizing n with
  | nil => exact Nat.le_refl n
  | cons b ds ih =>
    have h := ih (n * 10 + (b.toNat - 0x30))
    rw [appendDigits_cons]
    omega

/-- As long as the value fits into a word, every digit is taken. -/
theorem gather_of_le {n : Nat} {ds : Bytes} (h : appendDigits n ds ≤ greatestSignificand) :
    gather n ds = (appendDigits n ds, ds.length, 0) := by
  induction ds generalizing n with
  | nil => rfl
  | cons b ds ih =>
    rw [appendDigits_cons] at h ⊢
    have hle := le_appendDigits (n * 10 + (b.toNat - 0x30)) ds
    have hfits : n * 10 + (b.toNat - 0x30) ≤ greatestSignificand := Nat.le_trans hle h
    simp only [gather, hfits, if_true, ih h, List.length_cons]

theorem appendDigits_of_gather {n value taken : Nat} {ds : Bytes}
    (h : gather n ds = (value, taken, 0)) : value = appendDigits n ds := by
  induction ds generalizing n taken with
  | nil =>
    cases h
    rfl
  | cons b ds ih =>
    simp only [gather] at h
    split at h
    · generalize hrest : gather (n * 10 + (b.toNat - 0x30)) ds = r at h
      obtain ⟨value', taken', left⟩ := r
      cases h
      exact ih hrest
    · cases h

/-- What is read as an integer has neither a fraction nor a power, and all of its digits are taken. -/
theorem integer?_of_value? {l : Literal} {n : Int} (h : l.value? = .ok (.integer n)) :
    l.fraction = none ∧ l.power = none ∧
      Literal.integer? l.negative (digitsValue l.whole) = some n := by
  unfold Literal.value? at h
  generalize hgather : gather 0 l.whole = r at h
  obtain ⟨significand, taken, dropped⟩ := r
  dsimp only at h
  split at h
  · rename_i hf hp hn
    cases h
    rw [digitsValue_eq, ← appendDigits_of_gather hgather]
    exact ⟨hf, hp, hn⟩
  · split at h <;> cases h

theorem value?_whole {negative : Bool} {w : Bytes} {n : Int} (h : digitsValue w ≤ greatestSignificand)
    (hn : Literal.integer? negative (digitsValue w) = some n) :
    Literal.value? ⟨negative, w, none, none⟩ = .ok (.integer n) := by
  have hgather : gather 0 w = (digitsValue w, w.length, 0) := gather_of_le h
  simp only [Literal.value?, hgather, hn]

/-- A natural number that is written without sign, point and exponent. -/
def Numeral (t : Bytes) (n : Nat) : Prop := Whole t ∧ digitsValue t = n

theorem Numeral.head {t : Bytes} {n : Nat} (h : Numeral t n) :
    ∃ b u, t = b :: u ∧ isDigit b = true ∧ isSeparator b = false := by
  obtain ⟨b, u, rfl, hb⟩ := h.1.head
  refine ⟨b, u, rfl, hb, ?_⟩
  cases hs : isSeparator b with
  | false => rfl
  | true =>
    rw [(isDigit_separator hs).1] at hb
    cases hb

theorem isDigit_eq_true_iff {b : UInt8} : isDigit b = true ↔ 0x30 ≤ b.toNat ∧ b.toNat ≤ 0x39 := by
  simp [isDigit, UInt8.le_iff_toNat_le]

/-- Numbers below ten are written with one digit. -/
theorem numeral_digit_iff {t : Bytes} {n : Nat} (hn : n < 10) :
    Numeral t n ↔ t = [n.toUInt8 + code '0'] := by
  have hzero : (code '0').toNat = 0x30 := rfl
  constructor
  · rintro ⟨hwhole, rfl⟩
    cases hwhole with
    | zero => rfl
    | @digits b ds hb hne hds =>
      have hrange := isDigit_eq_true_iff.mp hb
      have hnonzero : b.toNat ≠ 0x30 := fun h => hne (UInt8.toNat_inj.mp h)
      rw [digitsValue_eq, appendDigits_cons] at hn ⊢
      cases ds with
      | nil =>
        have hvalue : b.toNat = (b.toNat - 0x30 + 0x30) % 256 := by omega
        refine congrArg (fun b => [b]) (UInt8.toNat_inj.mp ?_)
        simpa [appendDigits, hzero] using hvalue
      | cons d ds =>
        have hle := le_appendDigits ((0 * 10 + (b.toNat - 0x30)) * 10 + (d.toNat - 0x30)) ds
        rw [appendDigits_cons] at hn
        omega
  · rintro rfl
    have hbyte : (n.toUInt8 + code '0').toNat = n + 0x30 := by
      simp [hzero]
      omega
    refine ⟨?_, by simp [digitsValue, hbyte]⟩
    by_cases h : n = 0
    · subst h
      exact .zero
    · refine .digits (isDigit_eq_true_iff.mpr (by omega)) ?_ (fun _ hd => absurd hd List.not_mem_nil)
      intro he
      rw [he, hzero] at hbyte
      omega

/-! ## Integers -/

/-- An integer that is written without point and exponent; the negative ones have a minus sign in front. -/
inductive IntegerText : Bytes → Int → Prop
  | natural {t : Bytes} {n : Nat} (h : Numeral t n) : IntegerText t n
  | negative {t : Bytes} {n : Nat} (h : Numeral t n) (hn : 0 < n) : IntegerText (code '-' :: t) (-n)

theorem IntegerText.head {t : Bytes} {n : Int} (h : IntegerText t n) :
    ∃ b u, t = b :: u ∧ (b = code '-' ∨ isDigit b = true) ∧ isSeparator b = false := by
  cases h with
  | natural h =>
    obtain ⟨b, u, rfl, hdigit, hsep⟩ := h.head
    exact ⟨b, u, rfl, .inr hdigit, hsep⟩
  | negative _ _ => exact ⟨_, _, rfl, .inl rfl, rfl⟩

theorem integerText_ofNat_iff {t : Bytes} {n : Nat} : IntegerText t n ↔ Numeral t n := by
  constructor
  · intro h
    generalize hm : (n : Int) = m at h
    cases h with
    | natural h => rwa [Int.ofNat.inj hm]
    | negative h hpos => omega
  · exact .natural

/-- A number that is read and turns out to be an integer. -/
theorem integerText_of_readNumber {s rest : Bytes} {n : Int}
    (h : readNumber s = .ok (.integer n, rest)) : ∃ t, s = t ++ rest ∧ IntegerText t n := by
  unfold readNumber at h
  split at h
  · cases h
  rename_i l s' hliteral
  split at h
  · cases h
  rename_i hvalue
  cases h
  obtain ⟨t, rfl, ht⟩ := literalText_of_readLiteral hliteral
  obtain ⟨hf, hp, hinteger⟩ := integer?_of_value? hvalue
  cases ht with
  | @intro negative whole fraction power f p hwhole hfraction hpower =>
    dsimp only at hf hp hinteger
    subst hf hp
    cases hfraction
    cases hpower
    cases negative with
    | true =>
      simp only [Literal.integer?, if_true, Option.ite_none_right_eq_some, Option.some.injEq]
        at hinteger
      obtain ⟨⟨hpos, -⟩, rfl⟩ := hinteger
      exact ⟨code '-' :: whole, by simp, .negative ⟨hwhole, rfl⟩ hpos⟩
    | false =>
      obtain rfl : (digitsValue whole : Int) = n := by simpa [Literal.integer?] using hinteger
      exact ⟨whole, by simp, .natural ⟨hwhole, rfl⟩⟩

/-- An integer that fits into a word, signed or unsigned, is read as such. -/
theorem IntegerText.readNumber {t s : Bytes} {n : Int} (h : IntegerText t n)
    (hleast : Int64.minValue.toInt ≤ n) (hgreatest : n ≤ greatestSignificand) (hs : Ends s) :
    readNumber (t ++ s) = .ok (.integer n, s) := by
  have hread {negative : Bool} {w : Bytes}
      (ht : LiteralText t ⟨negative, w, none, none⟩) (hw : digitsValue w ≤ greatestSignificand)
      (hinteger : Literal.integer? negative (digitsValue w) = some n) :
      Json.readNumber (t ++ s) = .ok (.integer n, s) := by
    rw [Json.readNumber, ht.readLiteral hs]
    dsimp only
    rw [value?_whole hw hinteger]
  cases h with
  | @natural t n h =>
    obtain ⟨hwhole, rfl⟩ := h
    have ht := @LiteralText.intro false t [] [] none none hwhole .absent .absent
    exact hread (by simpa using ht) (by omega) rfl
  | @negative t n h hpos =>
    obtain ⟨hwhole, rfl⟩ := h
    have ht := @LiteralText.intro true t [] [] none none hwhole .absent .absent
    have hword : -Int64.minValue.toInt ≤ greatestSignificand := by decide
    have hinteger : Literal.integer? true (digitsValue t) = some (-(digitsValue t : Int)) := by
      rw [Literal.integer?, if_pos rfl, if_pos ⟨hpos, hleast⟩]
    exact hread (by simpa using ht) (by omega) hinteger

theorem reads_integer {least greatest : Int} (hleast : Int64.minValue.toInt ≤ least)
    (hgreatest : greatest ≤ greatestSignificand) (expected : String) :
    Reads (readInteger least greatest expected) fun t n => IntegerText t n ∧ least ≤ n ∧ n ≤ greatest where
  sound := by
    intro s rest n h
    unfold readInteger at h
    split at h
    · cases h
    rename_i b t hskip
    obtain ⟨ws, hws, rfl⟩ := exists_blanks_cons hskip
    split at h
    · split at h
      · cases h
      · cases h
      rename_i hnumber
      split at h
      · rename_i hrange
        cases h
        obtain ⟨u, hu, htext⟩ := integerText_of_readNumber hnumber
        exact ⟨ws, u, hws, by rw [hu, List.append_assoc], htext, hrange⟩
      · cases h
    · unfold mismatch at h
      split at h <;> cases h
  complete := by
    rintro ws t rest n hws ⟨htext, hrange⟩ hrest
    have hnumber := htext.readNumber (by omega) (by omega) hrest
    obtain ⟨b, u, rfl, hfirst, hsep⟩ := htext.head
    have hb : (b = code '-' || isDigit b) = true := by simpa using hfirst
    rw [List.cons_append] at hnumber
    rw [readInteger, List.append_assoc, List.cons_append,
      skipBlanks_blanks_cons hws (isSpace_of_not_isSeparator hsep)]
    dsimp only
    rw [if_pos hb, hnumber]
    dsimp only
    rw [if_pos hrange]
  starts := by
    rintro t n ⟨htext, -⟩
    obtain ⟨b, u, ht, -, hsep⟩ := htext.head
    exact ⟨b, u, ht, hsep⟩

theorem reads_natBelow {limit : Nat} (hlimit : limit ≤ UInt64.size) (expected : String) :
    Reads (readNatBelow limit expected) fun t n => Numeral t n ∧ n < limit := by
  have hleast : Int64.minValue.toInt ≤ 0 := by decide
  have hgreatest : (limit : Int) - 1 ≤ greatestSignificand := by
    unfold greatestSignificand
    omega
  have hread : readNatBelow limit expected = Reader.map Int.toNat (readInteger 0 (limit - 1) expected) := by
    funext s
    unfold readNatBelow Reader.map
    cases readInteger 0 (limit - 1) expected s <;> rfl
  rw [hread]
  refine ((reads_integer hleast hgreatest expected).map Int.toNat).congr fun t n => ?_
  constructor
  · rintro ⟨m, ⟨htext, hzero, hm⟩, rfl⟩
    obtain ⟨k, rfl⟩ := Int.eq_ofNat_of_zero_le hzero
    exact ⟨integerText_ofNat_iff.mp htext, by omega⟩
  · rintro ⟨hnumeral, hn⟩
    exact ⟨n, ⟨.natural hnumeral, by omega, by omega⟩, rfl⟩

end NatBehaviour.Json
