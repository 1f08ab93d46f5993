import NatBehaviour.Proofs.Json.Grammar
import NatBehaviour.Proofs.Json.Text

/-!
The grammar of JSON texts. A text that is kept consists of plain bytes and escapes, which stand for the
UTF-8 of some characters. A text that is passed over may hold any bytes, and escapes that mean nothing.
-/

namespace NatBehaviour.Json

open NatBehaviour.Text

/-! ## Escapes -/

/-- Four hexadecimal digits and their value. -/
inductive Hex4 : Bytes → Nat → Prop
  | intro {a b c d : UInt8} {i j k l : Nat} (ha : hexDigit? a = some i) (hb : hexDigit? b = some j)
      (hc : hexDigit? c = some k) (hd : hexDigit? d = some l) :
      Hex4 [a, b, c, d] (i * 4096 + j * 256 + k * 16 + l)

theorem Hex4.readHex {ds : Bytes} {n : Nat} (h : Hex4 ds n) (s : Bytes) :
    readHex (ds ++ s) = .ok (n, s) := by
  cases h with
  | intro ha hb hc hd => simp [Json.readHex, ha, hb, hc, hd]

theorem hex4_of_readHex {s rest : Bytes} {n : Nat} (h : readHex s = .ok (n, rest)) :
    ∃ ds, s = ds ++ rest ∧ Hex4 ds n := by
  unfold readHex at h
  split at h
  · split at h
    · rename_i ha hb hc hd
      cases h
      exact ⟨_, rfl, .intro ha hb hc hd⟩
    · cases h
  · cases h

/-- An escape, from behind its backslash, and the bytes that it stands for. A character beyond those of
four digits is written as a pair of surrogates, which do not occur otherwise. -/
inductive Escape : Bytes → Bytes → Prop
  | short {b c : UInt8} (h : shortEscape? b = some c) : Escape [b] [c]
  | unicode {ds : Bytes} {n : Nat} (h : Hex4 ds n) (hl : isLeading n = false)
      (ht : isTrailing n = false) : Escape (code 'u' :: ds) (Utf8.encodeChar (Char.ofNat n))
  | pair {ds ds' : Bytes} {n n' : Nat} (h : Hex4 ds n) (hl : isLeading n = true) (h' : Hex4 ds' n')
      (ht : isTrailing n' = true) :
      Escape (code 'u' :: (ds ++ code '\\' :: code 'u' :: ds'))
        (Utf8.encodeChar (Char.ofNat ((n - 0xD800) * 1024 + (n' - 0xDC00) + 0x10000)))

theorem shortEscape?_u : shortEscape? (code 'u') = none := by decide

theorem not_isTrailing_of_isLeading {n : Nat} (h : isLeading n = true) : isTrailing n = false := by
  simp only [isLeading, isTrailing, Bool.and_eq_true, decide_eq_true_eq, Bool.and_eq_false_iff,
    decide_eq_false_iff_not] at h ⊢
  omega

theorem Escape.readEscape {e u : Bytes} (h : Escape e u) (s : Bytes) :
    readEscape (e ++ s) = .ok (u, s) := by
  cases h with
  | @short b c h =>
    have hu : b ≠ code 'u' := by
      rintro rfl
      rw [shortEscape?_u] at h
      cases h
    simp [Json.readEscape, hu, h]
  | unicode h hl ht =>
    simp [Json.readEscape, readUnicode, h.readHex, hl, ht]
  | pair h hl h' ht =>
    simp [Json.readEscape, readUnicode, h.readHex, hl, not_isTrailing_of_isLeading hl, readTrailing,
      h'.readHex, ht]

theorem hex4_of_readTrailing {n : Nat} {s rest : Bytes} {c : Char}
    (h : readTrailing n s = .ok (c, rest)) :
    ∃ ds n', s = code '\\' :: code 'u' :: (ds ++ rest) ∧ Hex4 ds n' ∧ isTrailing n' = true ∧
      c = Char.ofNat ((n - 0xD800) * 1024 + (n' - 0xDC00) + 0x10000) := by
  unfold readTrailing at h
  split at h
  · cases h
  split at h
  · cases h
  rename_i hbackslash
  split at h
  · cases h
  split at h
  · cases h
  rename_i hu
  split at h
  · cases h
  rename_i n' s' hhex
  obtain ⟨ds, rfl, hds⟩ := hex4_of_readHex hhex
  split at h
  · rename_i htrailing
    simp only [Except.ok.injEq, Prod.mk.injEq] at h
    obtain ⟨rfl, rfl⟩ := h
    simp only [ne_eq, Decidable.not_not] at hbackslash hu
    exact ⟨ds, n', by rw [hbackslash, hu], hds, htrailing, rfl⟩
  · cases h

theorem escape_of_readUnicode {s rest : Bytes} {c : Char} (h : readUnicode s = .ok (c, rest)) :
    ∃ e, s = e ++ rest ∧ Escape (code 'u' :: e) (Utf8.encodeChar c) := by
  unfold readUnicode at h
  split at h
  · cases h
  rename_i n s' hhex
  obtain ⟨ds, rfl, hds⟩ := hex4_of_readHex hhex
  split at h
  · cases h
  rename_i htrailing
  split at h
  · rename_i hleading
    obtain ⟨ds', n', rfl, hds', htrailing', hc⟩ := hex4_of_readTrailing h
    rw [hc]
    exact ⟨ds ++ code '\\' :: code 'u' :: ds', by simp, .pair hds hleading hds' htrailing'⟩
  · rename_i hleading
    cases h
    exact ⟨ds, rfl, .unicode hds (Bool.eq_false_iff.mpr hleading) (Bool.eq_false_iff.mpr htrailing)⟩

theorem escape_of_readEscape {s rest u : Bytes} (h : readEscape s = .ok (u, rest)) :
    ∃ e, s = e ++ rest ∧ Escape e u := by
  unfold readEscape at h
  split at h
  · cases h
  rename_i b s
  split at h
  · rename_i hu
    split at h
    · cases h
    · rename_i hunicode
      cases h
      obtain ⟨e, rfl, he⟩ := escape_of_readUnicode hunicode
      exact ⟨code 'u' :: e, by rw [hu]; rfl, he⟩
  · split at h
    · rename_i hshort
      cases h
      exact ⟨[b], rfl, .short hshort⟩
    · cases h

/-! ## Texts that are kept -/

/-- What stands between the quotes, and the bytes that it stands for. -/
inductive TextBody : Bytes → Bytes → Prop
  | nil : TextBody [] []
  | plain {b : UInt8} {t u : Bytes} (h : IsPlain b) (rest : TextBody t u) :
      TextBody (b :: t) (b :: u)
  | escape {e u t v : Bytes} (h : Escape e u) (rest : TextBody t v) :
      TextBody (code '\\' :: (e ++ t)) (u ++ v)

/-- A text in its quotes, and the string that it stands for. -/
def TextOf (t : Bytes) (s : String) : Prop :=
  ∃ body, t = code '"' :: (body ++ [code '"']) ∧ TextBody body (Utf8.ofString s)

theorem TextBody.advances {t u : Bytes} (h : TextBody t u) (read s : Bytes) :
    Advances textStep read (t ++ s) (u.reverse ++ read) s := by
  induction h generalizing read with
  | nil => exact .here read s
  | @plain b t u h _ ih =>
    obtain ⟨hq, hb, hc⟩ := h
    have first : textStep read (b :: (t ++ s)) = .ok (.more (b :: read) (t ++ s)) := by
      simp [textStep, hq, hb, hc]
    rw [List.reverse_cons, List.append_assoc]
    exact .more first (by simp) (ih (b :: read))
  | @escape e u t v h _ ih =>
    have first : textStep read (code '\\' :: (e ++ (t ++ s))) =
        .ok (.more (u.reverse ++ read) (t ++ s)) := by
      simp [textStep, h.readEscape, show code '\\' ≠ code '"' by decide]
    rw [List.reverse_append, List.append_assoc, List.cons_append, List.append_assoc]
    exact .more first (by simp only [List.length_append, List.length_cons]; omega) (ih (u.reverse ++ read))

theorem textBody_of_loop {read read' s rest : Bytes} (h : loop textStep read s = .ok (read', rest)) :
    ∃ body u, s = body ++ code '"' :: rest ∧ TextBody body u ∧ read' = u.reverse ++ read := by
  refine loop_induction (P := fun read s read' rest =>
    ∃ body u, s = body ++ code '"' :: rest ∧ TextBody body u ∧ read' = u.reverse ++ read) ?_ ?_ h
  · intro read s read' rest hstep
    unfold textStep at hstep
    split at hstep
    · cases hstep
    split at hstep
    · rename_i hq
      cases hstep
      exact ⟨[], [], by rw [hq]; rfl, .nil, rfl⟩
    split at hstep
    · split at hstep <;> cases hstep
    split at hstep <;> cases hstep
  · rintro read s read₁ s₁ read' rest hstep ⟨body, u, rfl, hbody, rfl⟩
    unfold textStep at hstep
    split at hstep
    · cases hstep
    rename_i b s
    split at hstep
    · cases hstep
    rename_i hq
    split at hstep
    · rename_i hb
      split at hstep
      · cases hstep
      · rename_i bytes s₂ hescape
        cases hstep
        obtain ⟨e, rfl, he⟩ := escape_of_readEscape hescape
        exact ⟨code '\\' :: (e ++ body), bytes ++ u, by rw [hb]; simp, .escape he hbody, by simp⟩
    rename_i hb
    split at hstep
    · cases hstep
    · rename_i hc
      cases hstep
      exact ⟨b :: body, b :: u, rfl, .plain ⟨hq, hb, hc⟩ hbody, by simp⟩

/-- The texts that are read, from behind the opening quote. -/
theorem readText_eq_ok_iff {s rest : Bytes} {text : String} :
    readText s = .ok (text, rest) ↔
      ∃ body, s = body ++ code '"' :: rest ∧ TextBody body (Utf8.ofString text) := by
  constructor
  · intro h
    unfold readText at h
    split at h
    · cases h
    rename_i read s' hloop
    split at h
    · rename_i hutf8
      cases h
      obtain ⟨body, u, hs, hbody, hread⟩ := textBody_of_loop hloop
      rw [hread, List.append_nil, List.reverse_reverse] at hutf8
      exact ⟨body, hs, Utf8.toString?_eq_some_iff.mp hutf8 ▸ hbody⟩
    · cases h
  · rintro ⟨body, rfl, hbody⟩
    have hdone (read : Bytes) : textStep read (code '"' :: rest) = .ok (.done read rest) := by
      simp [textStep]
    have hloop := (hbody.advances [] (code '"' :: rest)).loop (hdone _)
    have hutf8 : Utf8.toString? (Utf8.ofString text) = some text :=
      Utf8.toString?_eq_some_iff.mpr rfl
    simp [readText, hloop, hutf8]

theorem TextOf.head {t : Bytes} {s : String} (h : TextOf t s) : t.head? = some (code '"') := by
  obtain ⟨body, rfl, -⟩ := h
  rfl

theorem reads_textAs (expected : String) : Reads (readTextAs expected) TextOf where
  sound := by
    intro s rest text h
    unfold readTextAs at h
    split at h
    · cases h
    rename_i b t hskip
    obtain ⟨ws, hws, rfl⟩ := exists_blanks_cons hskip
    split at h
    · rename_i hq
      obtain ⟨body, rfl, hbody⟩ := readText_eq_ok_iff.mp h
      exact ⟨ws, _, hws, by rw [hq]; simp, body, rfl, hbody⟩
    · unfold mismatch at h
      split at h <;> cases h
  complete := by
    rintro ws _ rest text hws ⟨body, rfl, hbody⟩ -
    rw [readTextAs, List.append_assoc, List.cons_append, skipBlanks_blanks_cons hws rfl,
      List.append_assoc]
    exact readText_eq_ok_iff.mpr ⟨body, rfl, hbody⟩
  starts := by
    rintro _ text ⟨body, rfl, -⟩
    exact ⟨_, _, rfl, rfl⟩

/-! ## Texts that are passed over -/

/-- What stands between the quotes of a text of which only the shape counts. -/
inductive SkippedBody : Bytes → Prop
  | nil : SkippedBody []
  | plain {b : UInt8} {t : Bytes} (h : IsPlain b) (rest : SkippedBody t) : SkippedBody (b :: t)
  | short {b : UInt8} {t : Bytes} (h : (shortEscape? b).isSome) (rest : SkippedBody t) :
      SkippedBody (code '\\' :: b :: t)
  | unicode {ds t : Bytes} {n : Nat} (h : Hex4 ds n) (rest : SkippedBody t) :
      SkippedBody (code '\\' :: code 'u' :: (ds ++ t))

def SkippedText (t : Bytes) : Prop :=
  ∃ body, t = code '"' :: (body ++ [code '"']) ∧ SkippedBody body

/-- An escape that is passed over leaves the text behind it. -/
theorem skippedBody_of_skipEscape {s rest : Bytes} (h : skipEscape s = .ok rest) :
    ∃ e, s = e ++ rest ∧ ∀ {t}, SkippedBody t → SkippedBody (code '\\' :: (e ++ t)) := by
  unfold skipEscape at h
  split at h
  · cases h
  rename_i b s
  split at h
  · rename_i hu
    split at h
    · cases h
    · rename_i hhex
      cases h
      obtain ⟨ds, rfl, hds⟩ := hex4_of_readHex hhex
      exact ⟨code 'u' :: ds, by rw [hu]; rfl, fun ht => .unicode hds ht⟩
  split at h
  · rename_i hshort
    cases h
    exact ⟨[b], rfl, fun ht => .short hshort ht⟩
  · cases h

theorem SkippedBody.advances {t : Bytes} (h : SkippedBody t) (s : Bytes) :
    Advances skipTextStep () (t ++ s) () s := by
  induction h with
  | nil => exact .here () s
  | @plain b t h _ ih =>
    obtain ⟨hq, hb, hc⟩ := h
    have first : skipTextStep () (b :: (t ++ s)) = .ok (.more () (t ++ s)) := by
      simp [skipTextStep, hq, hb, hc]
    exact .more first (by simp) ih
  | @short b t h _ ih =>
    have hu : b ≠ code 'u' := by
      rintro rfl
      rw [shortEscape?_u] at h
      cases h
    have first : skipTextStep () (code '\\' :: b :: (t ++ s)) = .ok (.more () (t ++ s)) := by
      simp [skipTextStep, skipEscape, hu, h, show code '\\' ≠ code '"' by decide]
    exact .more first (by simp only [List.length_append, List.length_cons]; omega) ih
  | @unicode ds t n h _ ih =>
    have first : skipTextStep () (code '\\' :: code 'u' :: (ds ++ (t ++ s))) =
        .ok (.more () (t ++ s)) := by
      simp [skipTextStep, skipEscape, h.readHex, show code '\\' ≠ code '"' by decide]
    rw [List.cons_append, List.cons_append, List.append_assoc]
    exact .more first (by simp only [List.length_append, List.length_cons]; omega) ih

theorem skippedBody_of_loop {s rest : Bytes} (h : loop skipTextStep () s = .ok ((), rest)) :
    ∃ body, s = body ++ code '"' :: rest ∧ SkippedBody body := by
  refine loop_induction
    (P := fun _ s _ rest => ∃ body, s = body ++ code '"' :: rest ∧ SkippedBody body) ?_ ?_ h
  · intro _ s _ rest hstep
    unfold skipTextStep at hstep
    split at hstep
    · cases hstep
    split at hstep
    · rename_i hq
      cases hstep
      exact ⟨[], by rw [hq]; rfl, .nil⟩
    split at hstep
    · split at hstep <;> cases hstep
    split at hstep <;> cases hstep
  · rintro _ s _ s₁ _ rest hstep ⟨body, rfl, hbody⟩
    unfold skipTextStep at hstep
    split at hstep
    · cases hstep
    rename_i b s
    split at hstep
    · cases hstep
    rename_i hq
    split at hstep
    · rename_i hb
      split at hstep
      · cases hstep
      · rename_i hescape
        cases hstep
        obtain ⟨e, rfl, he⟩ := skippedBody_of_skipEscape hescape
        exact ⟨code '\\' :: (e ++ body), by rw [hb]; simp, he hbody⟩
    rename_i hb
    split at hstep
    · cases hstep
    · rename_i hc
      cases hstep
      exact ⟨b :: body, rfl, .plain ⟨hq, hb, hc⟩ hbody⟩

/-- The texts that are passed over, from behind the opening quote. -/
theorem skipText_eq_ok_iff {s rest : Bytes} :
    skipText s = .ok rest ↔ ∃ body, s = body ++ code '"' :: rest ∧ SkippedBody body := by
  constructor
  · intro h
    unfold skipText at h
    split at h
    · cases h
    · rename_i hloop
      cases h
      exact skippedBody_of_loop hloop
  · rintro ⟨body, rfl, hbody⟩
    have hdone : skipTextStep () (code '"' :: rest) = .ok (.done () rest) := by
      simp [skipTextStep]
    have hloop := (hbody.advances (code '"' :: rest)).loop hdone
    simp [skipText, hloop]

end NatBehaviour.Json
