import NatBehaviour.Json.Scalar

/-!
Readers held to a grammar. A grammar relates the bytes of a value to the value; a reader for it takes such
bytes off the front of the input, behind any blanks, and takes off nothing else. How far a value reaches
can depend on what follows it, so a reader has to succeed only in front of a separator or the end.
-/

namespace NatBehaviour.Json

/-! ## Blanks -/

/-- White space, as much as there may be between the parts of a text. -/
def Blanks (s : Bytes) : Prop := ∀ b ∈ s, isSpace b = true

/-- A byte that ends whatever stands before it: white space, a comma or a closing bracket. -/
def isSeparator (b : UInt8) : Bool := isSpace b || b = code ',' || b = code ']' || b = code '}'

/-- What may follow a value. -/
def Ends (s : Bytes) : Prop := ∀ b, s.head? = some b → isSeparator b = true

theorem Blanks.nil : Blanks [] := fun _ h => absurd h List.not_mem_nil

theorem Blanks.append {a b : Bytes} (ha : Blanks a) (hb : Blanks b) : Blanks (a ++ b) := by
  intro x hx
  rcases List.mem_append.mp hx with hx | hx
  · exact ha x hx
  · exact hb x hx

theorem ends_nil : Ends [] := fun _ h => by cases h

theorem ends_cons {b : UInt8} (hb : isSeparator b = true) (s : Bytes) : Ends (b :: s) := by
  intro c hc
  cases hc
  exact hb

theorem Blanks.ends {ws s : Bytes} (hws : Blanks ws) (hs : Ends s) : Ends (ws ++ s) := by
  cases ws with
  | nil => exact hs
  | cons b ws =>
    refine ends_cons ?_ _
    rw [isSeparator, hws b List.mem_cons_self]
    rfl

theorem skipBlanks_append {ws : Bytes} (hws : Blanks ws) (s : Bytes) :
    skipBlanks (ws ++ s) = skipBlanks s := by
  rw [skipBlanks, List.dropWhile_append_of_pos hws]
  rfl

theorem skipBlanks_cons {b : UInt8} (hb : isSpace b = false) (s : Bytes) :
    skipBlanks (b :: s) = b :: s := by
  rw [skipBlanks, List.dropWhile_cons_of_neg (by simp [hb])]

theorem skipBlanks_blanks_cons {ws : Bytes} (hws : Blanks ws) {b : UInt8} (hb : isSpace b = false)
    (s : Bytes) : skipBlanks (ws ++ b :: s) = b :: s := by
  rw [skipBlanks_append hws, skipBlanks_cons hb]

theorem skipBlanks_of_blanks {ws : Bytes} (hws : Blanks ws) : skipBlanks ws = [] := by
  have h := skipBlanks_append hws []
  rwa [List.append_nil] at h

/-- What is skipped is blank. -/
theorem exists_blanks (s : Bytes) : ∃ ws, Blanks ws ∧ s = ws ++ skipBlanks s :=
  ⟨s.takeWhile isSpace, List.all_eq_true.mp List.all_takeWhile, List.takeWhile_append_dropWhile.symm⟩

theorem exists_blanks_cons {s t : Bytes} {b : UInt8} (h : skipBlanks s = b :: t) :
    ∃ ws, Blanks ws ∧ s = ws ++ b :: t := by
  obtain ⟨ws, hws, hs⟩ := exists_blanks s
  exact ⟨ws, hws, h ▸ hs⟩

theorem blanks_of_skipBlanks_eq_nil {s : Bytes} (h : skipBlanks s = []) : Blanks s := by
  obtain ⟨ws, hws, hs⟩ := exists_blanks s
  rw [h, List.append_nil] at hs
  exact hs ▸ hws

theorem isSpace_of_not_isSeparator {b : UInt8} (h : isSeparator b = false) : isSpace b = false := by
  simp only [isSeparator, Bool.or_eq_false_iff] at h
  exact h.1.1.1

/-- A value begins with a byte that is no separator. -/
def Starts (v : Bytes) : Prop := ∃ b u, v = b :: u ∧ isSeparator b = false

theorem Starts.skipBlanks {ws v : Bytes} (hv : Starts v) (hws : Blanks ws) (s : Bytes) :
    Json.skipBlanks (ws ++ (v ++ s)) = v ++ s := by
  obtain ⟨b, u, rfl, hb⟩ := hv
  exact skipBlanks_blanks_cons hws (isSpace_of_not_isSeparator hb) (u ++ s)

/-! ## Words -/

/-- The bytes of a word in ASCII. -/
def word (cs : List Char) : Bytes := cs.map code

theorem readWord_append (cs : List Char) (s : Bytes) : readWord cs (word cs ++ s) = .ok s := by
  induction cs with
  | nil => rfl
  | cons c cs ih =>
    rw [word, List.map_cons, List.cons_append, readWord, if_pos rfl]
    exact ih

theorem eq_append_of_readWord {cs : List Char} {s rest : Bytes} (h : readWord cs s = .ok rest) :
    s = word cs ++ rest := by
  induction cs generalizing s with
  | nil =>
    cases h
    rfl
  | cons c cs ih =>
    cases s with
    | nil => cases h
    | cons b s =>
      rw [readWord] at h
      split at h
      · rename_i hb
        rw [ih h, hb]
        rfl
      · cases h

/-! ## Readers and grammars -/

/-- A reader takes off the values of a grammar and nothing else. -/
structure Reads {α : Type} (read : Reader α) (G : Bytes → α → Prop) : Prop where
  sound : ∀ {s rest a}, read s = .ok (a, rest) → ∃ ws t, Blanks ws ∧ s = ws ++ t ++ rest ∧ G t a
  complete : ∀ {ws t rest a}, Blanks ws → G t a → Ends rest → read (ws ++ t ++ rest) = .ok (a, rest)
  starts : ∀ {t a}, G t a → Starts t

namespace Reads

variable {α β : Type} {read : Reader α} {G : Bytes → α → Prop}

theorem map (h : Reads read G) (f : α → β) :
    Reads (Reader.map f read) fun t b => ∃ a, G t a ∧ f a = b where
  sound := by
    intro s rest b hb
    unfold Reader.map at hb
    split at hb
    · cases hb
    · rename_i a s' hread
      cases hb
      obtain ⟨ws, t, hws, hs, ht⟩ := h.sound hread
      exact ⟨ws, t, hws, hs, a, ht, rfl⟩
  complete := by
    rintro ws t rest _ hws ⟨a, ht, rfl⟩ hrest
    rw [Reader.map, h.complete hws ht hrest]
  starts := by
    rintro t _ ⟨a, ht, rfl⟩
    exact h.starts ht

theorem accept (h : Reads read G) (f : α → Except String β) :
    Reads (Reader.accept f read) fun t b => ∃ a, G t a ∧ f a = .ok b where
  sound := by
    intro s rest b hb
    unfold Reader.accept at hb
    split at hb
    · cases hb
    · rename_i a s' hread
      split at hb
      · cases hb
      · rename_i hf
        cases hb
        obtain ⟨ws, t, hws, hs, ht⟩ := h.sound hread
        exact ⟨ws, t, hws, hs, a, ht, hf⟩
  complete := by
    rintro ws t rest b hws ⟨a, ht, hf⟩ hrest
    rw [Reader.accept, h.complete hws ht hrest]
    dsimp only
    rw [hf]
  starts := by
    rintro t b ⟨a, ht, -⟩
    exact h.starts ht

/-- The same values under another description. -/
theorem congr {G' : Bytes → α → Prop} (h : Reads read G) (hG : ∀ t a, G t a ↔ G' t a) :
    Reads read G' where
  sound := by
    intro s rest a hread
    obtain ⟨ws, t, hws, hs, ht⟩ := h.sound hread
    exact ⟨ws, t, hws, hs, (hG t a).mp ht⟩
  complete := fun hws ht hrest => h.complete hws ((hG _ _).mpr ht) hrest
  starts := fun ht => h.starts ((hG _ _).mpr ht)

/-- A value or the word `null`, where the two cannot be confused. -/
theorem optional (h : Reads read G) (hnull : ∀ t a, G t a → t.head? ≠ some (code 'n')) :
    Reads (readOptional read) fun t o =>
      (t = word ['n', 'u', 'l', 'l'] ∧ o = none) ∨ ∃ a, G t a ∧ o = some a where
  sound := by
    intro s rest o ho
    unfold readOptional at ho
    split at ho
    · cases ho
    rename_i b t hskip
    obtain ⟨ws, hws, rfl⟩ := exists_blanks_cons hskip
    split at ho
    · rename_i hb
      split at ho
      · cases ho
      · rename_i hword
        cases ho
        refine ⟨ws, word ['n', 'u', 'l', 'l'], hws, ?_, .inl ⟨rfl, rfl⟩⟩
        rw [hb, eq_append_of_readWord hword, List.append_assoc]
        rfl
    · obtain ⟨ws', t', hws', hs, a, ht, rfl⟩ := (h.map some).sound ho
      exact ⟨ws ++ ws', t', hws.append hws', by rw [hs]; simp, .inr ⟨a, ht, rfl⟩⟩
  complete := by
    rintro ws t rest o hws ht hrest
    rw [readOptional, List.append_assoc, skipBlanks_append hws]
    rcases ht with ⟨rfl, rfl⟩ | ⟨a, ht, rfl⟩
    · have hskip : skipBlanks (word ['n', 'u', 'l', 'l'] ++ rest) =
          code 'n' :: (word ['u', 'l', 'l'] ++ rest) := skipBlanks_cons rfl _
      rw [hskip]
      dsimp only
      rw [if_pos rfl, readWord_append]
    · obtain ⟨b, u, rfl, hb⟩ := h.starts ht
      have hn : b ≠ code 'n' := fun he => hnull _ a ht (by rw [he]; rfl)
      rw [List.cons_append, skipBlanks_cons (isSpace_of_not_isSeparator hb)]
      dsimp only
      rw [if_neg hn]
      exact (h.map some).complete .nil ⟨a, ht, rfl⟩ hrest
  starts := by
    rintro t o (⟨rfl, -⟩ | ⟨a, ht, -⟩)
    · exact ⟨_, _, rfl, rfl⟩
    · exact h.starts ht

/-- Around the value of a whole text there may be blanks, and nothing else. -/
theorem readAll_eq_ok_iff (h : Reads read G) {s : Bytes} {a : α} :
    readAll read s = .ok a ↔
      ∃ ws t ws', Blanks ws ∧ G t a ∧ Blanks ws' ∧ s = ws ++ t ++ ws' := by
  constructor
  · intro hall
    unfold readAll at hall
    split at hall
    · cases hall
    rename_i a' rest hread
    obtain ⟨ws, t, hws, hs, ht⟩ := h.sound hread
    split at hall
    · rename_i hempty
      cases hall
      exact ⟨ws, t, rest, hws, ht, blanks_of_skipBlanks_eq_nil (List.isEmpty_iff.mp hempty), hs⟩
    · cases hall
  · rintro ⟨ws, t, ws', hws, ht, hws', rfl⟩
    have hends : Ends ws' := by simpa using hws'.ends ends_nil
    rw [readAll, h.complete hws ht hends]
    dsimp only
    rw [skipBlanks_of_blanks hws']
    rfl

/-- More blanks behind a text make no difference. -/
theorem readAll_append (h : Reads read G) {s ws : Bytes} {a : α} (hs : readAll read s = .ok a)
    (hws : Blanks ws) : readAll read (s ++ ws) = .ok a := by
  obtain ⟨ws₁, t, ws₂, hws₁, ht, hws₂, rfl⟩ := h.readAll_eq_ok_iff.mp hs
  exact h.readAll_eq_ok_iff.mpr ⟨ws₁, t, ws₂ ++ ws, hws₁, ht, hws₂.append hws, by simp⟩

end Reads

end NatBehaviour.Json
