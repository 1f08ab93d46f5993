import NatBehaviour.Text.Utf8

/-!
UTF-8 is read back: the bytes of a character are split off again in front of anything, and so the bytes
of a text give the text. Conversely nothing else is read: whatever gives a text is the bytes of that text.
-/

namespace NatBehaviour.Text.Utf8

theorem scalar?_toNat {least : Nat} {c : Char} (h : least ≤ c.toNat) :
    scalar? least c.toNat = some c := by
  rw [scalar?, if_pos ⟨h, c.valid⟩, Char.ofNat_toNat]

theorem toNat_toUInt8 {n : Nat} (h : n < 256) : n.toUInt8.toNat = n := by
  simp [Nat.mod_eq_of_lt h]

theorem toUInt8_lt_iff {n : Nat} (h : n < 256) (b : UInt8) : n.toUInt8 < b ↔ n < b.toNat := by
  rw [UInt8.lt_iff_toNat_lt, toNat_toUInt8 h]

theorem isTail_tail {n : Nat} (h : n < 64) : isTail (0x80 + n).toUInt8 = true := by
  simp only [isTail, Bool.and_eq_true, decide_eq_true_eq, UInt8.le_iff_toNat_le,
    toUInt8_lt_iff (n := 0x80 + n) (by omega), toNat_toUInt8 (n := 0x80 + n) (by omega)]
  exact ⟨by simp, by simp; omega⟩

theorem tailBits_tail {n : Nat} (h : n < 64) : tailBits (0x80 + n).toUInt8 = n := by
  rw [tailBits, toNat_toUInt8 (by omega)]
  omega

theorem toNat_lt (c : Char) : c.toNat < 0x110000 := by
  have h : c.toNat.isValidChar := c.valid
  simp only [Nat.isValidChar] at h
  omega

theorem not_toUInt8_lt {n : Nat} (hn : n < 256) {b : UInt8} (h : b.toNat ≤ n) : ¬ n.toUInt8 < b := by
  rw [toUInt8_lt_iff hn]
  omega

/-! ## One character -/

section

variable {c : Char} (s : List UInt8)

theorem uncons_oneByte (h : c.toNat < 0x80) : uncons (c.toNat.toUInt8 :: s) = some (c, s) := by
  have ha : c.toNat.toUInt8 < 0x80 := (toUInt8_lt_iff (by omega) _).mpr h
  simp only [uncons]
  rw [if_pos ha, toNat_toUInt8 (by omega), Char.ofNat_toNat]

theorem uncons_twoBytes (hlo : 0x80 ≤ c.toNat) (hhi : c.toNat < 0x800) :
    uncons ((0xC0 + c.toNat / 64).toUInt8 :: (0x80 + c.toNat % 64).toUInt8 :: s) = some (c, s) := by
  have hlead (b : UInt8) (hb : b.toNat ≤ 0xC0) : ¬ (0xC0 + c.toNat / 64).toUInt8 < b :=
    not_toUInt8_lt (by omega) (by omega)
  have hnext : (0xC0 + c.toNat / 64).toUInt8 < 0xE0 :=
    (toUInt8_lt_iff (by omega) _).mpr (by simp; omega)
  have hn : (0xC0 + c.toNat / 64) % 32 * 64 + c.toNat % 64 = c.toNat := by omega
  simp only [uncons]
  rw [if_neg (hlead _ (by simp)), if_neg (hlead _ (by simp)), if_pos hnext,
    isTail_tail (Nat.mod_lt _ (by decide)), tailBits_tail (Nat.mod_lt _ (by decide)),
    toNat_toUInt8 (by omega), hn, scalar?_toNat hlo]
  rfl

theorem uncons_threeBytes (hlo : 0x800 ≤ c.toNat) (hhi : c.toNat < 0x10000) :
    uncons ((0xE0 + c.toNat / 4096).toUInt8 :: (0x80 + c.toNat / 64 % 64).toUInt8 ::
      (0x80 + c.toNat % 64).toUInt8 :: s) = some (c, s) := by
  have hlead (b : UInt8) (hb : b.toNat ≤ 0xE0) : ¬ (0xE0 + c.toNat / 4096).toUInt8 < b :=
    not_toUInt8_lt (by omega) (by omega)
  have hnext : (0xE0 + c.toNat / 4096).toUInt8 < 0xF0 :=
    (toUInt8_lt_iff (by omega) _).mpr (by simp; omega)
  have hn : (0xE0 + c.toNat / 4096) % 16 * 4096 + c.toNat / 64 % 64 * 64 + c.toNat % 64 =
      c.toNat := by omega
  simp only [uncons]
  rw [if_neg (hlead _ (by simp)), if_neg (hlead _ (by simp)), if_neg (hlead _ (by simp)),
    if_pos hnext, isTail_tail (Nat.mod_lt _ (by decide)), isTail_tail (Nat.mod_lt _ (by decide)),
    tailBits_tail (Nat.mod_lt _ (by decide)), tailBits_tail (Nat.mod_lt _ (by decide)),
    toNat_toUInt8 (by omega), hn, scalar?_toNat hlo]
  rfl

theorem uncons_fourBytes (hlo : 0x10000 ≤ c.toNat) :
    uncons ((0xF0 + c.toNat / 262144).toUInt8 :: (0x80 + c.toNat / 4096 % 64).toUInt8 ::
      (0x80 + c.toNat / 64 % 64).toUInt8 :: (0x80 + c.toNat % 64).toUInt8 :: s) = some (c, s) := by
  have hlt := toNat_lt c
  have hlead (b : UInt8) (hb : b.toNat ≤ 0xF0) : ¬ (0xF0 + c.toNat / 262144).toUInt8 < b :=
    not_toUInt8_lt (by omega) (by omega)
  have hnext : (0xF0 + c.toNat / 262144).toUInt8 < 0xF8 :=
    (toUInt8_lt_iff (by omega) _).mpr (by simp; omega)
  have hn : (0xF0 + c.toNat / 262144) % 8 * 262144 + c.toNat / 4096 % 64 * 4096 +
      c.toNat / 64 % 64 * 64 + c.toNat % 64 = c.toNat := by omega
  simp only [uncons]
  rw [if_neg (hlead _ (by simp)), if_neg (hlead _ (by simp)), if_neg (hlead _ (by simp)),
    if_neg (hlead _ (by simp)), if_pos hnext,
    isTail_tail (Nat.mod_lt _ (by decide)), isTail_tail (Nat.mod_lt _ (by decide)),
    isTail_tail (Nat.mod_lt _ (by decide)), tailBits_tail (Nat.mod_lt _ (by decide)),
    tailBits_tail (Nat.mod_lt _ (by decide)), tailBits_tail (Nat.mod_lt _ (by decide)),
    toNat_toUInt8 (by omega), hn, scalar?_toNat hlo]
  rfl

end

/-- The bytes of a character are split off again. -/
theorem uncons_encodeChar (c : Char) (s : List UInt8) :
    uncons (encodeChar c ++ s) = some (c, s) := by
  simp only [encodeChar]
  split
  · rename_i h1
    exact uncons_oneByte s h1
  split
  · rename_i h1 h2
    exact uncons_twoBytes s (Nat.le_of_not_lt h1) h2
  split
  · rename_i h1 h2 h3
    exact uncons_threeBytes s (Nat.le_of_not_lt h2) h3
  · rename_i h1 h2 h3
    exact uncons_fourBytes s (Nat.le_of_not_lt h3)

theorem length_encodeChar_pos (c : Char) : 0 < (encodeChar c).length := by
  rw [List.length_pos_iff]
  intro h
  have hun := uncons_encodeChar c []
  rw [h] at hun
  cases hun

/-- Only a character of ASCII has a byte of ASCII, and it is that byte. -/
theorem encodeChar_bytes {c : Char} {b : UInt8} (hb : b ∈ encodeChar c) :
    b.toNat = c.toNat ∨ 0x80 ≤ b.toNat := by
  have hlt := toNat_lt c
  have hhigh {n : Nat} (hl : 0x80 ≤ n) (hn : n < 256) : 0x80 ≤ n.toUInt8.toNat := by
    rwa [toNat_toUInt8 hn]
  simp only [encodeChar] at hb
  split at hb
  · rw [List.mem_singleton.mp hb, toNat_toUInt8 (by omega)]
    exact .inl rfl
  right
  split at hb
  · simp only [List.mem_cons, List.not_mem_nil, or_false] at hb
    rcases hb with rfl | rfl <;> exact hhigh (by omega) (by omega)
  split at hb
  · simp only [List.mem_cons, List.not_mem_nil, or_false] at hb
    rcases hb with rfl | rfl | rfl <;> exact hhigh (by omega) (by omega)
  · simp only [List.mem_cons, List.not_mem_nil, or_false] at hb
    rcases hb with rfl | rfl | rfl | rfl <;> exact hhigh (by omega) (by omega)

/-! ## Texts -/

theorem mem_of_mem_encode {c : Char} {cs : List Char} (hc : c.toNat < 0x80) (h : c.toNat.toUInt8 ∈ encode cs) :
    c ∈ cs := by
  obtain ⟨c', hc', hb⟩ := List.mem_flatMap.mp h
  have hbyte := encodeChar_bytes hb
  rw [toNat_toUInt8 (by omega)] at hbyte
  rwa [Char.toNat_inj.mp (hbyte.resolve_right (by omega))]

theorem encode_append (a b : List Char) : encode (a ++ b) = encode a ++ encode b :=
  List.flatMap_append

theorem decodeLoop_encode (cs read : List Char) {fuel : Nat} (h : (encode cs).length ≤ fuel) :
    decodeLoop fuel read (encode cs) = some (read.reverse ++ cs) := by
  induction cs generalizing read fuel with
  | nil => simp [encode, decodeLoop]
  | cons c cs ih =>
    have hc := length_encodeChar_pos c
    have hcons : encode (c :: cs) = encodeChar c ++ encode cs := rfl
    rw [hcons] at h ⊢
    obtain ⟨b, s, hs⟩ : ∃ b s, encodeChar c = b :: s := List.exists_cons_of_length_pos hc
    obtain ⟨fuel, rfl⟩ : ∃ k, fuel = k + 1 := ⟨fuel - 1, by simp [hs] at h; omega⟩
    have hun := uncons_encodeChar c (encode cs)
    rw [hs, List.cons_append] at hun ⊢
    rw [decodeLoop, hun]
    · simp only
      rw [ih (c :: read) (by simp [hs] at h; omega)]
      simp
    · simp

/-- The characters of a text are read back from its bytes. -/
theorem decode_encode (cs : List Char) : decode (encode cs) = some cs := by
  simp [decode, decodeLoop_encode]

theorem toString?_encode (cs : List Char) : toString? (encode cs) = some (String.ofList cs) := by
  simp [toString?, decode_encode]

/-! ## Nothing else is read -/

section

variable {c : Char} {s rest : List UInt8}

theorem toNat_of_scalar? {least n : Nat} (h : scalar? least n = some c) :
    least ≤ n ∧ c.toNat = n := by
  simp only [scalar?, Option.ite_none_right_eq_some, Option.some.injEq] at h
  obtain ⟨⟨hle, hvalid⟩, rfl⟩ := h
  exact ⟨hle, by rw [Char.ofNat, dif_pos hvalid]; rfl⟩

theorem toUInt8_eq {n : Nat} {b : UInt8} (h : n = b.toNat) : n.toUInt8 = b := by
  rw [h]
  exact UInt8.ofNat_toNat

theorem le_of_isTail {b : UInt8} (h : isTail b = true) : 0x80 ≤ b.toNat ∧ b.toNat < 0xC0 := by
  simpa [isTail, UInt8.le_iff_toNat_le, UInt8.lt_iff_toNat_lt] using h

theorem encodeChar_oneByte {a : UInt8} (ha : a < 0x80) : encodeChar (Char.ofNat a.toNat) = [a] := by
  have hlt : a.toNat < 0x80 := by simpa [UInt8.lt_iff_toNat_lt] using ha
  have hvalid : a.toNat.isValidChar := .inl (by omega)
  have hn : (Char.ofNat a.toNat).toNat = a.toNat := by
    rw [Char.ofNat, dif_pos hvalid]
    rfl
  rw [encodeChar, hn, if_pos hlt, toUInt8_eq rfl]

theorem encodeChar_twoBytes {a b : UInt8} (hlo : ¬ a < 0xC0) (hhi : a < 0xE0) (hb : isTail b = true)
    (h : scalar? 0x80 (a.toNat % 32 * 64 + tailBits b) = some c) : encodeChar c = [a, b] := by
  simp only [UInt8.lt_iff_toNat_lt, UInt8.reduceToNat] at hlo hhi
  obtain ⟨hleast, hn⟩ := toNat_of_scalar? h
  have hb := le_of_isTail hb
  simp only [tailBits] at hleast hn
  simp only [encodeChar]
  rw [if_neg (by omega), if_pos (by omega), toUInt8_eq (b := a) (by omega),
    toUInt8_eq (b := b) (by omega)]

theorem encodeChar_threeBytes {a b d : UInt8} (hlo : ¬ a < 0xE0) (hhi : a < 0xF0)
    (hb : isTail b = true) (hd : isTail d = true)
    (h : scalar? 0x800 (a.toNat % 16 * 4096 + tailBits b * 64 + tailBits d) = some c) :
    encodeChar c = [a, b, d] := by
  simp only [UInt8.lt_iff_toNat_lt, UInt8.reduceToNat] at hlo hhi
  obtain ⟨hleast, hn⟩ := toNat_of_scalar? h
  have hb := le_of_isTail hb
  have hd := le_of_isTail hd
  simp only [tailBits] at hleast hn
  simp only [encodeChar]
  rw [if_neg (by omega), if_neg (by omega), if_pos (by omega), toUInt8_eq (b := a) (by omega),
    toUInt8_eq (b := b) (by omega), toUInt8_eq (b := d) (by omega)]

theorem encodeChar_fourBytes {a b d e : UInt8} (hlo : ¬ a < 0xF0) (hhi : a < 0xF8)
    (hb : isTail b = true) (hd : isTail d = true) (he : isTail e = true)
    (h : scalar? 0x10000 (a.toNat % 8 * 262144 + tailBits b * 4096 + tailBits d * 64 + tailBits e) =
      some c) : encodeChar c = [a, b, d, e] := by
  simp only [UInt8.lt_iff_toNat_lt, UInt8.reduceToNat] at hlo hhi
  obtain ⟨hleast, hn⟩ := toNat_of_scalar? h
  have hb := le_of_isTail hb
  have hd := le_of_isTail hd
  have he := le_of_isTail he
  simp only [tailBits] at hleast hn
  simp only [encodeChar]
  rw [if_neg (by omega), if_neg (by omega), if_neg (by omega), toUInt8_eq (b := a) (by omega),
    toUInt8_eq (b := b) (by omega), toUInt8_eq (b := d) (by omega), toUInt8_eq (b := e) (by omega)]

/-- A character that is split off is in front with its own bytes. -/
theorem encodeChar_of_uncons (h : uncons s = some (c, rest)) : s = encodeChar c ++ rest := by
  unfold uncons at h
  split at h
  · cases h
  rename_i a s
  split at h
  · rename_i ha
    cases h
    rw [encodeChar_oneByte ha]
    rfl
  split at h
  · cases h
  rename_i hc0
  split at h
  · rename_i he0
    split at h
    · simp only [Option.ite_none_right_eq_some, Option.map_eq_some_iff, Prod.mk.injEq] at h
      obtain ⟨hb, c', hscalar, rfl, rfl⟩ := h
      rw [encodeChar_twoBytes hc0 he0 hb hscalar]
      rfl
    · cases h
  rename_i he0
  split at h
  · rename_i hf0
    split at h
    · simp only [Option.ite_none_right_eq_some, Option.map_eq_some_iff, Prod.mk.injEq,
        Bool.and_eq_true] at h
      obtain ⟨⟨hb, hd⟩, c', hscalar, rfl, rfl⟩ := h
      rw [encodeChar_threeBytes he0 hf0 hb hd hscalar]
      rfl
    · cases h
  rename_i hf0
  split at h
  · rename_i hf8
    split at h
    · simp only [Option.ite_none_right_eq_some, Option.map_eq_some_iff, Prod.mk.injEq,
        Bool.and_eq_true] at h
      obtain ⟨⟨⟨hb, hd⟩, he⟩, c', hscalar, rfl, rfl⟩ := h
      rw [encodeChar_fourBytes hf0 hf8 hb hd he hscalar]
      rfl
    · cases h
  · cases h

theorem encode_of_decodeLoop {fuel : Nat} {read cs : List Char}
    (h : decodeLoop fuel read s = some cs) : ∃ more, cs = read.reverse ++ more ∧ s = encode more := by
  induction fuel generalizing read s with
  | zero =>
    cases s with
    | nil =>
      cases h
      exact ⟨[], (List.append_nil _).symm, rfl⟩
    | cons b s => cases h
  | succ fuel ih =>
    cases s with
    | nil =>
      cases h
      exact ⟨[], (List.append_nil _).symm, rfl⟩
    | cons b s =>
      rw [decodeLoop] at h
      split at h
      · rename_i c rest hun
        obtain ⟨more, rfl, rfl⟩ := ih h
        refine ⟨c :: more, by simp, ?_⟩
        rw [encodeChar_of_uncons hun]
        rfl
      · cases h
      · simp

end

/-- The bytes of a text, and no others, give the text. -/
theorem toString?_eq_some_iff {s : List UInt8} {t : String} :
    toString? s = some t ↔ s = ofString t := by
  constructor
  · intro h
    obtain ⟨cs, hdecode, rfl⟩ := Option.map_eq_some_iff.mp h
    obtain ⟨more, hcs, rfl⟩ := encode_of_decodeLoop hdecode
    rw [ofString, hcs, String.toList_ofList]
    rfl
  · rintro rfl
    rw [ofString, toString?_encode, String.ofList_toList]

end NatBehaviour.Text.Utf8
