import NatBehaviour.Json.Scalar
import NatBehaviour.Json.Value
import NatBehaviour.Proofs.Json.Loop
import NatBehaviour.Proofs.Text.Utf8

/-!
Texts are read back from their quoted form: every character comes back, whether it is written as it is,
by a letter behind a backslash or by its number.
-/

namespace NatBehaviour.Json

open NatBehaviour.Text

/-- A byte that stands for itself inside a quoted text. -/
def IsPlain (b : UInt8) : Prop := b ≠ code '"' ∧ b ≠ code '\\' ∧ ¬ b < 0x20

theorem advances_plain {bs : Bytes} (h : ∀ b ∈ bs, IsPlain b) (read s : Bytes) :
    Advances textStep read (bs ++ s) (bs.reverse ++ read) s := by
  induction bs generalizing read with
  | nil => exact .here read s
  | cons b bs ih =>
    obtain ⟨hq, hb, hc⟩ := h b (by simp)
    have first : textStep read (b :: (bs ++ s)) = .ok (.more (b :: read) (bs ++ s)) := by
      simp [textStep, hq, hb, hc]
    rw [List.reverse_cons, List.append_assoc, List.cons_append]
    exact .more first (by simp) (ih (fun b hb => h b (by simp [hb])) (b :: read))

theorem isPlain_of_toNat {b : UInt8} (h : 0x20 ≤ b.toNat) (hq : b.toNat ≠ 0x22)
    (hb : b.toNat ≠ 0x5C) : IsPlain b := by
  refine ⟨?_, ?_, ?_⟩
  · rintro rfl
    exact hq rfl
  · rintro rfl
    exact hb rfl
  · rw [UInt8.lt_iff_toNat_lt]
    simpa using h

theorem isPlain_encodeChar {c : Char} (hc : 0x20 ≤ c.toNat) (hq : c.toNat ≠ 0x22)
    (hb : c.toNat ≠ 0x5C) : ∀ b ∈ Utf8.encodeChar c, IsPlain b := by
  intro b hmem
  have hbyte := Utf8.encodeChar_bytes hmem
  apply isPlain_of_toNat <;> omega

/-- A letter behind a backslash. -/
theorem advances_short {b c : UInt8} (h : shortEscape? b = some c) (hu : b ≠ code 'u')
    (read s : Bytes) : Advances textStep read (code '\\' :: b :: s) (c :: read) s := by
  refine .one ?_ (by simp only [List.length_cons]; omega)
  simp [textStep, readEscape, h, hu, show code '\\' ≠ code '"' by decide]

theorem hexDigit?_digitChar {d : Nat} (h : d < 16) :
    hexDigit? (code d.digitChar) = some d := by
  have table : ∀ d < 16, hexDigit? (code d.digitChar) = some d := by decide
  exact table d h

theorem encode_controlEscape {c : Char} (hc : c.toNat < 0x20) :
    Utf8.encode (Value.controlEscape c) =
      [code '\\', code 'u', code '0', code '0', code (c.toNat / 16).digitChar,
        code (c.toNat % 16).digitChar] := by
  have ascii : ∀ d < 16, Utf8.encodeChar d.digitChar = [code d.digitChar] := by decide
  simp only [Utf8.encode, Value.controlEscape, List.flatMap_cons, List.flatMap_nil,
    ascii (c.toNat / 16) (by omega), ascii (c.toNat % 16) (by omega)]
  rfl

/-- A control character by its number. -/
theorem advances_control {c : Char} (hc : c.toNat < 0x20) (read s : Bytes) :
    Advances textStep read (Utf8.encode (Value.controlEscape c) ++ s)
      ((Utf8.encodeChar c).reverse ++ read) s := by
  have hhex : readHex (code '0' :: code '0' :: code (c.toNat / 16).digitChar ::
      code (c.toNat % 16).digitChar :: s) = .ok (c.toNat, s) := by
    have hn : c.toNat / 16 * 16 + c.toNat % 16 = c.toNat := by omega
    simp [readHex, hexDigit?_digitChar (d := c.toNat / 16) (by omega),
      hexDigit?_digitChar (d := c.toNat % 16) (by omega), show hexDigit? (code '0') = some 0 by decide, hn]
  rw [encode_controlEscape hc]
  refine .one ?_ (by simp; omega)
  simp only [List.cons_append, List.nil_append, textStep, readEscape, readUnicode, hhex,
    show code '\\' ≠ code '"' by decide, if_false, if_true]
  rw [if_neg (by simp [isTrailing]; omega), if_neg (by simp [isLeading]; omega), Char.ofNat_toNat]

/-- Whatever form a character has, its bytes are read. -/
theorem advances_escape (c : Char) (read s : Bytes) :
    Advances textStep read (Utf8.encode (Value.escape c) ++ s)
      ((Utf8.encodeChar c).reverse ++ read) s := by
  have short (c d : Char) (b : UInt8) (hd : Utf8.encodeChar d = [code d])
      (hc : Utf8.encodeChar c = [b]) (h : shortEscape? (code d) = some b) (hu : code d ≠ code 'u') :
      Advances textStep read (Utf8.encode ['\\', d] ++ s) ((Utf8.encodeChar c).reverse ++ read) s := by
    have hbytes : Utf8.encode ['\\', d] = [code '\\', code d] := by
      simp only [Utf8.encode, List.flatMap_cons, List.flatMap_nil, hd]
      rfl
    rw [hbytes, hc]
    exact advances_short h hu read s
  have ofCode {n : Nat} (h : c.toNat = n) : c = Char.ofNat n := by rw [← h, Char.ofNat_toNat]
  unfold Value.escape
  split
  · rename_i h
    exact h ▸ short '"' '"' 0x22 rfl rfl rfl (by decide)
  split
  · rename_i h
    exact h ▸ short '\\' '\\' 0x5C rfl rfl rfl (by decide)
  split
  · rename_i h
    exact ofCode h ▸ short (Char.ofNat 0x08) 'b' 0x08 rfl rfl rfl (by decide)
  split
  · rename_i h
    exact ofCode h ▸ short (Char.ofNat 0x0C) 'f' 0x0C rfl rfl rfl (by decide)
  split
  · rename_i h
    exact h ▸ short '\n' 'n' 0x0A rfl rfl rfl (by decide)
  split
  · rename_i h
    exact h ▸ short '\r' 'r' 0x0D rfl rfl rfl (by decide)
  split
  · rename_i h
    exact h ▸ short '\t' 't' 0x09 rfl rfl rfl (by decide)
  split
  · rename_i h
    exact advances_control h read s
  · rename_i hq hb _ _ _ _ _ hc
    have hne {d : Char} (h : c ≠ d) : c.toNat ≠ d.toNat := fun he => h (Char.toNat_inj.mp he)
    have hplain := isPlain_encodeChar (by omega) (hne hq) (hne hb)
    simpa [Utf8.encode] using advances_plain hplain read s

theorem advances_escaped (cs : List Char) (read s : Bytes) :
    Advances textStep read (Utf8.encode (cs.flatMap Value.escape) ++ s)
      ((Utf8.encode cs).reverse ++ read) s := by
  induction cs generalizing read with
  | nil => exact .here read s
  | cons c cs ih =>
    have hcons : Utf8.encode (c :: cs) = Utf8.encodeChar c ++ Utf8.encode cs := rfl
    rw [List.flatMap_cons, Utf8.encode_append, hcons, List.reverse_append, List.append_assoc,
      List.append_assoc]
    exact (advances_escape c read _).trans (ih _)

/-- A text is read back from its quoted form, from behind the opening quote. -/
theorem readText_escaped (t : String) (s : Bytes) :
    readText (Utf8.encode (t.toList.flatMap Value.escape) ++ code '"' :: s) = .ok (t, s) := by
  have hdone (read : Bytes) : textStep read (code '"' :: s) = .ok (.done read s) := by
    simp [textStep]
  have h := (advances_escaped t.toList [] (code '"' :: s)).loop (hdone _)
  simp [readText, h, Utf8.toString?_encode]

theorem encode_quoted (t : String) :
    Utf8.encode (Value.quoted t) =
      code '"' :: Utf8.encode (t.toList.flatMap Value.escape) ++ [code '"'] := by
  rw [Value.quoted, Utf8.encode_append]
  rfl

theorem readString_quoted (t : String) (s : Bytes) :
    readString (Utf8.encode (Value.quoted t) ++ s) = .ok (t, s) := by
  have hskip (r : Bytes) : skipBlanks (code '"' :: r) = code '"' :: r := rfl
  rw [encode_quoted, List.append_assoc, List.cons_append]
  simp only [readString, readTextAs, hskip, if_true]
  exact readText_escaped t s

/-! ## How long a quoted text can be -/

theorem length_encodeChar_le (c : Char) : (Utf8.encodeChar c).length ≤ 4 := by
  simp only [Utf8.encodeChar]
  split
  · simp
  split
  · simp
  split <;> simp

theorem length_encode_escape_le (c : Char) : (Utf8.encode (Value.escape c)).length ≤ 6 := by
  have short {d : Char} (h : Utf8.encodeChar d = [code d]) :
      (Utf8.encode ['\\', d]).length ≤ 6 := by
    simp [Utf8.encode, h, show Utf8.encodeChar '\\' = [code '\\'] from rfl]
  unfold Value.escape
  split
  · exact short rfl
  split
  · exact short rfl
  split
  · exact short rfl
  split
  · exact short rfl
  split
  · exact short rfl
  split
  · exact short rfl
  split
  · exact short rfl
  split
  · rename_i h
    rw [encode_controlEscape h]
    simp
  · have := length_encodeChar_le c
    simp only [Utf8.encode, List.flatMap_cons, List.flatMap_nil, List.append_nil]
    omega

theorem length_encode_escaped_le (cs : List Char) :
    (Utf8.encode (cs.flatMap Value.escape)).length ≤ 6 * cs.length := by
  induction cs with
  | nil => simp [Utf8.encode]
  | cons c cs ih =>
    have := length_encode_escape_le c
    rw [List.flatMap_cons, Utf8.encode_append, List.length_append, List.length_cons]
    omega

end NatBehaviour.Json
