import Mathlib.Algebra.Group.Nat.Defs
import NatBehaviour.Text.Uuid

/-!
The text of an identifier: its thirty-two digits are those of its value, the highest one first, and from
the five groups in which they are written they are read back.
-/

namespace NatBehaviour.Text.Uuid

/-! ## Digits -/

theorem digit?_digitChar {d : Nat} (h : d < 16) : digit? (Nat.digitChar d) = some d :=
  (by decide : ∀ d < 16, digit? (Nat.digitChar d) = some d) d h

theorem digitChar_ne_hyphen {d : Nat} (h : d < 16) : Nat.digitChar d ≠ '-' :=
  (by decide : ∀ d < 16, Nat.digitChar d ≠ '-') d h

theorem utf8Size_digitChar {d : Nat} (h : d < 16) : (Nat.digitChar d).utf8Size = 1 :=
  (by decide : ∀ d < 16, (Nat.digitChar d).utf8Size = 1) d h

/-- The last digits of a number, the highest one first. -/
def lastNibbles (n count : Nat) : List Nat :=
  (List.range count).map fun i => n >>> (4 * (count - 1 - i)) % 16

theorem lastNibbles_succ (n count : Nat) :
    lastNibbles n (count + 1) = n / 16 ^ count % 16 :: lastNibbles n count := by
  have hfirst : n >>> (4 * count) = n / 16 ^ count := by
    rw [Nat.shiftRight_eq_div_pow, Nat.pow_mul]
  have hlater (i : Nat) : n >>> (4 * (count + 1 - 1 - (i + 1))) = n >>> (4 * (count - 1 - i)) := by
    rw [show count + 1 - 1 - (i + 1) = count - 1 - i by omega]
  rw [lastNibbles, List.range_succ_eq_map, List.map_cons, List.map_map, Nat.add_sub_cancel, Nat.sub_zero,
    hfirst]
  exact congrArg _ (List.map_congr_left fun i _ => congrArg (· % 16) (hlater i))

/-- Digits that are read in behind others. -/
theorem foldl_lastNibbles (n count value : Nat) :
    (lastNibbles n count).foldl (fun value d => value * 16 + d) value =
      value * 16 ^ count + n % 16 ^ count := by
  induction count generalizing value with
  | zero => simp [lastNibbles, Nat.mod_one]
  | succ count ih =>
    rw [lastNibbles_succ, List.foldl_cons, ih, Nat.mod_pow_succ, Nat.pow_succ, Nat.add_mul,
      Nat.mul_assoc, Nat.mul_comm 16, Nat.mul_comm (n / 16 ^ count % 16)]
    omega

theorem lt_of_mem_nibbles {u : Uuid} {d : Nat} (h : d ∈ u.nibbles) : d < 16 := by
  obtain ⟨i, -, rfl⟩ := List.mem_map.mp h
  exact Nat.mod_lt _ (by decide)

theorem mapM_digit? {ds : List Nat} (h : ∀ d ∈ ds, d < 16) :
    (ds.map Nat.digitChar).mapM digit? = some ds := by
  induction ds with
  | nil => rfl
  | cons d ds ih =>
    have hd := digit?_digitChar (h d List.mem_cons_self)
    have hds := ih fun e he => h e (List.mem_cons_of_mem d he)
    rw [List.map_cons, List.mapM_cons, hd, hds]
    rfl

theorem ofDigits?_nibbles (u : Uuid) : ofDigits? (u.nibbles.map Nat.digitChar) = some u := by
  have hlt : u.value.toNat < 16 ^ 32 := u.value.isLt
  have hvalue : u.nibbles.foldl (fun n d => n * 16 + d) 0 = u.value.toNat := by
    rw [show u.nibbles = lastNibbles u.value.toNat 32 from rfl, foldl_lastNibbles, Nat.zero_mul, Nat.zero_add,
      Nat.mod_eq_of_lt hlt]
  rw [ofDigits?, mapM_digit? fun d => lt_of_mem_nibbles, Option.map_some, hvalue, BitVec.ofNat_toNat,
    BitVec.setWidth_eq]

/-! ## Groups -/

theorem groups_ne_nil (s : List Char) : groups s ≠ [] := by
  cases s with
  | nil => exact List.cons_ne_nil _ _
  | cons c s =>
    rw [groups]
    split
    · exact List.cons_ne_nil _ _
    · split <;> exact List.cons_ne_nil _ _

theorem groups_hyphen (s : List Char) : groups ('-' :: s) = [] :: groups s := by
  rw [groups]
  split
  · rename_i h
    exact absurd h (groups_ne_nil s)
  · rename_i h
    rw [if_pos rfl, h]

theorem groups_cons {c : Char} (hc : c ≠ '-') {s g : List Char} {gs : List (List Char)}
    (h : groups s = g :: gs) : groups (c :: s) = (c :: g) :: gs := by
  rw [groups, h]
  exact if_neg hc

/-- What has no hyphen belongs to the first group. -/
theorem groups_append {g s t : List Char} {gs : List (List Char)} (hg : ∀ c ∈ g, c ≠ '-')
    (h : groups s = t :: gs) : groups (g ++ s) = (g ++ t) :: gs := by
  induction g with
  | nil => exact h
  | cons c g ih =>
    exact groups_cons (hg c List.mem_cons_self) (ih fun d hd => hg d (List.mem_cons_of_mem c hd))

theorem groups_append_hyphen {g : List Char} (hg : ∀ c ∈ g, c ≠ '-') (s : List Char) :
    groups (g ++ '-' :: s) = g :: groups s := by
  have h := groups_append hg (groups_hyphen s)
  rwa [List.append_nil] at h

theorem groups_eq_singleton {g : List Char} (hg : ∀ c ∈ g, c ≠ '-') : groups g = [g] := by
  have h := groups_append hg (show groups [] = [[]] from rfl)
  rwa [List.append_nil] at h

theorem eq_hyphen_or_mem_groups {s : List Char} {c : Char} (h : c ∈ s) :
    c = '-' ∨ c ∈ (groups s).flatten := by
  induction s with
  | nil => cases h
  | cons d s ih =>
    by_cases hd : d = '-'
    · subst hd
      rw [groups_hyphen]
      exact (List.mem_cons.mp h).elim .inl ih
    · obtain ⟨g, gs, hg⟩ := List.exists_cons_of_ne_nil (groups_ne_nil s)
      rw [hg] at ih
      rw [groups_cons hd hg]
      rcases List.mem_cons.mp h with rfl | hs
      · exact .inr List.mem_cons_self
      · exact (ih hs).imp_right (List.mem_cons_of_mem d)

/-- The five groups of thirty-two digits. -/
def inGroups (ds : List Char) : List (List Char) :=
  [ds.take 8, (ds.drop 8).take 4, (ds.drop 12).take 4, (ds.drop 16).take 4, ds.drop 20]

theorem flatten_inGroups (ds : List Char) : (inGroups ds).flatten = ds := by
  have h₂ := List.take_append_drop 4 (ds.drop 8)
  have h₃ := List.take_append_drop 4 (ds.drop 12)
  have h₄ := List.take_append_drop 4 (ds.drop 16)
  simp only [List.drop_drop] at h₂ h₃ h₄
  simp only [inGroups, List.flatten_cons, List.flatten_nil, List.append_nil]
  rw [h₄, h₃, h₂, List.take_append_drop]

theorem length_inGroups {ds : List Char} (h : ds.length = 32) :
    (inGroups ds).map (·.length) = groupLengths := by
  simp [inGroups, groupLengths, h]

section Text

variable (u : Uuid)

theorem length_nibbles : u.nibbles.length = 32 := rfl

theorem ne_hyphen_of_mem {c : Char} (h : c ∈ u.nibbles.map Nat.digitChar) : c ≠ '-' := by
  obtain ⟨d, hd, rfl⟩ := List.mem_map.mp h
  exact digitChar_ne_hyphen (lt_of_mem_nibbles hd)

theorem groups_chars : groups u.chars = inGroups (u.nibbles.map Nat.digitChar) := by
  have htake (n k : Nat) : ∀ c ∈ ((u.nibbles.map Nat.digitChar).drop n).take k, c ≠ '-' :=
    fun c hc => u.ne_hyphen_of_mem (List.mem_of_mem_drop (List.mem_of_mem_take hc))
  have hfirst : ∀ c ∈ (u.nibbles.map Nat.digitChar).take 8, c ≠ '-' :=
    fun c hc => u.ne_hyphen_of_mem (List.mem_of_mem_take hc)
  have hlast : ∀ c ∈ (u.nibbles.map Nat.digitChar).drop 20, c ≠ '-' :=
    fun c hc => u.ne_hyphen_of_mem (List.mem_of_mem_drop hc)
  simp only [chars, List.append_assoc, List.cons_append]
  rw [groups_append_hyphen hfirst, groups_append_hyphen (htake 8 4), groups_append_hyphen (htake 12 4),
    groups_append_hyphen (htake 16 4), groups_eq_singleton hlast]
  rfl

theorem ofGroups?_chars : ofGroups? u.chars = some u := by
  simp only [ofGroups?, u.groups_chars]
  rw [if_pos (length_inGroups (by rw [List.length_map, length_nibbles])), flatten_inGroups,
    ofDigits?_nibbles]

theorem size_eq_length {s : List Char} (h : ∀ c ∈ s, c.utf8Size = 1) : size s = s.length := by
  have hfold (n : Nat) : s.foldl (fun size c => size + c.utf8Size) n = n + s.length := by
    induction s generalizing n with
    | nil => rfl
    | cons c s ih =>
      rw [List.foldl_cons, ih fun d hd => h d (List.mem_cons_of_mem c hd), h c List.mem_cons_self,
        List.length_cons]
      omega
  rw [size, hfold, Nat.zero_add]

theorem size_chars : size u.chars = 36 := by
  have hsize : ∀ c ∈ u.chars, c.utf8Size = 1 := by
    intro c hc
    have hmem := eq_hyphen_or_mem_groups hc
    rw [u.groups_chars, flatten_inGroups] at hmem
    rcases hmem with rfl | hmem
    · rfl
    · obtain ⟨d, hd, rfl⟩ := List.mem_map.mp hmem
      exact utf8Size_digitChar (lt_of_mem_nibbles hd)
  rw [size_eq_length hsize]
  simp [chars, length_nibbles]

/-- An identifier is read back from its text. -/
theorem ofString_text : ofString u.text = .ok u := by
  have hform : hyphenated? u.chars = some u.chars := by
    simp only [hyphenated?, u.size_chars]
  have hchars : ofChars? u.chars = some u := by
    rw [ofChars?, u.size_chars, if_neg (by decide), hform, Option.bind_some, u.ofGroups?_chars]
  rw [ofString, text, String.toList_ofList, hchars]

end Text

end NatBehaviour.Text.Uuid
