import NatBehaviour.Proofs.Json.SkipGrammar

/-!
The grammar of enumerations: a variant is written as its name, or as an object with its name for the only
key, which holds `null`.
-/

namespace NatBehaviour.Json

def nullWord : Bytes := word ['n', 'u', 'l', 'l']

namespace Variants

variable {α : Type} {v : Variants α} {a : α} {s rest : Bytes}

/-- A variant as it is written. -/
inductive Text (v : Variants α) : Bytes → α → Prop
  | name {t : Bytes} {name : String} {a : α} (h : TextOf t name) (ha : v.ofName? name = some a) :
      Text v t a
  | object {ws k ws₁ ws₂ ws₃ : Bytes} {name : String} {a : α} (hws : Blanks ws) (h : TextOf k name)
      (ha : v.ofName? name = some a) (hws₁ : Blanks ws₁) (hws₂ : Blanks ws₂) (hws₃ : Blanks ws₃) :
      Text v (code '{' :: (ws ++ (k ++ (ws₁ ++ code ':' :: (ws₂ ++ (nullWord ++ (ws₃ ++ [code '}']))))))) a

theorem named_eq_ok_iff {name : String} : v.named name = .ok a ↔ v.ofName? name = some a := by
  unfold named
  cases v.ofName? name <;> simp

theorem readName_eq_ok_iff :
    v.readName s = .ok (a, rest) ↔
      ∃ t name, code '"' :: s = t ++ rest ∧ TextOf t name ∧ v.ofName? name = some a := by
  constructor
  · intro h
    unfold readName at h
    split at h
    · cases h
    rename_i name s' htext
    obtain ⟨body, rfl, hbody⟩ := readText_eq_ok_iff.mp htext
    cases hnamed : v.named name with
    | error cause =>
      rw [hnamed] at h
      cases h
    | ok b =>
      rw [hnamed] at h
      cases h
      exact ⟨_, name, by simp, ⟨body, rfl, hbody⟩, named_eq_ok_iff.mp hnamed⟩
  · intro h
    obtain ⟨t, name, ht, ⟨body, rfl, hbody⟩, ha⟩ := h
    obtain rfl : s = body ++ code '"' :: rest := by simpa using ht
    rw [readName, readText_eq_ok_iff.mpr ⟨body, rfl, hbody⟩]
    dsimp only
    rw [named_eq_ok_iff.mpr ha]
    rfl

theorem readName_text {t : Bytes} {name : String} (h : TextOf t name) (ha : v.ofName? name = some a)
    (rest : Bytes) : ∃ u, t = code '"' :: u ∧ v.readName (u ++ rest) = .ok (a, rest) := by
  obtain ⟨body, rfl, hbody⟩ := h
  exact ⟨_, rfl, readName_eq_ok_iff.mpr ⟨_, name, rfl, ⟨body, rfl, hbody⟩, ha⟩⟩

theorem readUnit_eq_ok_iff :
    readUnit s = .ok rest ↔ ∃ ws, Blanks ws ∧ s = ws ++ (nullWord ++ rest) := by
  constructor
  · intro h
    unfold readUnit at h
    split at h
    · cases h
    rename_i b t hskip
    obtain ⟨ws, hws, rfl⟩ := exists_blanks_cons hskip
    split at h
    · rename_i hb
      refine ⟨ws, hws, ?_⟩
      rw [hb, eq_append_of_readWord h]
      rfl
    · unfold mismatch at h
      split at h <;> cases h
  · intro h
    obtain ⟨ws, hws, rfl⟩ := h
    rw [readUnit, show nullWord ++ rest = code 'n' :: (word ['u', 'l', 'l'] ++ rest) from rfl,
      skipBlanks_blanks_cons hws rfl]
    dsimp only
    rw [if_pos rfl, readWord_append]

theorem readRest_eq_ok_iff {b : α} :
    readRest a s = .ok (b, rest) ↔ b = a ∧ ∃ ws₁ ws₂ ws₃, Blanks ws₁ ∧ Blanks ws₂ ∧ Blanks ws₃ ∧
      s = ws₁ ++ code ':' :: (ws₂ ++ (nullWord ++ (ws₃ ++ code '}' :: rest))) := by
  constructor
  · intro h
    unfold readRest at h
    split at h
    · cases h
    rename_i c t hskip
    obtain ⟨ws₁, hws₁, rfl⟩ := exists_blanks_cons hskip
    split at h
    · rename_i hc
      split at h
      · cases h
      rename_i s' hunit
      obtain ⟨ws₂, hws₂, rfl⟩ := readUnit_eq_ok_iff.mp hunit
      split at h
      · cases h
      rename_i d u hskip'
      obtain ⟨ws₃, hws₃, rfl⟩ := exists_blanks_cons hskip'
      split at h
      · rename_i hd
        cases h
        exact ⟨rfl, ws₁, ws₂, ws₃, hws₁, hws₂, hws₃, by rw [hc, hd]⟩
      · cases h
    · cases h
  · intro h
    obtain ⟨rfl, ws₁, ws₂, ws₃, hws₁, hws₂, hws₃, rfl⟩ := h
    rw [readRest, skipBlanks_blanks_cons hws₁ rfl]
    dsimp only
    rw [if_pos rfl, readUnit_eq_ok_iff.mpr ⟨ws₂, hws₂, rfl⟩]
    dsimp only
    rw [skipBlanks_blanks_cons hws₃ rfl]
    dsimp only
    rw [if_pos rfl]

theorem readObject_eq_ok_iff :
    v.readObject s = .ok (a, rest) ↔
      ∃ ws k ws₁ ws₂ ws₃ name, Blanks ws ∧ TextOf k name ∧ v.ofName? name = some a ∧
        Blanks ws₁ ∧ Blanks ws₂ ∧ Blanks ws₃ ∧
        s = ws ++ (k ++ (ws₁ ++ code ':' :: (ws₂ ++ (nullWord ++ (ws₃ ++ code '}' :: rest))))) := by
  constructor
  · intro h
    unfold readObject at h
    split at h
    · cases h
    rename_i b t hskip
    obtain ⟨ws, hws, rfl⟩ := exists_blanks_cons hskip
    split at h
    · rename_i hb
      split at h
      · cases h
      rename_i a' s' hname
      obtain ⟨k, name, hk, htext, ha⟩ := readName_eq_ok_iff.mp hname
      obtain ⟨rfl, ws₁, ws₂, ws₃, hws₁, hws₂, hws₃, rfl⟩ := readRest_eq_ok_iff.mp h
      exact ⟨ws, k, ws₁, ws₂, ws₃, name, hws, htext, ha, hws₁, hws₂, hws₃, by rw [hb, hk]⟩
    · split at h <;> cases h
  · intro h
    obtain ⟨ws, k, ws₁, ws₂, ws₃, name, hws, htext, ha, hws₁, hws₂, hws₃, rfl⟩ := h
    obtain ⟨u, rfl, hname⟩ := readName_text htext ha
      (ws₁ ++ code ':' :: (ws₂ ++ (nullWord ++ (ws₃ ++ code '}' :: rest))))
    rw [readObject, List.cons_append, skipBlanks_blanks_cons hws rfl]
    dsimp only
    rw [if_pos rfl, hname]
    exact readRest_eq_ok_iff.mpr ⟨rfl, ws₁, ws₂, ws₃, hws₁, hws₂, hws₃, rfl⟩

theorem reads (v : Variants α) : Reads v.read v.Text where
  sound := by
    intro s rest a h
    unfold read at h
    split at h
    · cases h
    rename_i b t hskip
    obtain ⟨ws, hws, rfl⟩ := exists_blanks_cons hskip
    split at h
    · rename_i hb
      obtain ⟨k, name, hk, htext, ha⟩ := readName_eq_ok_iff.mp h
      exact ⟨ws, k, hws, by rw [hb, hk, List.append_assoc], .name htext ha⟩
    split at h
    · rename_i hb
      obtain ⟨ws', k, ws₁, ws₂, ws₃, name, hws', htext, ha, hws₁, hws₂, hws₃, rfl⟩ :=
        readObject_eq_ok_iff.mp h
      exact ⟨ws, _, hws, by rw [hb]; simp, .object hws' htext ha hws₁ hws₂ hws₃⟩
    · cases h
  complete := by
    intro ws t rest a hws h _
    cases h with
    | @name t name a htext ha =>
      obtain ⟨u, rfl, hname⟩ := readName_text htext ha rest
      rw [read, List.append_assoc, List.cons_append, skipBlanks_blanks_cons hws rfl]
      dsimp only
      rw [if_pos rfl]
      exact hname
    | @object ws' k ws₁ ws₂ ws₃ name a hws' htext ha hws₁ hws₂ hws₃ =>
      rw [read, List.append_assoc, List.cons_append, skipBlanks_blanks_cons hws rfl]
      dsimp only
      rw [if_neg (by decide), if_pos rfl]
      exact readObject_eq_ok_iff.mpr
        ⟨ws', k, ws₁, ws₂, ws₃, name, hws', htext, ha, hws₁, hws₂, hws₃, by simp⟩
  starts := by
    intro t a h
    cases h with
    | name htext _ =>
      obtain ⟨body, rfl, -⟩ := htext
      exact ⟨_, _, rfl, rfl⟩
    | object _ _ _ _ _ _ => exact ⟨_, _, rfl, rfl⟩

end Variants

end NatBehaviour.Json
