import Mathlib.Data.List.Forall2
import Mathlib.Data.List.Nodup
import NatBehaviour.Json.Record
import NatBehaviour.Proofs.Json.SkipGrammar

/-!
The grammar of records. An object gives some of the members a value, each at most once, in any order and
among members that are passed over; a list gives values to the first members in their own order.
-/

namespace NatBehaviour.Json

variable {α β γ : Type}

/-! ## Items with commas between them -/

/-- Items, one at least, with blanks around each and commas between them. -/
inductive Separated (P : Bytes → β → Prop) : Bytes → List β → Prop
  | last {ws t ws' : Bytes} {e : β} (hws : Blanks ws) (h : P t e) (hws' : Blanks ws') :
      Separated P (ws ++ (t ++ ws')) [e]
  | more {ws t ws' u : Bytes} {e : β} {es : List β} (hws : Blanks ws) (h : P t e)
      (hws' : Blanks ws') (rest : Separated P u es) :
      Separated P (ws ++ (t ++ (ws' ++ code ',' :: u))) (e :: es)

/-- Any number of items. -/
def Listed (P : Bytes → β → Prop) (t : Bytes) (es : List β) : Prop :=
  (Blanks t ∧ es = []) ∨ Separated P t es

/-- What may follow an item: a comma and more items, or nothing more. -/
def Onward (P : Bytes → β → Prop) (t : Bytes) (es : List β) : Prop :=
  (Blanks t ∧ es = []) ∨ ∃ ws u, Blanks ws ∧ t = ws ++ code ',' :: u ∧ Separated P u es

section

variable {P : Bytes → β → Prop} {Q : Bytes → γ → Prop} {ws t u : Bytes} {e : β} {es : List β}

theorem Onward.separated (h : Onward P u es) (hws : Blanks ws) (ht : P t e) :
    Separated P (ws ++ (t ++ u)) (e :: es) := by
  rcases h with ⟨hu, rfl⟩ | ⟨ws', u, hws', rfl, h⟩
  · exact .last hws ht hu
  · exact .more hws ht hws' h

/-- Where an item ends, a comma follows or whatever follows all items. -/
theorem Onward.ends {s : Bytes} (h : Onward P u es) (hs : Ends s) : Ends (u ++ s) := by
  rcases h with ⟨hu, -⟩ | ⟨ws, u, hws, rfl, -⟩
  · exact hu.ends hs
  · rw [List.append_assoc]
    exact hws.ends (ends_cons rfl _)

theorem Separated.first (h : Separated P t es) :
    ∃ ws v u e es', t = ws ++ (v ++ u) ∧ es = e :: es' ∧ Blanks ws ∧ P v e ∧ Onward P u es' := by
  cases h with
  | last hws h hws' => exact ⟨_, _, _, _, _, rfl, rfl, hws, h, .inl ⟨hws', rfl⟩⟩
  | more hws h hws' rest => exact ⟨_, _, _, _, _, rfl, rfl, hws, h, .inr ⟨_, _, hws', rfl, rest⟩⟩

/-- Blanks in front make no difference. -/
theorem Separated.blanks (h : Separated P t es) (hws : Blanks ws) : Separated P (ws ++ t) es := by
  obtain ⟨ws', v, u, e, es', rfl, rfl, hws', hv, honward⟩ := h.first
  have h := honward.separated (hws.append hws') hv
  rwa [List.append_assoc] at h

/-- Behind the blanks stands the first item. -/
theorem Separated.skipBlanks (h : Separated P t (e :: es)) (he : ∀ v, P v e → Starts v) (s : Bytes) :
    ∃ b u, Json.skipBlanks (t ++ s) = b :: u ++ s ∧ isSeparator b = false ∧
      Separated P (b :: u) (e :: es) := by
  obtain ⟨ws, v, u, e', es', rfl, hes, hws, hv, honward⟩ := h.first
  cases hes
  have hskip := (he v hv).skipBlanks hws (u ++ s)
  obtain ⟨b, v', rfl, hb⟩ := he v hv
  refine ⟨b, v' ++ u, ?_, hb, honward.separated .nil hv⟩
  have hshape : ws ++ (b :: v' ++ u) ++ s = ws ++ (b :: v' ++ (u ++ s)) := by simp
  rw [hshape, hskip]
  simp

/-- Items that can be described in another way, each for itself. -/
theorem Separated.exists_forall₂ {R : β → γ → Prop} (h : Separated P t es)
    (hPQ : ∀ {t e}, P t e → ∃ c, Q t c ∧ R e c) : ∃ cs, Separated Q t cs ∧ List.Forall₂ R es cs := by
  induction h with
  | last hws h hws' =>
    obtain ⟨c, hc, hR⟩ := hPQ h
    exact ⟨[c], .last hws hc hws', .cons hR .nil⟩
  | more hws h hws' _ ih =>
    obtain ⟨c, hc, hR⟩ := hPQ h
    obtain ⟨cs, hcs, hRs⟩ := ih
    exact ⟨c :: cs, .more hws hc hws' hcs, .cons hR hRs⟩

/-- Items with another description of each at hand. -/
theorem Separated.of_forall₂ {R : β → γ → Prop} {cs : List γ} (h : Separated P t es)
    (hR : List.Forall₂ R es cs) (hPQ : ∀ {t e c}, P t e → R e c → Q t c) : Separated Q t cs := by
  induction h generalizing cs with
  | last hws h hws' =>
    cases hR with
    | cons hR hRs =>
      cases hRs
      exact .last hws (hPQ h hR) hws'
  | more hws h hws' _ ih =>
    cases hR with
    | cons hR hRs => exact .more hws (hPQ h hR) hws' (ih hRs)

theorem Listed.exists_forall₂ {R : β → γ → Prop} (h : Listed P t es)
    (hPQ : ∀ {t e}, P t e → ∃ c, Q t c ∧ R e c) : ∃ cs, Listed Q t cs ∧ List.Forall₂ R es cs := by
  rcases h with ⟨ht, rfl⟩ | h
  · exact ⟨[], .inl ⟨ht, rfl⟩, .nil⟩
  · obtain ⟨cs, hcs, hR⟩ := h.exists_forall₂ hPQ
    exact ⟨cs, .inr hcs, hR⟩

/-- What holds of every item that may be listed. -/
theorem Listed.forall {p : β → Prop} (h : Listed P t es) (hp : ∀ {t e}, P t e → p e) : ∀ e ∈ es, p e := by
  obtain ⟨cs, -, hR⟩ := h.exists_forall₂ (R := fun e c => p e ∧ e = c) fun he => ⟨_, he, hp he, rfl⟩
  exact ((List.forall₂_and_left es cs).mp hR).1

theorem Listed.of_forall₂ {R : β → γ → Prop} {cs : List γ} (h : Listed P t es)
    (hR : List.Forall₂ R es cs) (hPQ : ∀ {t e c}, P t e → R e c → Q t c) : Listed Q t cs := by
  rcases h with ⟨ht, rfl⟩ | h
  · cases hR
    exact .inl ⟨ht, rfl⟩
  · exact .inr (h.of_forall₂ hR hPQ)

/-- The same items under another description. -/
theorem listed_map_iff {f : γ → β} (hPQ : ∀ t e, P t e ↔ ∃ c, Q t c ∧ f c = e) :
    Listed P t es ↔ ∃ cs, Listed Q t cs ∧ cs.map f = es := by
  constructor
  · intro h
    obtain ⟨cs, hcs, hR⟩ := h.exists_forall₂ fun hP => (hPQ _ _).mp hP
    have heq := List.forall₂_map_right_iff.mpr (hR.imp fun e c hc => hc.symm)
    rw [List.forall₂_eq_eq_eq] at heq
    exact ⟨cs, hcs, heq.symm⟩
  · rintro ⟨cs, h, rfl⟩
    have hR : List.Forall₂ (fun c e => f c = e) cs (cs.map f) :=
      List.forall₂_map_right_iff.mpr (List.forall₂_same.mpr fun _ _ => rfl)
    exact h.of_forall₂ hR fun hQ hc => (hPQ _ _).mpr ⟨_, hQ, hc⟩

end

/-! ## Members -/

/-- A member that has been given a value, and what the value does to the record. -/
structure Given (α : Type) where
  member : Member α
  put : α → α

/-- What the values of some members make of a record. -/
def putAll (gs : List (Given α)) (value : α) : α := gs.foldl (fun value g => g.put value) value

/-- Which bytes are a value of a member, and what the value does. -/
def Values (α : Type) : Type := Member α → Bytes → (α → α) → Prop

def Values.Gives (V : Values α) (t : Bytes) (g : Given α) : Prop := V g.member t g.put

/-- A key and a value. -/
inductive PairText (V : String → Bytes → β → Prop) : Bytes → β → Prop
  | intro {key : String} {k ws ws' v : Bytes} {b : β} (hkey : TextOf k key) (hws : Blanks ws)
      (hws' : Blanks ws') (hv : V key v b) :
      PairText V (k ++ (ws ++ code ':' :: (ws' ++ v))) b

/-- The value of a known member, or one that is passed over. -/
inductive KeyedText (r : Record α) (V : Values α) (key : String) : Bytes → Option (Given α) → Prop
  | known {m : Member α} {v : Bytes} {put : α → α} (hm : r.memberNamed? key = some m)
      (hv : V m v put) : KeyedText r V key v (some ⟨m, put⟩)
  | unknown {v : Bytes} (hm : r.memberNamed? key = none) (hv : Skippable v) : KeyedText r V key v none

/-- The members that a list of them is about: those that are known. -/
def names (es : List (Option (Given α))) : List String := (es.filterMap id).map (·.member.name)

theorem names_none (es : List (Option (Given α))) : names (none :: es) = names es := rfl

theorem names_some (g : Given α) (es : List (Option (Given α))) :
    names (some g :: es) = g.member.name :: names es := rfl

/-- The values of the first of some members, and what they make of a record. -/
structure Record.Fills (r : Record α) (ms : List (Member α)) (value : α) (gs : List (Given α)) (a : α) :
    Prop where
  members : gs.map (·.member) <+: ms
  enough : r.complete = true ∨ gs.length = ms.length
  result : a = putAll gs value

/-- A record as it is written. -/
inductive RecordText (r : Record α) (V : Values α) : Bytes → α → Prop
  | object {t : Bytes} {es : List (Option (Given α))} (h : Listed (PairText (KeyedText r V)) t es)
      (hdistinct : (names es).Nodup)
      (hall : r.complete = true ∨ ∀ m ∈ r.members, m.optional = false → m.name ∈ names es) :
      RecordText r V (code '{' :: (t ++ [code '}'])) (putAll (es.filterMap id) r.initial)
  | list {t : Bytes} {gs : List (Given α)} {a : α} (h : Listed V.Gives t gs)
      (hfills : r.Fills r.members r.initial gs a) : RecordText r V (code '[' :: (t ++ [code ']'])) a

/-! ## Objects -/

namespace Draft

/-- A draft with one more member, if that is known. -/
def add (draft : Draft α) : Option (Given α) → Draft α
  | none => draft
  | some g => ⟨g.member.name :: draft.seen, g.put draft.value⟩

theorem seen_foldl_add (draft : Draft α) (es : List (Option (Given α))) :
    (es.foldl add draft).seen = (names es).reverse ++ draft.seen := by
  induction es generalizing draft with
  | nil => rfl
  | cons e es ih =>
    rw [List.foldl_cons, ih]
    cases e with
    | none => rw [names_none, add]
    | some g => simp [names_some, add]

theorem value_foldl_add (draft : Draft α) (es : List (Option (Given α))) :
    (es.foldl add draft).value = putAll (es.filterMap id) draft.value := by
  induction es generalizing draft with
  | nil => rfl
  | cons e es ih =>
    rw [List.foldl_cons, ih]
    cases e <;> rfl

end Draft

namespace Record

variable {r : Record α} {V : Values α} {draft draft' : Draft α} {key : String}
  {s rest v ws ws' : Bytes} {e : Option (Given α)}

theorem keyed_of_readMember (hV : ∀ m ∈ r.members, Reads m.read (V m))
    (h : r.readMember draft key s = .ok (draft', rest)) :
    ∃ ws ws' v e, Blanks ws ∧ Blanks ws' ∧ s = ws ++ code ':' :: (ws' ++ (v ++ rest)) ∧
      KeyedText r V key v e ∧ draft' = draft.add e ∧
        (draft.seen.Nodup → draft'.seen.Nodup) := by
  unfold readMember at h
  split at h
  · rename_i hm
    split at h
    · cases h
    rename_i s' hcolon
    obtain ⟨ws, hws, rfl⟩ := skipColon_eq_ok_iff.mp hcolon
    cases hskip : skipValue s' with
    | error cause =>
      rw [hskip] at h
      cases h
    | ok rest' =>
      rw [hskip] at h
      cases h
      obtain ⟨ws', v, hws', rfl, hv⟩ := skippable_of_skipValue hskip
      exact ⟨ws, ws', v, none, hws, hws', by simp, .unknown hm hv, rfl, fun hseen => hseen⟩
  · rename_i m hm
    split at h
    · cases h
    rename_i hseen
    split at h
    · cases h
    rename_i s' hcolon
    obtain ⟨ws, hws, rfl⟩ := skipColon_eq_ok_iff.mp hcolon
    split at h
    · cases h
    rename_i put s'' hread
    cases h
    obtain ⟨ws', v, hws', rfl, hv⟩ := (hV m (List.mem_of_find?_eq_some hm)).sound hread
    refine ⟨ws, ws', v, some ⟨m, put⟩, hws, hws', by simp, .known hm hv, rfl, ?_⟩
    exact fun hnodup => List.nodup_cons.mpr ⟨by simpa using hseen, hnodup⟩

theorem readMember_keyed (hV : ∀ m ∈ r.members, Reads m.read (V m)) (hv : KeyedText r V key v e)
    (hws : Blanks ws) (hws' : Blanks ws') (hrest : Ends rest) (hfresh : (draft.add e).seen.Nodup) :
    r.readMember draft key (ws ++ code ':' :: (ws' ++ (v ++ rest))) = .ok (draft.add e, rest) := by
  have hcolon : skipColon (ws ++ code ':' :: (ws' ++ (v ++ rest))) = .ok (ws' ++ (v ++ rest)) :=
    skipColon_eq_ok_iff.mpr ⟨ws, hws, rfl⟩
  cases hv with
  | unknown hm hv =>
    have hskip := hv.skipValue hws' hrest
    rw [List.append_assoc] at hskip
    simp only [readMember, hm, hcolon, hskip]
    rfl
  | @known m v put hm hv =>
    have hread := (hV m (List.mem_of_find?_eq_some hm)).complete hws' hv hrest
    rw [List.append_assoc] at hread
    have hseen : ¬ draft.seen.contains m.name = true := by
      simpa using (List.nodup_cons.mp hfresh).1
    simp only [readMember, hm, hcolon, hread, if_neg hseen]
    rfl

theorem afterMember_eq_done_iff :
    afterMember draft s = .ok (.done draft' rest) ↔
      draft' = draft ∧ ∃ ws, Blanks ws ∧ s = ws ++ code '}' :: rest := by
  constructor
  · intro h
    unfold afterMember at h
    split at h
    · cases h
    rename_i b t hskip
    obtain ⟨ws, hws, rfl⟩ := exists_blanks_cons hskip
    split at h
    · rename_i hb
      cases h
      exact ⟨rfl, ws, hws, by rw [hb]⟩
    split at h
    · split at h
      · cases h
      split at h
      · cases h
      split at h <;> cases h
    · cases h
  · rintro ⟨rfl, ws, hws, rfl⟩
    rw [afterMember, skipBlanks_blanks_cons hws rfl]
    dsimp only
    rw [if_pos rfl]

theorem afterMember_eq_more_iff :
    afterMember draft s = .ok (.more draft' rest) ↔
      draft' = draft ∧ ∃ ws ws', Blanks ws ∧ Blanks ws' ∧
        s = ws ++ code ',' :: (ws' ++ code '"' :: rest) := by
  constructor
  · intro h
    unfold afterMember at h
    split at h
    · cases h
    rename_i b t hskip
    obtain ⟨ws, hws, rfl⟩ := exists_blanks_cons hskip
    split at h
    · cases h
    split at h
    · rename_i hb
      split at h
      · cases h
      rename_i c u hskip'
      obtain ⟨ws', hws', rfl⟩ := exists_blanks_cons hskip'
      split at h
      · rename_i hc
        cases h
        exact ⟨rfl, ws, ws', hws, hws', by rw [hb, hc]⟩
      split at h <;> cases h
    · cases h
  · rintro ⟨rfl, ws, ws', hws, hws', rfl⟩
    rw [afterMember, skipBlanks_blanks_cons hws rfl]
    dsimp only
    rw [if_neg (by decide), if_pos rfl, skipBlanks_blanks_cons hws' rfl]
    dsimp only
    rw [if_pos rfl]

/-- One turn of the loop: a pair, of which the opening quote has been taken off, and what follows. -/
theorem pair_of_memberStep (hV : ∀ m ∈ r.members, Reads m.read (V m)) {step : Step (Draft α)}
    (h : r.memberStep draft s = .ok step) :
    ∃ t e s', PairText (KeyedText r V) t e ∧ code '"' :: s = t ++ s' ∧
      afterMember (draft.add e) s' = .ok step ∧
        (draft.seen.Nodup → (draft.add e).seen.Nodup) := by
  unfold memberStep at h
  split at h
  · cases h
  rename_i key s₁ htext
  obtain ⟨body, rfl, hbody⟩ := readText_eq_ok_iff.mp htext
  split at h
  · cases h
  rename_i draft₁ s₂ hmember
  obtain ⟨ws, ws', v, e, hws, hws', rfl, hv, rfl, hnodup⟩ := keyed_of_readMember hV hmember
  exact ⟨_, e, s₂, .intro ⟨body, rfl, hbody⟩ hws hws' hv, by simp, h, hnodup⟩

theorem memberStep_pair (hV : ∀ m ∈ r.members, Reads m.read (V m)) {t : Bytes}
    (h : PairText (KeyedText r V) t e) (hrest : Ends rest) (hfresh : (draft.add e).seen.Nodup) :
    ∃ u, t = code '"' :: u ∧ r.memberStep draft (u ++ rest) = afterMember (draft.add e) rest := by
  cases h with
  | @intro key k ws ws' v _ hkey hws hws' hv =>
    obtain ⟨body, rfl, hbody⟩ := hkey
    refine ⟨body ++ [code '"'] ++ (ws ++ code ':' :: (ws' ++ v)), rfl, ?_⟩
    have htext : readText (body ++ code '"' :: (ws ++ code ':' :: (ws' ++ (v ++ rest)))) =
        .ok (key, ws ++ code ':' :: (ws' ++ (v ++ rest))) :=
      readText_eq_ok_iff.mpr ⟨body, rfl, hbody⟩
    have hshape : body ++ [code '"'] ++ (ws ++ code ':' :: (ws' ++ v)) ++ rest =
        body ++ code '"' :: (ws ++ code ':' :: (ws' ++ (v ++ rest))) := by simp
    rw [hshape, memberStep, htext]
    dsimp only
    rw [readMember_keyed hV hv hws hws' hrest hfresh]

theorem separated_of_loop (hV : ∀ m ∈ r.members, Reads m.read (V m))
    (h : loop r.memberStep draft s = .ok (draft', rest)) :
    ∃ t es, code '"' :: s = t ++ code '}' :: rest ∧ Separated (PairText (KeyedText r V)) t es ∧
      draft' = es.foldl Draft.add draft ∧ (draft.seen.Nodup → draft'.seen.Nodup) := by
  refine loop_induction (P := fun draft s draft' rest =>
    ∃ t es, code '"' :: s = t ++ code '}' :: rest ∧ Separated (PairText (KeyedText r V)) t es ∧
      draft' = es.foldl Draft.add draft ∧ (draft.seen.Nodup → draft'.seen.Nodup)) ?_ ?_ h
  · intro draft s draft' rest hstep
    obtain ⟨t, e, s', ht, hs, hafter, hnodup⟩ := pair_of_memberStep hV hstep
    obtain ⟨rfl, ws, hws, rfl⟩ := afterMember_eq_done_iff.mp hafter
    refine ⟨[] ++ (t ++ ws), [e], ?_, .last .nil ht hws, rfl, hnodup⟩
    rw [hs]
    simp
  · rintro draft s draft₁ s₁ draft' rest hstep ⟨u, es, hu, hes, rfl, hnodup₁⟩
    obtain ⟨t, e, s', ht, hs, hafter, hnodup⟩ := pair_of_memberStep hV hstep
    obtain ⟨rfl, ws, ws', hws, hws', rfl⟩ := afterMember_eq_more_iff.mp hafter
    refine ⟨[] ++ (t ++ (ws ++ code ',' :: (ws' ++ u))), e :: es, ?_,
      .more .nil ht hws (hes.blanks hws'), rfl, fun h => hnodup₁ (hnodup h)⟩
    rw [hs, hu]
    simp

/-- From behind the quote of the first key the loop takes all pairs and the brace behind them. -/
theorem memberStep_separated (hV : ∀ m ∈ r.members, Reads m.read (V m)) {t : Bytes}
    {es : List (Option (Given α))} (h : Separated (PairText (KeyedText r V)) t es) (rest : Bytes)
    (draft : Draft α) (hfresh : (es.foldl Draft.add draft).seen.Nodup) :
    ∃ ws s, Blanks ws ∧ t ++ code '}' :: rest = ws ++ code '"' :: s ∧
      ∃ draft' s', Advances r.memberStep draft s draft' s' ∧
        r.memberStep draft' s' = .ok (.done (es.foldl Draft.add draft) rest) := by
  -- That no member comes twice is known of the end of the run, and so of every turn before.
  induction h generalizing draft with
  | @last ws t ws' e hws ht hws' =>
    have hends : Ends (ws' ++ code '}' :: rest) := hws'.ends (ends_cons rfl rest)
    obtain ⟨u, rfl, hstep⟩ := memberStep_pair hV ht hends hfresh
    refine ⟨ws, u ++ (ws' ++ code '}' :: rest), hws, by simp, draft, _, .here _ _, ?_⟩
    rw [hstep]
    exact afterMember_eq_done_iff.mpr ⟨rfl, ws', hws', rfl⟩
  | @more ws t ws' u e es hws ht hws' _ ih =>
    obtain ⟨ws₁, s, hws₁, hs, draft', s', hadvances, hdone⟩ := ih (draft.add e) hfresh
    have hfirst : (draft.add e).seen.Nodup := by
      rw [List.foldl_cons, Draft.seen_foldl_add] at hfresh
      exact hfresh.of_append_right
    obtain ⟨v, rfl, hstep⟩ := memberStep_pair hV ht
      (hws'.ends (ends_cons (b := code ',') rfl (u ++ code '}' :: rest))) hfirst
    refine ⟨ws, v ++ (ws' ++ code ',' :: (u ++ code '}' :: rest)), hws, by simp, draft', s', ?_, hdone⟩
    have hafter : afterMember (draft.add e) (ws' ++ code ',' :: (u ++ code '}' :: rest)) =
        .ok (.more (draft.add e) s) :=
      afterMember_eq_more_iff.mpr ⟨rfl, ws', ws₁, hws', hws₁, by rw [hs]⟩
    refine .more (hstep.trans hafter) ?_ hadvances
    have hlength := congrArg List.length hs
    simp only [List.length_append, List.length_cons] at hlength ⊢
    omega

theorem readMembers_eq_ok_iff (hV : ∀ m ∈ r.members, Reads m.read (V m)) :
    r.readMembers s = .ok (draft, rest) ↔
      ∃ t es, s = t ++ code '}' :: rest ∧ Listed (PairText (KeyedText r V)) t es ∧ (names es).Nodup ∧
        draft = es.foldl Draft.add ⟨[], r.initial⟩ := by
  have hnames (es : List (Option (Given α))) :
      (es.foldl Draft.add ⟨[], r.initial⟩).seen.Nodup ↔ (names es).Nodup := by
    rw [Draft.seen_foldl_add, List.append_nil, List.nodup_reverse]
  constructor
  · intro h
    unfold readMembers at h
    split at h
    · cases h
    rename_i b t hskip
    obtain ⟨ws, hws, rfl⟩ := exists_blanks_cons hskip
    split at h
    · rename_i hb
      cases h
      exact ⟨ws, [], by rw [hb], .inl ⟨hws, rfl⟩, .nil, rfl⟩
    split at h
    · rename_i hb
      obtain ⟨u, es, hu, hes, rfl, hnodup⟩ := separated_of_loop hV h
      refine ⟨ws ++ u, es, ?_, .inr (hes.blanks hws), (hnames es).mp (hnodup .nil), rfl⟩
      rw [hb, hu, List.append_assoc]
    · cases h
  · rintro ⟨t, es, rfl, ⟨ht, rfl⟩ | h, hnodup, rfl⟩
    · rw [readMembers, skipBlanks_blanks_cons ht rfl]
      dsimp only
      rw [if_pos rfl]
      rfl
    · obtain ⟨ws, u, hws, hs, draft', s', hadvances, hdone⟩ :=
        memberStep_separated hV h rest ⟨[], r.initial⟩ ((hnames es).mpr hnodup)
      rw [hs, readMembers, skipBlanks_blanks_cons hws rfl]
      dsimp only
      rw [if_neg (by decide), if_pos rfl]
      exact hadvances.loop hdone

theorem missing?_eq_none_iff :
    r.missing? draft = none ↔
      r.complete = true ∨ ∀ m ∈ r.members, m.optional = false → m.name ∈ draft.seen := by
  unfold missing?
  by_cases hcomplete : r.complete = true
  · simp [hcomplete]
  · simp [hcomplete]

theorem readObject_eq_ok_iff (hV : ∀ m ∈ r.members, Reads m.read (V m)) {a : α} :
    r.readObject s = .ok (a, rest) ↔
      ∃ t es, s = t ++ code '}' :: rest ∧ Listed (PairText (KeyedText r V)) t es ∧ (names es).Nodup ∧
        (r.complete = true ∨ ∀ m ∈ r.members, m.optional = false → m.name ∈ names es) ∧
        a = putAll (es.filterMap id) r.initial := by
  have hmissing (es : List (Option (Given α))) :
      r.missing? (es.foldl Draft.add ⟨[], r.initial⟩) = none ↔
        r.complete = true ∨ ∀ m ∈ r.members, m.optional = false → m.name ∈ names es := by
    simp only [missing?_eq_none_iff, Draft.seen_foldl_add, List.append_nil, List.mem_reverse]
  constructor
  · intro h
    unfold readObject at h
    split at h
    · cases h
    rename_i draft s' hmembers
    obtain ⟨t, es, rfl, hes, hnodup, rfl⟩ := (readMembers_eq_ok_iff hV).mp hmembers
    split at h
    · cases h
    · rename_i hnone
      cases h
      exact ⟨t, es, rfl, hes, hnodup, (hmissing es).mp hnone, Draft.value_foldl_add _ es⟩
  · rintro ⟨t, es, rfl, hes, hnodup, hall, rfl⟩
    rw [readObject, (readMembers_eq_ok_iff hV).mpr ⟨t, es, rfl, hes, hnodup, rfl⟩]
    dsimp only
    rw [(hmissing es).mpr hall, Draft.value_foldl_add]

end Record

/-! ## Lists -/

/-- Before the first value there is no comma. -/
def Values.Tail (V : Values α) : Nat → Bytes → List (Given α) → Prop
  | 0 => Listed V.Gives
  | _ + 1 => Onward V.Gives

theorem Values.tail_nil_iff (V : Values α) (index : Nat) {t : Bytes} : V.Tail index t [] ↔ Blanks t := by
  cases index with
  | zero =>
    constructor
    · rintro (⟨ht, -⟩ | h)
      · exact ht
      · cases h
    · exact fun ht => .inl ⟨ht, rfl⟩
  | succ index =>
    constructor
    · rintro (⟨ht, -⟩ | ⟨_, _, -, -, h⟩)
      · exact ht
      · cases h
    · exact fun ht => .inl ⟨ht, rfl⟩

namespace Record

variable {r : Record α} {V : Values α} {s rest : Bytes} {a value : α} {m : Member α}
  {ms : List (Member α)} {index : Nat}

theorem endOfValues_eq_ok_iff :
    endOfValues value s = .ok (a, rest) ↔
      a = value ∧ ∃ ws, Blanks ws ∧ s = ws ++ code ']' :: rest := by
  constructor
  · intro h
    unfold endOfValues at h
    split at h
    · cases h
    rename_i b t hskip
    obtain ⟨ws, hws, rfl⟩ := exists_blanks_cons hskip
    split at h
    · rename_i hb
      cases h
      exact ⟨rfl, ws, hws, by rw [hb]⟩
    split at h <;> cases h
  · rintro ⟨rfl, ws, hws, rfl⟩
    rw [endOfValues, skipBlanks_blanks_cons hws rfl]
    dsimp only
    rw [if_pos rfl]

/-- The value of one member, and what follows it in a list. -/
def readNext (r : Record α) (m : Member α) (ms : List (Member α)) (index : Nat) (value : α)
    (s : Bytes) : Except Cause (α × Bytes) :=
  match m.read s with
  | .error cause => .error cause
  | .ok (put, s) => r.readValues (index + 1) (put value) ms s

theorem readValues_cons :
    r.readValues index value (m :: ms) s =
      match skipBlanks s with
      | [] => .error .endInList
      | b :: t =>
        if b = code ']' then
          if r.complete then .ok (value, t)
          else .error (.wrongLength index (r.title ++ s!" with {r.members.length} elements"))
        else if index = 0 then r.readNext m ms index value (b :: t)
        else if b = code ',' then
          if (skipBlanks t).head? = some (code ']') then .error .trailingComma
          else r.readNext m ms index value t
        else .error .expectedCommaOrBracket :=
  rfl

theorem fills_nil_iff (ms : List (Member α)) :
    r.Fills ms value [] a ↔ (r.complete = true ∨ ms = []) ∧ a = value := by
  constructor
  · rintro ⟨-, henough, rfl⟩
    refine ⟨henough.imp id ?_, rfl⟩
    intro h
    exact List.length_eq_zero_iff.mp h.symm
  · rintro ⟨h, rfl⟩
    refine ⟨List.nil_prefix, h.imp id ?_, rfl⟩
    rintro rfl
    rfl

theorem fills_cons_iff {g : Given α} {gs : List (Given α)} :
    r.Fills (m :: ms) value (g :: gs) a ↔ g.member = m ∧ r.Fills ms (g.put value) gs a := by
  constructor
  · rintro ⟨hmembers, henough, rfl⟩
    rw [List.map_cons, List.cons_prefix_cons] at hmembers
    exact ⟨hmembers.1, hmembers.2, henough.imp id Nat.succ.inj, rfl⟩
  · rintro ⟨rfl, hmembers, henough, rfl⟩
    refine ⟨?_, henough.imp id (congrArg Nat.succ), rfl⟩
    rw [List.map_cons, List.cons_prefix_cons]
    exact ⟨rfl, hmembers⟩

/-- One value, if the other values are read as they should be. -/
theorem readNext_eq_ok_iff (hm : Reads m.read (V m))
    (ih : ∀ {value : α} {s : Bytes}, r.readValues (index + 1) value ms s = .ok (a, rest) ↔
      ∃ t gs, s = t ++ code ']' :: rest ∧ Onward V.Gives t gs ∧ r.Fills ms value gs a) :
    r.readNext m ms index value s = .ok (a, rest) ↔
      ∃ t gs, s = t ++ code ']' :: rest ∧ Separated V.Gives t gs ∧ r.Fills (m :: ms) value gs a := by
  constructor
  · intro h
    unfold readNext at h
    split at h
    · cases h
    rename_i put s' hread
    obtain ⟨ws, v, hws, rfl, hv⟩ := hm.sound hread
    obtain ⟨u, gs, rfl, hgs, hfills⟩ := ih.mp h
    have hgiven : V.Gives v ⟨m, put⟩ := hv
    exact ⟨ws ++ (v ++ u), ⟨m, put⟩ :: gs, by simp, hgs.separated hws hgiven,
      fills_cons_iff.mpr ⟨rfl, hfills⟩⟩
  · rintro ⟨t, gs, rfl, hgs, hfills⟩
    obtain ⟨ws, v, u, g, gs, rfl, rfl, hws, hv, honward⟩ := hgs.first
    obtain ⟨rfl, hmore⟩ := fills_cons_iff.mp hfills
    have hends : Ends (u ++ code ']' :: rest) := honward.ends (ends_cons rfl rest)
    have hshape : ws ++ (v ++ u) ++ code ']' :: rest = ws ++ v ++ (u ++ code ']' :: rest) := by simp
    rw [hshape, readNext, hm.complete hws hv hends]
    exact ih.mpr ⟨u, gs, rfl, honward, hmore⟩

theorem readValues_eq_ok_iff (hV : ∀ m ∈ ms, Reads m.read (V m)) :
    r.readValues index value ms s = .ok (a, rest) ↔
      ∃ t gs, s = t ++ code ']' :: rest ∧ V.Tail index t gs ∧ r.Fills ms value gs a := by
  -- The induction is on the members that are left; the index only says whether a comma comes first.
  induction ms generalizing index value s with
  | nil =>
    rw [readValues, endOfValues_eq_ok_iff]
    constructor
    · rintro ⟨rfl, ws, hws, rfl⟩
      exact ⟨ws, [], rfl, (V.tail_nil_iff index).mpr hws, (fills_nil_iff []).mpr ⟨.inr rfl, rfl⟩⟩
    · rintro ⟨t, gs, rfl, ht, hfills⟩
      obtain rfl : gs = [] := by simpa using hfills.members
      exact ⟨hfills.result, t, (V.tail_nil_iff index).mp ht, rfl⟩
  | cons m ms ih =>
    have hm := hV m List.mem_cons_self
    have hms : ∀ m ∈ ms, Reads m.read (V m) := fun m hmem => hV m (List.mem_cons_of_mem _ hmem)
    have hnext (index : Nat) (value : α) (s : Bytes) :
        r.readNext m ms index value s = .ok (a, rest) ↔
          ∃ t gs, s = t ++ code ']' :: rest ∧ Separated V.Gives t gs ∧ r.Fills (m :: ms) value gs a :=
      readNext_eq_ok_iff hm fun {value s} => @ih s value (index + 1) hms
    constructor
    · intro h
      rw [readValues_cons] at h
      split at h
      · cases h
      rename_i b t hskip
      obtain ⟨ws, hws, rfl⟩ := exists_blanks_cons hskip
      split at h
      · rename_i hb
        split at h
        · rename_i hcomplete
          cases h
          exact ⟨ws, [], by rw [hb], (V.tail_nil_iff index).mpr hws,
            (fills_nil_iff _).mpr ⟨.inl hcomplete, rfl⟩⟩
        · cases h
      split at h
      · rename_i hindex
        obtain ⟨u, gs, hu, hgs, hfills⟩ := (hnext index value _).mp h
        subst hindex
        exact ⟨ws ++ u, gs, by rw [hu, List.append_assoc], .inr (hgs.blanks hws), hfills⟩
      rename_i hindex
      split at h
      · rename_i hb
        split at h
        · cases h
        obtain ⟨u, gs, rfl, hgs, hfills⟩ := (hnext index value t).mp h
        obtain ⟨k, rfl⟩ := Nat.exists_eq_succ_of_ne_zero hindex
        exact ⟨ws ++ code ',' :: u, gs, by rw [hb]; simp, .inr ⟨ws, u, hws, rfl, hgs⟩, hfills⟩
      · cases h
    · rintro ⟨t, gs, rfl, htail, hfills⟩
      rw [readValues_cons]
      cases gs with
      | nil =>
        obtain ⟨hcomplete | hms, rfl⟩ := (fills_nil_iff _).mp hfills
        · rw [skipBlanks_blanks_cons ((V.tail_nil_iff index).mp htail) rfl]
          dsimp only
          rw [if_pos rfl, if_pos hcomplete]
        · cases hms
      | cons g gs =>
        obtain ⟨rfl, -⟩ := fills_cons_iff.mp hfills
        cases index with
        | zero =>
          rcases htail with ⟨-, hnil⟩ | hgs
          · cases hnil
          obtain ⟨b, u, hskip, hb, hgs⟩ := hgs.skipBlanks (fun _ => hm.starts) (code ']' :: rest)
          have hclosing : b ≠ code ']' := by
            rintro rfl
            cases hb
          rw [hskip, List.cons_append]
          dsimp only
          rw [if_neg hclosing, if_pos rfl]
          exact (hnext 0 value _).mpr ⟨b :: u, g :: gs, rfl, hgs, hfills⟩
        | succ index =>
          rcases htail with ⟨-, hnil⟩ | ⟨ws, u, hws, rfl, hgs⟩
          · cases hnil
          obtain ⟨b, v, hskip, hb, -⟩ := hgs.skipBlanks (fun _ => hm.starts) (code ']' :: rest)
          have hclosing : (skipBlanks (u ++ code ']' :: rest)).head? ≠ some (code ']') := by
            rw [hskip]
            rintro ⟨⟩
            cases hb
          rw [List.append_assoc, List.cons_append, skipBlanks_blanks_cons hws rfl]
          dsimp only
          rw [if_neg (by decide), if_neg (Nat.succ_ne_zero index), if_pos rfl, if_neg hclosing]
          exact (hnext (index + 1) value _).mpr ⟨u, g :: gs, rfl, hgs, hfills⟩

end Record

/-! ## Records -/

/-- A record is read as it may be written, if its members are. -/
theorem reads_record {r : Record α} {V : Values α} (hV : ∀ m ∈ r.members, Reads m.read (V m)) :
    Reads r.read (RecordText r V) where
  sound := by
    intro s rest a h
    unfold Record.read at h
    split at h
    · cases h
    rename_i b t hskip
    obtain ⟨ws, hws, rfl⟩ := exists_blanks_cons hskip
    split at h
    · rename_i hb
      obtain ⟨u, es, rfl, hes, hdistinct, hall, rfl⟩ := (Record.readObject_eq_ok_iff hV).mp h
      exact ⟨ws, _, hws, by rw [hb]; simp, .object hes hdistinct hall⟩
    split at h
    · rename_i hb
      obtain ⟨u, gs, rfl, hgs, hfills⟩ := (Record.readValues_eq_ok_iff hV).mp h
      exact ⟨ws, _, hws, by rw [hb]; simp, .list hgs hfills⟩
    · unfold mismatch at h
      split at h <;> cases h
  complete := by
    rintro ws t rest a hws (⟨h, hdistinct, hall⟩ | ⟨h, hfills⟩) -
    · rename_i t es
      have hshape : ws ++ code '{' :: (t ++ [code '}']) ++ rest =
          ws ++ code '{' :: (t ++ code '}' :: rest) := by simp
      rw [hshape, Record.read, skipBlanks_blanks_cons hws rfl]
      dsimp only
      rw [if_pos rfl]
      exact (Record.readObject_eq_ok_iff hV).mpr ⟨t, es, rfl, h, hdistinct, hall, rfl⟩
    · rename_i t gs
      have hshape : ws ++ code '[' :: (t ++ [code ']']) ++ rest =
          ws ++ code '[' :: (t ++ code ']' :: rest) := by simp
      rw [hshape, Record.read, skipBlanks_blanks_cons hws rfl]
      dsimp only
      rw [if_neg (by decide), if_pos rfl]
      exact (Record.readValues_eq_ok_iff hV).mpr ⟨t, gs, rfl, h, hfills⟩
  starts := by
    rintro t a (⟨-, -, -⟩ | ⟨-, -⟩)
    · exact ⟨_, _, rfl, rfl⟩
    · exact ⟨_, _, rfl, rfl⟩

end NatBehaviour.Json
