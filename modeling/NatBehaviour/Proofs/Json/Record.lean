import NatBehaviour.Json.Record
import NatBehaviour.Proofs.Json.Text

/-!
Records are read back from objects on one line: each known member is read where it stands, and a comma
or the closing brace follows it.
-/

namespace NatBehaviour.Json

open NatBehaviour.Text

variable {α : Type}

/-- The bytes of a member, from behind the quote that opens its name. -/
def memberBytes (key : String) (v : Bytes) : Bytes :=
  Utf8.encode (key.toList.flatMap Value.escape) ++ code '"' :: code ':' :: v

namespace Record

variable {r : Record α} {draft : Draft α} {key : String} {m : Member α} {put : α → α} {v s : Bytes}

theorem readMember_known (hm : r.memberNamed? key = some m) (hn : m.name ∉ draft.seen)
    (hv : m.read (v ++ s) = .ok (put, s)) :
    r.readMember draft key (code ':' :: v ++ s) = .ok (⟨m.name :: draft.seen, put draft.value⟩, s) := by
  have hcolon : skipColon (code ':' :: v ++ s) = .ok (v ++ s) := rfl
  have hseen : draft.seen.contains m.name = false := by simpa using hn
  simp only [readMember, hm, hseen, hcolon, hv]
  simp

theorem memberStep_known (hm : r.memberNamed? key = some m) (hn : m.name ∉ draft.seen)
    (hv : m.read (v ++ s) = .ok (put, s)) :
    r.memberStep draft (memberBytes key v ++ s) =
      afterMember ⟨m.name :: draft.seen, put draft.value⟩ s := by
  have hkey := readText_escaped key (code ':' :: v ++ s)
  simp only [memberStep, memberBytes, List.append_assoc, List.cons_append] at hkey ⊢
  simp only [hkey]
  rw [← List.cons_append, readMember_known hm hn hv]

theorem afterMember_comma (draft : Draft α) (s : Bytes) :
    afterMember draft (code ',' :: code '"' :: s) = .ok (.more draft s) := rfl

theorem afterMember_brace (draft : Draft α) (s : Bytes) :
    afterMember draft (code '}' :: s) = .ok (.done draft s) := rfl

end Record

end NatBehaviour.Json
