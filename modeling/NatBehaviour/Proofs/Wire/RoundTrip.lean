import NatBehaviour.Proofs.Json.Record
import NatBehaviour.Proofs.Net.EndpointText
import NatBehaviour.Wire.Message

/-!
A message is read back from its datagram, as long as the datagram is not too large; a request never is,
and neither is a reply, since the texts of endpoints are short.
-/

namespace NatBehaviour.Wire

open NatBehaviour.Json
open NatBehaviour.Net (Endpoint)
open NatBehaviour.Text

/-- The digit that stands for a kind. -/
def Kind.digit (kind : Kind) : UInt8 := kind.code + Json.code '0'

theorem Kind.read_digit (kind : Kind) {c : UInt8} (hc : c = Json.code ',' ∨ c = Json.code '}')
    (s : Bytes) : Kind.read (kind.digit :: c :: s) = .ok (kind, c :: s) := by
  rcases hc with rfl | rfl <;> cases kind <;> rfl

namespace Message

theorem encode_request (kind : Kind) :
    (request kind).encode =
      code '{' :: code '"' :: memberBytes "ReqType" [kind.digit] ++ [code '}'] := by
  cases kind <;> rfl

theorem encode_observed (kind : Kind) (t : String) :
    (Message.mk kind (some t)).encode =
      code '{' :: code '"' :: memberBytes "ReqType" [kind.digit] ++
        code ',' :: code '"' :: memberBytes "Addr" (Utf8.encode (Value.quoted t)) ++ [code '}'] := by
  have hv : (Message.mk kind (some t)).value.compact =
      '{' :: Value.quoted "ReqType" ++ ':' :: kind.value.compact ++
        (',' :: Value.quoted "Addr" ++ [':'] ++ Value.quoted t ++ ['}']) := by
    simp [value, Value.compact, Value.compactMembers]
  have hkind : Utf8.encode ('{' :: Value.quoted "ReqType" ++ ':' :: kind.value.compact) =
      code '{' :: code '"' :: memberBytes "ReqType" [kind.digit] := by
    cases kind <;> rfl
  have hname : Utf8.encode (',' :: Value.quoted "Addr" ++ [':']) ++ Utf8.encode (Value.quoted t) =
      code ',' :: code '"' :: memberBytes "Addr" (Utf8.encode (Value.quoted t)) := rfl
  rw [encode, hv, Utf8.encode_append, hkind, Utf8.encode_append, Utf8.encode_append, hname]
  simp [show Utf8.encode ['}'] = [code '}'] from rfl]

/-! ## Reading a message -/

theorem memberStep_kind (kind : Kind) {c : UInt8} (hc : c = code ',' ∨ c = code '}') (s : Bytes) :
    record.memberStep ⟨[], record.initial⟩ (memberBytes "ReqType" [kind.digit] ++ c :: s) =
      Record.afterMember ⟨["ReqType"], ⟨kind, none⟩⟩ (c :: s) := by
  have hm : record.memberNamed? "ReqType" =
      some (.of "ReqType" Kind.read fun kind m => { m with kind }) := rfl
  have hread : Reader.map (fun kind (m : Message) => { m with kind }) Kind.read
      ([kind.digit] ++ c :: s) = .ok (fun m => { m with kind }, c :: s) := by
    simp [Reader.map, Kind.read_digit kind hc]
  exact Record.memberStep_known hm List.not_mem_nil hread

theorem memberStep_observed (kind : Kind) (t : String) (s : Bytes) :
    record.memberStep ⟨["ReqType"], ⟨kind, none⟩⟩
        (memberBytes "Addr" (Utf8.encode (Value.quoted t)) ++ s) =
      Record.afterMember ⟨["Addr", "ReqType"], ⟨kind, some t⟩⟩ s := by
  have hm : record.memberNamed? "Addr" =
      some { Member.of "Addr" (readOptional readString) fun observed m => { m with observed } with
        aliases := ["addr"] } := rfl
  have hread : Reader.map (fun observed (m : Message) => { m with observed })
      (readOptional readString) (Utf8.encode (Value.quoted t) ++ s) =
      .ok (fun m => { m with observed := some t }, s) := by
    have h := readString_quoted t s
    rw [encode_quoted, List.append_assoc, List.cons_append] at h ⊢
    have hskip (r : Bytes) : skipBlanks (code '"' :: r) = code '"' :: r := rfl
    simp only [Reader.map, readOptional, hskip, show code '"' ≠ code 'n' by decide, if_false, h]
  have hnew : "Addr" ∉ ["ReqType"] := by decide
  exact Record.memberStep_known hm hnew hread

theorem read_of_members {s : Bytes} {draft : Draft Message}
    (h : loop record.memberStep ⟨[], record.initial⟩ s = .ok (draft, [])) :
    readAll record.read (code '{' :: code '"' :: s) = .ok draft.value := by
  have hskip (r : Bytes) : skipBlanks (code '"' :: r) = code '"' :: r := rfl
  have hbrace (r : Bytes) : skipBlanks (code '{' :: r) = code '{' :: r := rfl
  have hobject : record.read (code '{' :: code '"' :: s) = .ok (draft.value, []) := by
    simp only [Record.read, hbrace, if_true, Record.readObject, Record.readMembers, hskip,
      show code '"' ≠ code '}' by decide, if_false, h]
    rfl
  simp only [readAll, hobject]
  rfl

theorem readAll_encode (m : Message) : readAll record.read m.encode = .ok m := by
  obtain ⟨kind, observed⟩ := m
  cases observed with
  | none =>
    have hdone : record.memberStep ⟨[], record.initial⟩ (memberBytes "ReqType" [kind.digit] ++ [code '}']) =
        .ok (.done ⟨["ReqType"], ⟨kind, none⟩⟩ []) := by
      rw [memberStep_kind kind (.inr rfl), Record.afterMember_brace]
    rw [show Message.mk kind none = request kind from rfl, encode_request]
    exact read_of_members ((Advances.here _ _).loop hdone)
  | some t =>
    have hmore (s : Bytes) : record.memberStep ⟨[], record.initial⟩
        (memberBytes "ReqType" [kind.digit] ++ code ',' :: code '"' :: s) =
        .ok (.more ⟨["ReqType"], ⟨kind, none⟩⟩ s) := by
      rw [memberStep_kind kind (.inl rfl), Record.afterMember_comma]
    have hdone : record.memberStep ⟨["ReqType"], ⟨kind, none⟩⟩
        (memberBytes "Addr" (Utf8.encode (Value.quoted t)) ++ [code '}']) =
        .ok (.done ⟨["Addr", "ReqType"], ⟨kind, some t⟩⟩ []) := by
      rw [memberStep_observed, Record.afterMember_brace]
    rw [encode_observed]
    simp only [List.append_assoc, List.cons_append]
    exact read_of_members ((Advances.one (hmore _) (by simp; omega)).loop hdone)

/-- A message is read back from its bytes if they fit into a datagram. -/
theorem decode_encode {m : Message} (h : m.encode.length ≤ maxDatagram) :
    decode m.encode = .ok m := by
  rw [decode, if_neg (by omega), readAll_encode]

/-- A message of any length is read back from its bytes, or refused for their number. The bound is exact:
the last byte that fits is the 1024th. -/
theorem decode_encode_or_tooLarge (m : Message) :
    decode m.encode =
      if m.encode.length ≤ 1024 then .ok m else .error (.tooLarge m.encode.length) := by
  by_cases h : m.encode.length ≤ 1024
  · rw [if_pos h, decode_encode h]
  · have hlarge : maxDatagram < m.encode.length := Nat.lt_of_not_le h
    rw [if_neg h, decode, if_pos hlarge]

/-- The buffer of a receiver does not change which datagrams decode, nor to what: only datagrams that are
too large are cut, and what is left of them is too large. -/
theorem decode_received_eq_ok_iff {datagram : Bytes} {m : Message} :
    decode (received datagram) = .ok m ↔ decode datagram = .ok m := by
  by_cases h : datagram.length ≤ maxDatagram + 1
  · rw [received, List.take_of_length_le h]
  · have hcut : maxDatagram < (received datagram).length := by
      rw [received, List.length_take]
      omega
    rw [decode, if_pos hcut, decode, if_pos (by omega)]
    simp

/-! ## Requests and replies fit -/

theorem length_encode_request (kind : Kind) : (request kind).encode.length = 13 := by
  cases kind <;> rfl

theorem length_encode_reply_le (kind : Kind) (source : Endpoint) :
    (reply kind source).encode.length ≤ 400 := by
  have htext := length_encode_escaped_le source.chars
  have hchars := source.length_chars_le
  have hkind : (memberBytes "ReqType" [kind.digit]).length = 10 := rfl
  have hname (v : Bytes) : (memberBytes "Addr" v).length = v.length + 6 := rfl
  rw [reply, encode_observed, encode_quoted, Endpoint.text, String.toList_ofList]
  simp only [List.length_append, List.length_cons, List.length_nil, hkind, hname]
  omega

theorem received_encode {m : Message} (h : m.encode.length ≤ maxDatagram) :
    received m.encode = m.encode := by
  rw [received, List.take_of_length_le (by omega)]

/-- A responder reads every request as it was sent. -/
theorem decode_request (kind : Kind) : decode (received (request kind).encode) = .ok (request kind) := by
  have h : (request kind).encode.length ≤ maxDatagram := by
    rw [length_encode_request]
    decide
  rw [received_encode h, decode_encode h]

/-- A client reads every reply as it was sent. -/
theorem decode_reply (kind : Kind) (source : Endpoint) :
    decode (received (reply kind source).encode) = .ok (reply kind source) := by
  have h : (reply kind source).encode.length ≤ maxDatagram :=
    Nat.le_trans (length_encode_reply_le kind source) (by decide)
  rw [received_encode h, decode_encode h]

end Message

end NatBehaviour.Wire
