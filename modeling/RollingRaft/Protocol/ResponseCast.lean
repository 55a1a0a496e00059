/-
# RollingRaft.Protocol.ResponseCast — a response of another type than the object it is decoded into.

`DeserializeResponse` takes the class from the text and the object from the caller. A text of another
type is refused only by accident: when its type is none of the switch, or when a required member of
the class it names is missing. Even then the two header fields have been stored already. `Untouched`
says exactly when such a text leaves the object as it was; with any other text of another type the
object is written to, or cast to a class it does not have.
-/
import RollingRaft.Protocol.StrictJson
import RollingRaft.Protocol.JsonProtocol

namespace RollingRaft.Rpc

open Lib

variable (js : JsonLibrary)

/-! ## §1 — The type of a text. -/

/-- `IntToMessageType(j["type"])`: `none` when there is no member to convert, `some none` when the
number has no name. -/
def readType (j : Json) : Option (Option RaftMessageType) :=
  match j.get? Key.type.text with
  | none => none
  | some v =>
    match v.asInt32 js.toJsonText with
    | .error _ => none
    | .ok typeId => some (intToMessageType typeId)

def textType (input : Bytes) : Option RaftMessageType :=
  match js.parse input with
  | .error _ => none
  | .ok j => (readType js j).join

section Prelude

variable {js} {β : Type} {kind : String} {decode : Json → Option RaftMessageType → β → Decoded β}
  {input : Bytes} {m : Headed β} {j : Json}

theorem deserializeMessage_untyped
    (h : ∀ j, js.parse input = .ok j → readType js j = none ∨ readType js j = some (some .invalid)) :
    ∃ status, deserializeMessage js kind decode input m = .returned status m ∧ status ≠ .ok := by
  unfold deserializeMessage
  cases hparse : js.parse input with
  | error what =>
    refine ⟨_, rfl, ?_⟩
    unfold parsingThrew
    split <;> exact fun h => by cases h
  | ok j =>
    have hj := h j hparse
    dsimp only
    unfold readType at hj
    cases hget : j.get? Key.type.text with
    | none => exact ⟨_, rfl, fun h => by cases h⟩
    | some v =>
      rw [hget] at hj
      dsimp only at hj ⊢
      cases hv : v.asInt32 js.toJsonText with
      | error what => exact ⟨_, rfl, fun h => by cases h⟩
      | ok typeId =>
        rw [hv] at hj
        have hinvalid : intToMessageType typeId = some .invalid := by simpa using hj
        dsimp only
        rw [if_pos hinvalid]
        exact ⟨_, rfl, fun h => by cases h⟩

theorem deserializeMessage_typed {t : Option RaftMessageType} (hparse : js.parse input = .ok j)
    (htype : readType js j = some t) (ht : t ≠ some .invalid) :
    deserializeMessage js kind decode input m = decodeRest js j t decode m := by
  unfold readType at htype
  unfold deserializeMessage
  rw [hparse]
  cases hget : j.get? Key.type.text with
  | none => rw [hget] at htype; cases htype
  | some v =>
    rw [hget] at htype
    dsimp only at htype ⊢
    rw [hget]
    dsimp only
    cases hv : v.asInt32 js.toJsonText with
    | error what => rw [hv] at htype; cases htype
    | ok typeId =>
      rw [hv] at htype
      cases htype
      dsimp only
      rw [if_neg ht]

end Prelude

/-! ## §2 — The body. -/

/-- The body is refused before its cast: a type outside the switch, or a required member missing. -/
def bodyRefused (j : Json) : Option RaftMessageType → Bool
  | some .requestVoteResponse => missesRequired j (voteResponseAssigns js)
  | some .appendEntriesResponse => missesRequired j (appendEntriesResponseAssigns js)
  | some .installSnapshotResponse => missesRequired j (installSnapshotResponseAssigns js)
  | some .clientResponse => missesRequired j (clientResponseAssigns js)
  | some .preVoteResponse => missesRequired j (voteResponseAssigns js)
  | some .readIndexResponse => missesRequired j (readIndexResponseAssigns js)
  | _ => true

section Classes

variable {σ ρ : Type} {j : Json} {missing : String} {assigns : List (Assign σ)} {wrap : σ → ρ}
  {whole : ρ}

theorem decodeFields_refused (object : Option σ) (h : missesRequired j assigns = true) :
    decodeFields j missing assigns object wrap whole
      = .returned (.deSerializeError (ascii missing)) whole := by
  simp only [decodeFields, decodeClass, h, if_true]

theorem decodeFields_badCast (h : missesRequired j assigns = false) :
    decodeFields j missing assigns none wrap whole = .badCast := by
  simp only [decodeFields, decodeClass, h, Bool.false_eq_true, if_false]

theorem decodeFields_returned (object : σ) :
    ∃ status r, decodeFields j missing assigns (some object) wrap whole = .returned status r := by
  rw [decodeFields, decodeClass]
  split
  · exact ⟨_, _, rfl⟩
  split <;> exact ⟨_, _, rfl⟩

end Classes

variable {js} {j : Json} {t : Option RaftMessageType}

theorem decodeResponseBody_refused (body : ResponseBody) (h : bodyRefused js j t = true) :
    ∃ status, decodeResponseBody js j t body = .returned status body ∧ status ≠ .ok := by
  unfold decodeResponseBody
  split
  case h_7 => exact ⟨_, rfl, fun h => by cases h⟩
  all_goals exact ⟨_, decodeFields_refused _ h, fun h => by cases h⟩

theorem decodeResponseBody_badCast {body : ResponseBody} (h : bodyRefused js j t = false)
    (ht : t ≠ some body.type) : decodeResponseBody js j t body = .badCast := by
  -- the cast to the class of the text is defined on objects of that type only
  have hcast : ∀ {σ : Type} {assigns : List (Assign σ)} {missing : String} {wrap : σ → ResponseBody}
      {object : Option σ}, object = none → missesRequired j assigns = false →
      decodeFields j missing assigns object wrap body = .badCast := by
    rintro σ assigns missing wrap object rfl hall
    exact decodeFields_badCast hall
  cases t with
  | none => cases h
  | some t =>
    cases t with
    | requestVoteResponse | appendEntriesResponse | installSnapshotResponse | clientResponse
    | preVoteResponse | readIndexResponse =>
      exact hcast (by cases body <;> first | rfl | exact absurd rfl ht) h
    | _ => cases h

theorem decodeResponseBody_own (js : JsonLibrary) (j : Json) (body : ResponseBody) :
    ∃ status r, decodeResponseBody js j (some body.type) body = .returned status r := by
  cases body with
  | configChange r => exact ⟨_, _, rfl⟩
  | _ => exact decodeFields_returned _

/-! ## §3 — The object. -/

/-- A text of another type that leaves the object as it was: the first id it cannot convert is
preceded by ids the object has already, or both ids are the object's own and the body is refused. -/
def Untouched (js : JsonLibrary) (j : Json) (t : Option RaftMessageType) (res : RaftResponse) :
    Prop :=
  match j.valueInt js.toJsonText Key.correlationId.text with
  | .error _ => True
  | .ok c => storedId c = res.correlationId ∧
    match j.valueInt js.toJsonText Key.groupId.text with
    | .error _ => True
    | .ok g => storedId g = res.groupId ∧ bodyRefused js j t = true

/-- The call writes fields of the object's own class only, and with a text of another type it
returns an error and leaves the object as it was. -/
def WritesOwnFields (js : JsonLibrary) (input : Bytes) (res : RaftResponse) : Prop :=
  ∃ status res', deserializeResponse js input res = .returned status res' ∧
    (textType js input ≠ some res.body.type → status ≠ .ok ∧ res' = res)

theorem decodeRest_own (js : JsonLibrary) (j : Json) (res : RaftResponse) :
    ∃ status res', decodeRest js j (some res.body.type) (decodeResponseBody js) res
      = .returned status res' := by
  unfold decodeRest
  split
  · exact ⟨_, _, rfl⟩
  dsimp only
  split
  · exact ⟨_, _, rfl⟩
  obtain ⟨status, r, hbody⟩ := decodeResponseBody_own js j res.body
  rw [hbody]
  exact ⟨_, _, rfl⟩

theorem decodeRest_other {res : RaftResponse} (ht : t ≠ some res.body.type) :
    (∃ status, decodeRest js j t (decodeResponseBody js) res = .returned status res ∧ status ≠ .ok)
      ↔ Untouched js j t res := by
  unfold decodeRest Untouched
  cases hc : j.valueInt js.toJsonText Key.correlationId.text with
  | error what => exact ⟨fun _ => trivial, fun _ => ⟨_, rfl, fun h => by cases h⟩⟩
  | ok c =>
    dsimp only
    cases hg : j.valueInt js.toJsonText Key.groupId.text with
    | error what =>
      rw [and_iff_left trivial]
      constructor
      · rintro ⟨status, h, -⟩
        exact congrArg Headed.correlationId (Decoded.returned.inj h).2
      · intro h
        exact ⟨_, by rw [h], fun h => by cases h⟩
    | ok g =>
      dsimp only
      cases hrefused : bodyRefused js j t with
      | false =>
        rw [decodeResponseBody_badCast hrefused ht]
        constructor
        · rintro ⟨status, h, -⟩
          cases h
        · rintro ⟨-, -, h⟩
          cases h
      | true =>
        obtain ⟨status, hbody, hstatus⟩ := decodeResponseBody_refused res.body hrefused
        rw [hbody]
        constructor
        · rintro ⟨status', h, -⟩
          have hsame := (Decoded.returned.inj h).2
          exact ⟨congrArg Headed.correlationId hsame, congrArg Headed.groupId hsame, rfl⟩
        · rintro ⟨hc, hg, -⟩
          exact ⟨status, by rw [hc, hg], hstatus⟩

/-- **When a response writes its own fields only.** The text names no type or the type of the
object, or it leaves the object untouched. -/
theorem writesOwnFields_iff (js : JsonLibrary) (input : Bytes) (res : RaftResponse) :
    WritesOwnFields js input res ↔ ∀ j t, js.parse input = .ok j → readType js j = some t →
      t = some .invalid ∨ t = some res.body.type ∨ Untouched js j t res := by
  by_cases huntyped : ∀ j, js.parse input = .ok j →
      readType js j = none ∨ readType js j = some (some .invalid)
  · -- refused before the header
    have hcall : ∃ status, deserializeResponse js input res = .returned status res ∧ status ≠ .ok :=
      deserializeMessage_untyped huntyped
    constructor
    · intro _ j t hparse htype
      rcases huntyped j hparse with h | h
      · rw [h] at htype
        cases htype
      · rw [h] at htype
        exact .inl (Option.some.inj htype).symm
    · intro _
      obtain ⟨status, hreturned, hstatus⟩ := hcall
      exact ⟨status, res, hreturned, fun _ => ⟨hstatus, rfl⟩⟩
  · push Not at huntyped
    obtain ⟨j, hparse, hsome, hvalid⟩ := huntyped
    obtain ⟨t, htype⟩ := Option.ne_none_iff_exists'.mp hsome
    have hinvalid : t ≠ some .invalid := fun h => hvalid (htype.trans (congrArg some h))
    have hcall : deserializeResponse js input res = decodeRest js j t (decodeResponseBody js) res :=
      deserializeMessage_typed hparse htype hinvalid
    have htext : textType js input = t := by
      simp only [textType, hparse, htype, Option.join_some]
    by_cases ht : t = some res.body.type
    · constructor
      · intro _ j' t' hparse' htype'
        cases hparse.symm.trans hparse'
        cases htype.symm.trans htype'
        exact .inr (.inl ht)
      · intro _
        obtain ⟨status, res', hreturned⟩ := decodeRest_own js j res
        refine ⟨status, res', ?_, fun hne => absurd (htext.trans ht) hne⟩
        rw [hcall, ht, hreturned]
    · constructor
      · rintro ⟨status, res', hreturned, hother⟩ j' t' hparse' htype'
        cases hparse.symm.trans hparse'
        cases htype.symm.trans htype'
        obtain ⟨hstatus, rfl⟩ := hother (fun h => ht (htext.symm.trans h))
        exact .inr (.inr ((decodeRest_other ht).mp ⟨status, hcall.symm.trans hreturned, hstatus⟩))
      · intro h
        have huntouched : Untouched js j t res := by
          rcases h j t hparse htype with h | h | h
          · exact absurd h hinvalid
          · exact absurd h ht
          · exact h
        obtain ⟨status, hreturned, hstatus⟩ := (decodeRest_other ht).mpr huntouched
        exact ⟨status, res, hcall.trans hreturned, fun _ => ⟨hstatus, rfl⟩⟩

/-- A client response to a vote request: the error code that the class has is cleared in an object
that has none. -/
theorem clientResponse_into_vote :
    textType strictJson (ascii "\x7b\"type\":7,\"success\":true\x7d") = some .clientResponse ∧
      deserializeResponse strictJson (ascii "\x7b\"type\":7,\"success\":true\x7d")
        ⟨0, 0, .requestVote {}⟩ = .badCast ∧
      ¬ WritesOwnFields strictJson (ascii "\x7b\"type\":7,\"success\":true\x7d")
        ⟨0, 0, .requestVote {}⟩ := by
  have hcall : deserializeResponse strictJson (ascii "\x7b\"type\":7,\"success\":true\x7d")
      ⟨0, 0, .requestVote {}⟩ = .badCast := by
    decide +kernel
  refine ⟨by decide +kernel, hcall, ?_⟩
  rintro ⟨status, res', hreturned, -⟩
  rw [hcall] at hreturned
  cases hreturned

end RollingRaft.Rpc
