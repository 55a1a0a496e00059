/-
# RollingRaft.Protocol.CorrelationScan — the correlation id found by a text search.

A connection does not parse a response to learn which request it answers. `ExtractCallbackLocked`
searches the text for the quoted name `"correlation_id"`, goes to the next colon and reads a number
there. A string of the message may hold that very text. It is never found first: an object is printed
in the order of its keys, and the only member of a response before the id is `conflict_index`, a
number. So nothing is asked of the way strings are escaped.
-/
import RollingRaft.Protocol.RoundTrip

namespace RollingRaft

open Lib

def quoted (name : Bytes) : Bytes := 34 :: (name ++ [34])

/-- `dump` of an object: the members in the order of their keys, each the quoted key, a colon and the
value, with commas between them. A key without control bytes, quotes and backslashes is printed as it
is, and a number by its digits. -/
structure JsonText.PrintsMembers (js : JsonText) : Prop where
  brace : ∀ {members text}, js.dump (.object members) = .ok text → ∃ rest, text = 123 :: rest
  number : ∀ n, js.dump (.unsigned n) = .ok (decimal (n + 1) n)
  member : ∀ {key v fields text}, Json.Ordered ((key, v) :: fields) →
    (∀ b ∈ key, 32 ≤ b ∧ b ≠ 34 ∧ b ≠ 92 ∧ b < 128) →
    js.dump (.object ((key, v) :: fields)) = .ok (123 :: text) →
      ∃ value after, js.dump v = .ok value ∧ text = quoted key ++ 58 :: (value ++ after) ∧
        (fields = [] ∧ after = [125] ∨
          ∃ rest, js.dump (.object fields) = .ok (123 :: rest) ∧ after = 44 :: rest)

namespace Rpc

/-! ## §1 — The scan. -/

/-- `"correlation_id"`, with its quotes. -/
def quotedName : Bytes := quoted (ascii "correlation_id")

/-- What `ExtractCallbackLocked` finds in a text; an exception of `stoull` leaves 0. -/
def scanCorrelationId (responseData : Bytes) : Nat :=
  match find quotedName responseData with
  | none => 0
  | some pos =>
    match findFrom [58] responseData (pos + 16) with
    | none => 0
    | some colonPos => (stoull (substrFrom responseData (colonPos + 1))).getD 0

/-- `ExtractCallbackLocked` over the pending callbacks: the one taken out, and those that stay. -/
def extractCallbackLocked {α : Type} (responseData : Bytes) (pending : List (Nat × α)) :
    Option α × List (Nat × α) :=
  let id := scanCorrelationId responseData
  if id = 0 then (none, pending) else (pending.lookup id, pending.filter (·.1 ≠ id))

variable {js : JsonText} {lead rest text : Bytes} {id : UInt64} {body : ResponseBody}
  {fields : List (Key × Json)} {members : List (Bytes × Json)} {f : Bytes × Json}

/-- The name does not begin in `lead`, whatever follows. -/
def Passes (lead : Bytes) : Prop :=
  ∀ rest, find quotedName (lead ++ rest) = (find quotedName rest).map (· + lead.length)

theorem passes_of_notMem (h : 34 ∉ lead) : Passes lead := find_append_of_not_mem h _

theorem Passes.append (h : Passes lead) (h' : Passes rest) : Passes (lead ++ rest) := by
  intro tail
  rw [List.append_assoc, h, h', Option.map_map, List.length_append, Nat.add_comm]
  simp only [Function.comp_def, Nat.add_assoc]

theorem scanCorrelationId_of_passes (h : Passes lead) (id : UInt64)
    (hrest : ∀ b ∈ rest.head?, isDigit b = false) :
    scanCorrelationId (lead ++ (quotedName ++ 58 :: (decimal (id.toNat + 1) id.toNat ++ rest)))
      = id.toNat := by
  have hlength : quotedName.length = 16 := by
    decide +kernel
  have hfind : ∀ tail, find quotedName (lead ++ (quotedName ++ tail)) = some (0 + lead.length) := by
    intro tail
    rw [h, show quotedName = 34 :: quotedName.tail by decide +kernel, List.cons_append, find, if_pos]
    · rfl
    · exact List.isPrefixOf_iff_prefix.mpr (List.prefix_append _ tail)
  have hdrop : ∀ tail, (lead ++ (quotedName ++ tail)).drop (0 + lead.length + 16) = tail := by
    intro tail
    rw [Nat.zero_add, List.drop_length_add_append, ← hlength, List.drop_left]
  have hcolon : ∀ tail, findFrom [58] (lead ++ (quotedName ++ 58 :: tail)) (0 + lead.length + 16)
      = some (0 + (0 + lead.length + 16)) := by
    intro tail
    rw [findFrom, hdrop, if_pos (by simp [hlength])]
    simp [find]
  rw [scanCorrelationId, hfind]
  dsimp only
  rw [hcolon]
  dsimp only
  rw [substrFrom, Nat.zero_add, ← List.drop_drop, hdrop, List.drop_one, List.tail_cons,
    stoull_decimal id.toNat_lt hrest, Option.getD_some]

/-! ## §2 — The members of a response. -/

/-- The member `f` is the id, comes after it, or is the number that comes before it. -/
def MemberOfResponse (id : UInt64) (f : Bytes × Json) : Prop :=
  f = (Key.correlationId.text, .ofUInt64 id) ∨ Key.correlationId.text < f.1 ∨
    f.1 = Key.conflictIndex.text ∧ ∃ n, f.2 = .unsigned n

/-- The keys that are not printed after the id. -/
def Key.early : List Key := [correlationId, conflictIndex, candidateId, checksum, clientId, command]

theorem Key.correlationId_lt {k : Key} (h : k ∉ early) : correlationId.text < k.text := by
  have hall : ∀ k ∈ all, k ∈ early ∨ correlationId.text < k.text := by
    decide +kernel
  exact (hall k k.mem_all).resolve_left h

theorem memberOfResponse_of_mem (h : responseFields body = some fields) :
    ∀ f ∈ fields, MemberOfResponse id (f.1.text, f.2) := by
  have hcases : ∀ f ∈ fields, f.1 ∉ Key.early ∨ f.1 = .conflictIndex ∧ ∃ n, f.2 = .unsigned n := by
    cases body with
    | configChange => cases h
    | client r =>
      cases h
      rw [errorCodeField]
      split <;> simp [Key.early, typeField]
    | _ =>
      cases h
      simp [Key.early, typeField, voteResponseFields, Json.ofUInt32]
  intro f hf
  rcases hcases f hf with hlate | ⟨hkey, hn⟩
  · exact .inr (.inl (Key.correlationId_lt hlate))
  · exact .inr (.inr ⟨congrArg Key.text hkey, hn⟩)

/-- The `conflict_index` is passed: the names differ in their third letter. -/
theorem passes_conflictIndex (n : Nat) :
    Passes (quoted Key.conflictIndex.text ++ [58] ++ (decimal (n + 1) n ++ [44])) := by
  refine Passes.append (fun rest => ?_) (passes_of_notMem ?_)
  · rw [show quotedName = 34 :: 99 :: 111 :: 114 :: quotedName.drop 4 by decide +kernel,
      show quoted Key.conflictIndex.text ++ [58]
        = [34, 99, 111, 110, 102, 108, 105, 99, 116, 95, 105, 110, 100, 101, 120, 34, 58]
        by decide +kernel]
    simp [find, List.isPrefixOf]
  · have hdigits : 34 ∉ decimal (n + 1) n := fun h => absurd (isDigit_of_mem_decimal h) (by decide)
    simp [hdigits]

/-- **Over the members**: the number before the id is passed, and the id is read. -/
theorem scanCorrelationId_members (hjs : js.PrintsMembers) : ∀ {members lead text}, Passes lead →
    Json.Ordered members → (∀ f ∈ members, MemberOfResponse id f) →
    (Key.correlationId.text, Json.ofUInt64 id) ∈ members →
    js.dump (.object members) = .ok (123 :: text) → scanCorrelationId (lead ++ text) = id.toNat
  | f :: members, lead, text, hlead, hordered, hall, hmem, htext => by
    have hplain : ∀ k ∈ [Key.correlationId, .conflictIndex], ∀ b ∈ k.text,
        32 ≤ b ∧ b ≠ 34 ∧ b ≠ 92 ∧ b < 128 := by
      decide +kernel
    rcases hall f List.mem_cons_self with rfl | hlt | ⟨hkey, n, hn⟩
    · obtain ⟨value, after, hvalue, rfl, hafter⟩ := hjs.member hordered (hplain _ (by simp)) htext
      cases (hjs.number _).symm.trans hvalue
      apply scanCorrelationId_of_passes hlead
      rcases hafter with ⟨-, rfl⟩ | ⟨rest, -, rfl⟩ <;> simp [isDigit]
    · rcases List.mem_cons.mp hmem with rfl | hmem
      · exact absurd hlt (List.lt_irrefl _)
      · exact absurd (List.lt_trans hlt (List.rel_of_pairwise_cons hordered hmem)) (List.lt_irrefl _)
    · obtain ⟨key, v⟩ := f
      cases hkey
      cases hn
      obtain ⟨value, after, hvalue, rfl, hafter⟩ := hjs.member hordered (hplain _ (by simp)) htext
      cases (hjs.number _).symm.trans hvalue
      have hmem : (Key.correlationId.text, Json.ofUInt64 id) ∈ members := by
        rcases List.mem_cons.mp hmem with heq | hmem
        · exact absurd (Key.text_inj.mp (congrArg Prod.fst heq)) (by decide)
        · exact hmem
      rcases hafter with ⟨rfl, -⟩ | ⟨rest, hrest, rfl⟩
      · cases hmem
      have ih := scanCorrelationId_members hjs (hlead.append (passes_conflictIndex n))
        hordered.of_cons (fun f hf => hall f (List.mem_cons_of_mem _ hf)) hmem hrest
      simpa [Key.text] using ih

theorem mem_of_lookup {α β : Type} [BEq α] [LawfulBEq α] {pairs : List (α × β)} {a : α} {b : β}
    (h : pairs.lookup a = some b) : (a, b) ∈ pairs := by
  obtain ⟨before, after, rfl, -⟩ := List.lookup_eq_some_iff.mp h
  exact List.mem_append_right before List.mem_cons_self

/-- **The scan finds the id of the message.** Whatever the strings of a response hold, the number
found in its text is its `correlation_id_`, and no callback but the one pending under that id gets
the response. -/
theorem scan_finds_correlationId (js : JsonText) (hjs : js.PrintsMembers) (res : RaftResponse)
    (text : Bytes) (h : serializeResponse js res = .ok text) :
    scanCorrelationId text = res.correlationId.toNat ∧
      ∀ {α : Type} (pending : List (Nat × α)) (cb : α),
        (extractCallbackLocked text pending).1 = some cb →
          (res.correlationId.toNat, cb) ∈ pending := by
  have hscan : scanCorrelationId text = res.correlationId.toNat := by
    unfold serializeResponse serializeMessage at h
    cases hfields : responseFields res.body with
    | none => simp [hfields] at h
    | some fields =>
      simp only [hfields] at h
      split at h
      case h_2 => cases h
      rename_i htext
      cases h
      obtain ⟨rest, rfl⟩ := hjs.brace htext
      refine scanCorrelationId_members hjs (passes_of_notMem (show 34 ∉ [123] by decide))
        (Json.ordered_ofFields _ [] .nil) ?_ ?_ htext
      · intro f hf
        obtain ⟨g, hg, rfl⟩ := List.mem_map.mp ((Json.mem_ofFields hf).resolve_right List.not_mem_nil)
        simp only [List.mem_cons] at hg
        rcases hg with rfl | rfl | hg
        · exact .inl rfl
        · exact .inr (.inl (Key.correlationId_lt (k := .groupId) (by decide)))
        · exact memberOfResponse_of_mem hfields g hg
      · have hheader := (hasHeader_response res.correlationId res.groupId hfields).correlationId
        exact mem_of_lookup hheader
  refine ⟨hscan, fun pending cb hcb => ?_⟩
  unfold extractCallbackLocked at hcb
  rw [hscan] at hcb
  dsimp only at hcb
  split at hcb
  · cases hcb
  · exact mem_of_lookup hcb

theorem strictJson_printsMembers : strictJson.PrintsMembers := by
  refine ⟨fun {members text} h => ?_, fun n => ?_, fun {key v fields text} _ hkey h => ?_⟩
  · obtain ⟨-, rfl⟩ := strictJson_dump.mp h
    cases members <;> exact ⟨_, rfl⟩
  · refine strictJson_dump.mpr ⟨rfl, ?_⟩
    rw [printJson, numberText, if_neg (Int.natCast_nonneg n).not_gt, Int.natAbs_natCast]
  · obtain ⟨hvalid, htext⟩ := strictJson_dump.mp h
    have hquoted : stringText key = quoted key := by
      have hplain : key.flatMap escapeByte = key.flatMap fun b => [b] := List.flatMap_congr
        fun b hb => if_neg (by simp [hkey b hb])
      rw [stringText, hplain, List.flatMap_singleton', List.cons_append, quoted]
    simp only [Json.textsValid, Json.fieldsValid, Bool.and_eq_true] at hvalid
    refine ⟨printJson v, printMembers fields, strictJson_dump.mpr ⟨hvalid.1.2, rfl⟩, ?_, ?_⟩
    · simpa [printJson, hquoted, eq_comm] using htext
    cases fields with
    | nil => exact .inl ⟨rfl, rfl⟩
    | cons f fields => exact .inr ⟨_, strictJson_dump.mpr ⟨hvalid.2, rfl⟩, rfl⟩

/-- A response whose text holds the name and another number. -/
def forgedAnswer : RaftResponse :=
  ⟨7, 1, .client { success := true, response := ascii "\"correlation_id\":9" }⟩

theorem scan_finds_correlationId_forged :
    strictJson.PrintsMembers ∧ ∃ text, serializeResponse strictJson.toJsonText forgedAnswer = .ok text ∧
      scanCorrelationId text = 7 := by
  refine ⟨strictJson_printsMembers, ?_⟩
  have hok : (serializeResponse strictJson.toJsonText forgedAnswer).isOk = true := by
    decide +kernel
  cases h : serializeResponse strictJson.toJsonText forgedAnswer with
  | error status =>
    rw [h] at hok
    cases hok
  | ok text =>
    exact ⟨text, rfl, (scan_finds_correlationId _ strictJson_printsMembers forgedAnswer text h).1⟩

end Rpc

end RollingRaft
