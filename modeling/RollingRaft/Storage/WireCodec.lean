/-
# RollingRaft.Storage.WireCodec — the payload codecs, written out.

`wireCodec` is a library that meets `WalCodec.Lawful`, for runs that read their own records back: the
protobuf wire format of `RaftLogEntryProto`, fields with default values left out, and JSON texts that
are flat objects of unsigned numbers. Messages with unknown fields and all other JSON texts are
refused; the write-ahead log writes none.
-/
import RollingRaft.Lib.Varint
import RollingRaft.NodeLists
import RollingRaft.Storage.WalFormat

namespace RollingRaft

open Lib

/-! ## §1 — The wire format of an entry. -/

/-- A number field: nothing when it is zero. -/
def wireNumber (tag : UInt8) (n : Nat) : Bytes := if n = 0 then [] else tag :: varint 10 n

/-- A bytes field: nothing when it is empty. -/
def wireBytes (tag : UInt8) (data : Bytes) : Bytes :=
  if data = [] then [] else tag :: varint 10 data.length ++ data

def wireMessage (p : RaftLogEntryProto) : Bytes :=
  wireNumber 8 p.index ++ wireNumber 16 p.term ++ wireBytes 26 p.data ++ wireBytes 34 p.command
    ++ wireNumber 40 p.checksum

/-- Messages of two gigabytes and more are refused. -/
def wireSerialize (p : RaftLogEntryProto) : Option Bytes :=
  if (wireMessage p).length < 2 ^ 31 then some (wireMessage p) else none

def readNumberField (set : Nat → RaftLogEntryProto) (rest : Bytes) :
    Option (RaftLogEntryProto × Bytes) :=
  (readVarint 10 rest).map fun (n, rest) => (set n, rest)

def readBytesField (set : Bytes → RaftLogEntryProto) (rest : Bytes) :
    Option (RaftLogEntryProto × Bytes) :=
  match readVarint 10 rest with
  | none => none
  | some (n, rest) => if rest.length < n then none else some (set (rest.take n), rest.drop n)

def readField (p : RaftLogEntryProto) (tag : UInt8) (rest : Bytes) :
    Option (RaftLogEntryProto × Bytes) :=
  if tag = 8 then readNumberField (fun n => { p with index := n }) rest
  else if tag = 16 then readNumberField (fun n => { p with term := n }) rest
  else if tag = 26 then readBytesField (fun b => { p with data := b }) rest
  else if tag = 34 then readBytesField (fun b => { p with command := b }) rest
  else if tag = 40 then readNumberField (fun n => { p with checksum := n }) rest
  else none

/-- Field after field; a round reads one. -/
def readFields : Nat → RaftLogEntryProto → Bytes → Option RaftLogEntryProto
  | _, p, [] => some p
  | 0, _, _ :: _ => none
  | rounds + 1, p, tag :: rest =>
    match readField p tag rest with
    | none => none
    | some (p, rest) => readFields rounds p rest

/-- The number of rounds is enough for every text: each but the last takes a byte. -/
def wireParse (payload : Bytes) : Option RaftLogEntryProto :=
  readFields (payload.length + 5) ⟨0, 0, [], [], 0⟩ payload

theorem readNumberField_append (set : Nat → RaftLogEntryProto) {n : Nat} (hn : n < 2 ^ 64)
    (rest : Bytes) : readNumberField set (varint 10 n ++ rest) = some (set n, rest) := by
  have h : n < 128 ^ (9 + 1) := by omega
  rw [readNumberField, readVarint_varint h, Option.map_some]

theorem readBytesField_append (set : Bytes → RaftLogEntryProto) {data : Bytes}
    (hdata : data.length < 2 ^ 31) (rest : Bytes) :
    readBytesField set (varint 10 data.length ++ data ++ rest) = some (set data, rest) := by
  have h : data.length < 128 ^ (9 + 1) := by omega
  rw [readBytesField, List.append_assoc, readVarint_varint h]
  simp

theorem readFields_mono {rounds more : Nat} (hle : rounds ≤ more) {p q : RaftLogEntryProto}
    {text : Bytes} (h : readFields rounds p text = some q) : readFields more p text = some q := by
  induction rounds generalizing more p text with
  | zero =>
    cases text with
    | nil => rwa [readFields] at h ⊢
    | cons tag rest =>
      rw [readFields] at h
      cases h
  | succ rounds ih =>
    cases text with
    | nil => rwa [readFields] at h ⊢
    | cons tag rest =>
      obtain ⟨more, rfl⟩ : ∃ k, more = k + 1 := ⟨more - 1, by omega⟩
      rw [readFields] at h ⊢
      cases hfield : readField p tag rest with
      | none => simp [hfield] at h
      | some r =>
        rw [hfield] at h
        exact ih (by omega) h

section Fields

variable {p q out : RaftLogEntryProto} {tag : UInt8} {rounds : Nat} {rest : Bytes}

/-- A number field at the front. A field that is left out has its default already. -/
theorem readFields_wireNumber (set : Nat → RaftLogEntryProto) {n : Nat} (hn : n < 2 ^ 64)
    (hfield : ∀ rest, readField p tag rest = readNumberField set rest) (hset : set n = q)
    (hzero : n = 0 → p = q) (h : readFields rounds q rest = some out) :
    readFields (rounds + 1) p (wireNumber tag n ++ rest) = some out := by
  unfold wireNumber
  split
  · rename_i hz
    rw [List.nil_append, hzero hz]
    exact readFields_mono (Nat.le_succ rounds) h
  rw [List.cons_append, readFields, hfield, readNumberField_append set hn rest, hset]
  exact h

theorem readFields_wireBytes (set : Bytes → RaftLogEntryProto) {data : Bytes}
    (hdata : data.length < 2 ^ 31)
    (hfield : ∀ rest, readField p tag rest = readBytesField set rest) (hset : set data = q)
    (hempty : data = [] → p = q) (h : readFields rounds q rest = some out) :
    readFields (rounds + 1) p (wireBytes tag data ++ rest) = some out := by
  unfold wireBytes
  split
  · rename_i he
    rw [List.nil_append, hempty he]
    exact readFields_mono (Nat.le_succ rounds) h
  rw [List.cons_append, List.cons_append, readFields, hfield,
    readBytesField_append set hdata rest, hset]
  exact h

end Fields

theorem length_wireBytes_le (tag : UInt8) (data : Bytes) :
    data.length ≤ (wireBytes tag data).length := by
  unfold wireBytes
  split
  · rename_i he
    rw [he]
  simp only [List.length_append, List.length_cons]
  omega

theorem wireParse_wireSerialize {p : RaftLogEntryProto} {payload : Bytes}
    (hindex : p.index < 2 ^ 64) (hterm : p.term < 2 ^ 64) (hchecksum : p.checksum < 2 ^ 64)
    (h : wireSerialize p = some payload) : wireParse payload = some p := by
  obtain ⟨index, term, data, command, checksum⟩ := p
  unfold wireSerialize at h
  split at h
  case isFalse => cases h
  case isTrue hsize =>
    cases h
    simp only [wireMessage, List.length_append] at hsize
    have hdata := length_wireBytes_le 26 data
    have hcommand := length_wireBytes_le 34 command
    have hfive : readFields 5 ⟨0, 0, [], [], 0⟩ (wireMessage ⟨index, term, data, command, checksum⟩)
          = some ⟨index, term, data, command, checksum⟩ := by
      rw [← List.append_nil (wireMessage _)]
      simp only [wireMessage, List.append_assoc]
      -- one round for each field, in the order in which they are written
      apply readFields_wireNumber (fun n => ⟨n, 0, [], [], 0⟩) hindex (fun _ => rfl) rfl
        (fun hz => by rw [hz])
      apply readFields_wireNumber (fun n => ⟨index, n, [], [], 0⟩) hterm (fun _ => rfl) rfl
        (fun hz => by rw [hz])
      apply readFields_wireBytes (fun b => ⟨index, term, b, [], 0⟩) (by omega) (fun _ => rfl) rfl
        (fun he => by rw [he])
      apply readFields_wireBytes (fun b => ⟨index, term, data, b, 0⟩) (by omega) (fun _ => rfl) rfl
        (fun he => by rw [he])
      apply readFields_wireNumber (fun n => ⟨index, term, data, command, n⟩) hchecksum (fun _ => rfl)
        rfl (fun hz => by rw [hz])
      rfl
    exact readFields_mono (by omega) hfive

theorem head_wireMessage {p : RaftLogEntryProto} {b : UInt8}
    (h : (wireMessage p).head? = some b) : b ∈ [8, 16, 26, 34, 40] := by
  have hnumber : ∀ (tag : UInt8) (n : Nat) (rest : Bytes),
      (wireNumber tag n ++ rest).head? = some b → b = tag ∨ rest.head? = some b := by
    intro tag n rest hhead
    unfold wireNumber at hhead
    split at hhead
    · exact .inr hhead
    · exact .inl (Option.some.inj hhead).symm
  have hbytes : ∀ (tag : UInt8) (data rest : Bytes),
      (wireBytes tag data ++ rest).head? = some b → b = tag ∨ rest.head? = some b := by
    intro tag data rest hhead
    unfold wireBytes at hhead
    split at hhead
    · exact .inr hhead
    · exact .inl (Option.some.inj hhead).symm
  rw [← List.append_nil (wireMessage p)] at h
  simp only [wireMessage, List.append_assoc] at h
  simp only [List.mem_cons]
  rcases hnumber _ _ _ h with hb | h
  · exact .inl hb
  · rcases hnumber _ _ _ h with hb | h
    · exact .inr (.inl hb)
    · rcases hbytes _ _ _ h with hb | h
      · exact .inr (.inr (.inl hb))
      · rcases hbytes _ _ _ h with hb | h
        · exact .inr (.inr (.inr (.inl hb)))
        · rcases hnumber _ _ _ h with hb | h
          · exact .inr (.inr (.inr (.inr (.inl hb))))
          · cases h

/-! ## §2 — Flat JSON objects of numbers. -/

/-- `"key":12`, with a gap after the colon. -/
def memberText (gap : Bytes) (f : Bytes × Nat) : Bytes :=
  34 :: f.1 ++ 34 :: 58 :: gap ++ decimal (f.2 + 1) f.2

/-- The members, each after `lead`, the last before `tail` and the closing brace. -/
def membersText (lead gap tail : Bytes) : List (Bytes × Nat) → Bytes
  | [] => tail ++ [125]
  | [f] => lead ++ memberText gap f ++ tail ++ [125]
  | f :: fs => lead ++ memberText gap f ++ 44 :: membersText lead gap tail fs

def numberFields (fields : List (Bytes × Json)) : List (Bytes × Nat) :=
  fields.map fun f => (f.1, (jsonInt f.2).toNat)

def numbersValue (fields : List (Bytes × Nat)) : Json :=
  .object (fields.map fun f => (f.1, .unsigned f.2))

def isBlank (b : UInt8) : Bool := b = 32 || b = 9 || b = 10 || b = 13

/-- A member at the front of a text, and what follows it. -/
def readMember (text : Bytes) : Option ((Bytes × Nat) × Bytes) :=
  match text.dropWhile isBlank with
  | 34 :: rest =>
    match rest.dropWhile (· ≠ 34) with
    | 34 :: 58 :: value =>
      (digits (value.dropWhile isBlank)).map fun n =>
        ((rest.takeWhile (· ≠ 34), n), (value.dropWhile isBlank).dropWhile isDigit)
    | _ => none
  | _ => none

/-- The members up to the closing brace; a round reads one. -/
def readMembers : Nat → Bytes → Option (List (Bytes × Nat))
  | 0, _ => none
  | rounds + 1, text =>
    match readMember text with
    | none => none
    | some (f, rest) =>
      match rest.dropWhile isBlank with
      | 44 :: more => (readMembers rounds more).map (f :: ·)
      | [125] => some [f]
      | _ => none

def readNumbers : Bytes → Except Bytes Json
  | 123 :: rest =>
    match readMembers rest.length rest with
    | some fields => .ok (numbersValue fields)
    | none => .error (ascii "parse error")
  | _ => .error (ascii "parse error")

/-- A JSON library for flat objects of numbers. Other values print as nothing. -/
def numbersJson : JsonText where
  parse := readNumbers
  dump
    | .object fields => .ok (123 :: membersText [] [] [] (numberFields fields))
    | _ => .ok []
  truncate _ := 0

def wireCodec : WalCodec where
  serialize := wireSerialize
  parseProto := wireParse
  json := numbersJson
  doubleToUInt64 _ := 0
  dumpIndented
    | .object fields => 123 :: membersText (10 :: 32 :: 32 :: []) [32] [10] (numberFields fields)
    | _ => []
  readStream := readNumbers

section Reading

variable {lead gap tail : Bytes} {b : UInt8}

theorem dropWhile_blanks {rest : Bytes} (hlead : ∀ b ∈ lead, isBlank b = true)
    (hb : isBlank b = false) : (lead ++ b :: rest).dropWhile isBlank = b :: rest := by
  rw [List.dropWhile_append_of_pos hlead, List.dropWhile_cons_of_neg (by simp [hb])]

theorem isDigit_of_isBlank (h : isBlank b = true) : isDigit b = false := by
  simp only [isBlank, Bool.or_eq_true, decide_eq_true_eq] at h
  rcases h with ((rfl | rfl) | rfl) | rfl <;> decide

theorem dropWhile_blanks_decimal (hgap : ∀ b ∈ gap, isBlank b = true) (n : Nat) (rest : Bytes) :
    (gap ++ (decimal (n + 1) n ++ rest)).dropWhile isBlank = decimal (n + 1) n ++ rest := by
  obtain ⟨c, cs, hc⟩ := List.exists_cons_of_ne_nil (decimal_ne_nil n n)
  have hdigit : isDigit c = true := isDigit_of_mem_decimal (hc ▸ List.mem_cons_self)
  have hblank : isBlank c = false := by
    by_contra hblank
    rw [isDigit_of_isBlank (Bool.not_eq_false _ ▸ hblank)] at hdigit
    exact Bool.false_ne_true hdigit
  rw [hc, List.cons_append]
  exact dropWhile_blanks hgap hblank

theorem readMember_memberText (hlead : ∀ b ∈ lead, isBlank b = true)
    (hgap : ∀ b ∈ gap, isBlank b = true) {key : Bytes} (hkey : 34 ∉ key) (n : Nat)
    (hb : isDigit b = false) (rest : Bytes) :
    readMember (lead ++ memberText gap (key, n) ++ b :: rest) = some ((key, n), b :: rest) := by
  have hall : ∀ c ∈ key, decide (c ≠ 34) = true := by
    intro c hc
    exact decide_eq_true fun h => hkey (h ▸ hc)
  have hquote : ∀ rest : Bytes, (key ++ 34 :: rest).dropWhile (· ≠ 34) = 34 :: rest ∧
      (key ++ 34 :: rest).takeWhile (· ≠ 34) = key := by
    intro rest
    rw [List.dropWhile_append_of_pos hall, List.takeWhile_append_of_pos hall,
      List.dropWhile_cons_of_neg (by simp), List.takeWhile_cons_of_neg (by simp), List.append_nil]
    exact ⟨rfl, rfl⟩
  obtain ⟨hdigits, hrest⟩ := digits_decimal n (r := b :: rest) (by simpa using hb)
  rw [memberText, readMember]
  simp only [List.append_assoc, List.cons_append]
  rw [dropWhile_blanks hlead (by decide)]
  simp only [(hquote _).1, (hquote _).2]
  rw [dropWhile_blanks_decimal hgap, hdigits, hrest, Option.map_some]

theorem readMembers_membersText (hlead : ∀ b ∈ lead, isBlank b = true)
    (hgap : ∀ b ∈ gap, isBlank b = true) (htail : ∀ b ∈ tail, isBlank b = true)
    {fields : List (Bytes × Nat)} (hne : fields ≠ []) (hkeys : ∀ f ∈ fields, 34 ∉ f.1)
    {rounds : Nat} (h : fields.length ≤ rounds) :
    readMembers rounds (membersText lead gap tail fields) = some fields := by
  induction fields generalizing rounds with
  | nil => exact absurd rfl hne
  | cons f fs ih =>
    obtain ⟨rounds, rfl⟩ : ∃ k, rounds = k + 1 := ⟨rounds - 1, by simp at h; omega⟩
    have hkey : 34 ∉ f.1 := hkeys f List.mem_cons_self
    cases fs with
    | nil =>
      -- what follows the last number is the tail or, when that is empty, the brace
      obtain ⟨b, more, hb, hdigit, hblanks⟩ : ∃ b more, tail ++ [125] = b :: more ∧
          isDigit b = false ∧ (b :: more).dropWhile isBlank = [125] := by
        have hdrop : (tail ++ [125]).dropWhile isBlank = [125] :=
          dropWhile_blanks htail (by decide)
        cases htail' : tail with
        | nil => exact ⟨125, [], rfl, by decide, by decide⟩
        | cons b more =>
          have hblank : isBlank b = true := htail b (htail' ▸ List.mem_cons_self)
          rw [htail', List.cons_append] at hdrop
          exact ⟨b, more ++ [125], rfl, isDigit_of_isBlank hblank, hdrop⟩
      rw [membersText, readMembers, List.append_assoc (lead ++ _), hb,
        readMember_memberText hlead hgap hkey f.2 hdigit more]
      simp only [hblanks]
    | cons g fs =>
      have hrest := ih (List.cons_ne_nil g fs) (fun x hx => hkeys x (List.mem_cons_of_mem f hx))
        (Nat.le_of_succ_le_succ h)
      rw [membersText, readMembers, readMember_memberText hlead hgap hkey f.2 (by decide)]
      · dsimp only
        rw [List.dropWhile_cons_of_neg (by decide)]
        simp only [hrest, Option.map_some]
      · exact List.cons_ne_nil g fs

end Reading

theorem length_le_membersText (lead gap tail : Bytes) (fields : List (Bytes × Nat)) :
    fields.length ≤ (membersText lead gap tail fields).length := by
  induction fields with
  | nil => exact Nat.zero_le _
  | cons f fs ih =>
    cases fs with
    | nil =>
      rw [membersText]
      simp only [List.length_append, List.length_cons, List.length_nil]
      omega
    | cons g fs =>
      rw [membersText]
      · simp only [List.length_append, List.length_cons] at ih ⊢
        omega
      · exact List.cons_ne_nil g fs

theorem readNumbers_text {lead gap tail : Bytes} (hlead : ∀ b ∈ lead, isBlank b = true)
    (hgap : ∀ b ∈ gap, isBlank b = true) (htail : ∀ b ∈ tail, isBlank b = true)
    (fields : List (Bytes × Nat)) (hne : fields ≠ []) (hkeys : ∀ f ∈ fields, 34 ∉ f.1) :
    readNumbers (123 :: membersText lead gap tail fields) = .ok (numbersValue fields) := by
  rw [readNumbers, readMembers_membersText hlead hgap htail hne hkeys
    (length_le_membersText lead gap tail fields)]

theorem length_decimal_le {rounds n k : Nat} (h : n < 10 ^ (k + 1)) :
    (decimal rounds n).length ≤ k + 1 := by
  induction rounds generalizing n k with
  | zero => exact Nat.zero_le _
  | succ rounds ih =>
    rw [decimal]
    split
    · exact Nat.succ_le_succ (Nat.zero_le k)
    rename_i hn
    obtain ⟨k, rfl⟩ : ∃ j, k = j + 1 := by
      cases k with
      | zero => exact absurd h (by simpa using hn)
      | succ j => exact ⟨j, rfl⟩
    have hdiv : n / 10 < 10 ^ (k + 1) := by
      rw [Nat.pow_succ] at h
      omega
    rw [List.length_append, List.length_singleton]
    exact Nat.succ_le_succ (ih hdiv)

theorem no_quote_in_keys : ∀ key ∈ [ascii "before_index", ascii "from_index", ascii "first_index",
    ascii "last_index", ascii "last_segment_id"], 34 ∉ key := by
  decide +kernel

/-- **The codec meets the laws.** -/
theorem wireCodec_lawful : wireCodec.Lawful where
  parse_serialize := wireParse_wireSerialize
  serialize_head := by
    intro p payload b h hhead
    replace h : wireSerialize p = some payload := h
    unfold wireSerialize at h
    split at h
    · cases h
      exact head_wireMessage hhead
    · cases h
  parse_dump := by
    intro key n hkey hn
    have hquote : 34 ∉ key := by
      apply no_quote_in_keys
      rcases hkey with rfl | rfl
      · exact List.mem_cons_self
      · exact List.mem_cons_of_mem _ List.mem_cons_self
    refine ⟨123 :: membersText [] [] [] [(key, n)], rfl, ?_, ?_⟩
    · exact readNumbers_text (by simp) (by simp) (by simp) [(key, n)] (List.cons_ne_nil _ _)
        (by simpa using hquote)
    · have hlen : (decimal (n + 1) n).length ≤ 19 + 1 := length_decimal_le (by omega)
      simp only [membersText, memberText, List.length_cons, List.length_append, List.length_nil]
      omega
  parse_object_head := by
    intro text fields h
    cases text with
    | nil => cases h
    | cons b rest =>
      refine ⟨b, ?_, rfl⟩
      by_cases hb : b = 123
      · rw [hb]
        decide
      have herr : readNumbers (b :: rest) = .error (ascii "parse error") := by
        rw [readNumbers]
        intro tail heq
        exact hb (List.cons.inj heq).1
      rw [show wireCodec.json.parse (b :: rest) = _ from herr] at h
      cases h
  readStream_dumpIndented := by
    intro firstIndex lastIndex lastSegmentId _ _ _
    refine readNumbers_text (by decide +kernel) (by decide +kernel) (by decide +kernel)
      [(ascii "first_index", firstIndex), (ascii "last_index", lastIndex),
        (ascii "last_segment_id", lastSegmentId)] (List.cons_ne_nil _ _) ?_
    intro f hf
    apply no_quote_in_keys
    simp only [List.mem_cons, List.not_mem_nil, or_false] at hf ⊢
    rcases hf with rfl | rfl | rfl
    · exact .inr (.inr (.inl rfl))
    · exact .inr (.inr (.inr (.inl rfl)))
    · exact .inr (.inr (.inr (.inr rfl)))

end RollingRaft
