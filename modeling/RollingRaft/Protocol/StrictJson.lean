/-
# RollingRaft.Protocol.StrictJson — a JSON library that meets the laws, written out.

`strictJson` prints a value without blanks, with every quote, backslash and control byte escaped as
`\u00hl`, and reads exactly such texts back. Floats are printed as `null` and never read. A value
with a string that is not valid UTF-8 is refused, as the library the code uses does.
-/
import RollingRaft.NodeLists
import RollingRaft.Protocol.JsonValue

namespace RollingRaft

open Lib

/-! ## §1 — Printing. -/

def hexDigit (n : UInt8) : UInt8 := if n < 10 then 48 + n else 87 + n

def escapeByte (b : UInt8) : Bytes :=
  if b < 32 || b = 34 || b = 92 then [92, 117, 48, 48, hexDigit (b / 16), hexDigit (b % 16)] else [b]

/-- `"text"`. -/
def stringText (s : Bytes) : Bytes := 34 :: s.flatMap escapeByte ++ [34]

mutual

def printJson : Json → Bytes
  | .null | .float _ => ascii "null"
  | .bool true => ascii "true"
  | .bool false => ascii "false"
  | .integer i => numberText i
  | .unsigned n => numberText n
  | .string s => stringText s
  | .array [] => [91, 93]
  | .array (j :: items) => 91 :: printJson j ++ printItems items
  | .object [] => [123, 125]
  | .object ((key, j) :: fields) => 123 :: stringText key ++ 58 :: printJson j ++ printMembers fields

/-- What follows an item of an array. -/
def printItems : List Json → Bytes
  | [] => [93]
  | j :: items => 44 :: printJson j ++ printItems items

/-- What follows a member of an object. -/
def printMembers : List (Bytes × Json) → Bytes
  | [] => [125]
  | (key, j) :: fields => 44 :: stringText key ++ 58 :: printJson j ++ printMembers fields

end

/-! ## §2 — Reading. -/

def unhex (b : UInt8) : UInt8 := if b < 58 then b - 48 else b - 87

/-- The rest of a string after its opening quote, and what follows the closing one. -/
def readString : Bytes → Option (Bytes × Bytes)
  | 34 :: rest => some ([], rest)
  | 92 :: 117 :: 48 :: 48 :: h :: l :: rest =>
    (readString rest).map fun (s, rest) => ((unhex h * 16 + unhex l) :: s, rest)
  | b :: rest => if b = 92 then none else (readString rest).map fun (s, rest) => (b :: s, rest)
  | [] => none

/-- A number, of the kind its sign says. -/
def readJsonNumber (text : Bytes) : Option (Json × Bytes) :=
  (readNumber text).map fun (i, rest) => (Json.ofInt i, rest)

def readWord (word : String) (j : Json) (text : Bytes) : Option (Json × Bytes) :=
  if startsWith text (ascii word) then some (j, text.drop (ascii word).length) else none

/-- `"key":`. -/
def readKey (text : Bytes) : Option (Bytes × Bytes) :=
  match text with
  | 34 :: rest =>
    match readString rest with
    | some (key, 58 :: rest) => some (key, rest)
    | _ => none
  | _ => none

mutual

/-- The value at the start of a text and what follows it; a round reads one bracket or comma. -/
def readJson : Nat → Bytes → Option (Json × Bytes)
  | 0, _ => none
  | rounds + 1, text =>
    match text with
    | 34 :: rest => (readString rest).map fun (s, rest) => (.string s, rest)
    | 91 :: 93 :: rest => some (.array [], rest)
    | 91 :: rest =>
      match readJson rounds rest with
      | none => none
      | some (j, rest) => (readItemsJson rounds rest).map fun (js, rest) => (.array (j :: js), rest)
    | 123 :: 125 :: rest => some (.object [], rest)
    | 123 :: rest =>
      match readKey rest with
      | none => none
      | some (key, rest) =>
        match readJson rounds rest with
        | none => none
        | some (j, rest) =>
          (readMembersJson rounds rest).map fun (fs, rest) => (.object ((key, j) :: fs), rest)
    | 110 :: _ => readWord "null" .null text
    | 116 :: _ => readWord "true" (.bool true) text
    | 102 :: _ => readWord "false" (.bool false) text
    | _ => readJsonNumber text

def readItemsJson : Nat → Bytes → Option (List Json × Bytes)
  | 0, _ => none
  | rounds + 1, text =>
    match text with
    | 93 :: rest => some ([], rest)
    | 44 :: rest =>
      match readJson rounds rest with
      | none => none
      | some (j, rest) => (readItemsJson rounds rest).map fun (js, rest) => (j :: js, rest)
    | _ => none

def readMembersJson : Nat → Bytes → Option (List (Bytes × Json) × Bytes)
  | 0, _ => none
  | rounds + 1, text =>
    match text with
    | 125 :: rest => some ([], rest)
    | 44 :: rest =>
      match readKey rest with
      | none => none
      | some (key, rest) =>
        match readJson rounds rest with
        | none => none
        | some (j, rest) =>
          (readMembersJson rounds rest).map fun (fs, rest) => ((key, j) :: fs, rest)
    | _ => none

end

/-- A number at the end of a text is closed by the blank added here. -/
def strictParse (text : Bytes) : Except Bytes Json :=
  match readJson (text.length + 1) (text ++ [32]) with
  | some (j, [32]) => .ok j
  | _ => .error (ascii "[json.exception.parse_error.101] parse error")

def strictJson : JsonLibrary where
  parse := strictParse
  dump j :=
    if j.textsValid then .ok (printJson j)
    else .error (ascii "[json.exception.type_error.316] invalid UTF-8 byte")
  truncate _ := 0
  floatToUInt32 _ := 0
  floatToUInt64 _ := 0

/-! ## §3 — What is printed is read back. -/

theorem unhex_hexDigit (b : UInt8) :
    unhex (hexDigit (b / 16)) * 16 + unhex (hexDigit (b % 16)) = b := by
  have h : ∀ n : Fin 256, unhex (hexDigit (UInt8.ofFin n / 16)) * 16
      + unhex (hexDigit (UInt8.ofFin n % 16)) = UInt8.ofFin n := by
    decide +kernel
  exact h b.toFin

theorem readString_escapeByte (b : UInt8) (rest : Bytes) :
    readString (escapeByte b ++ rest) = (readString rest).map fun (s, rest) => (b :: s, rest) := by
  unfold escapeByte
  split
  · simp only [List.cons_append, List.nil_append, readString, unhex_hexDigit]
  rename_i hb
  simp only [Bool.or_eq_true, decide_eq_true_eq, not_or] at hb
  rw [List.singleton_append, readString.eq_def]
  split
  · rename_i heq
    exact absurd (List.cons.inj heq).1 hb.1.2
  · rename_i heq
    exact absurd (List.cons.inj heq).1 hb.2
  · rename_i heq
    obtain ⟨rfl, rfl⟩ := List.cons.inj heq
    rw [if_neg hb.2]
  · rename_i heq
    cases heq

theorem readString_stringText (s rest : Bytes) :
    readString (s.flatMap escapeByte ++ 34 :: rest) = some (s, rest) := by
  induction s with
  | nil => rfl
  | cons b s ih =>
    rw [List.flatMap_cons, List.append_assoc, readString_escapeByte, ih, Option.map_some]

theorem readKey_stringText (key rest : Bytes) :
    readKey (stringText key ++ 58 :: rest) = some (key, rest) := by
  simp only [stringText, List.cons_append, List.append_assoc, List.nil_append, readKey,
    readString_stringText]

theorem numberText_head (i : Int) :
    ∃ c cs, numberText i = c :: cs ∧ (c = 45 ∨ isDigit c = true) := by
  unfold numberText
  split
  · exact ⟨45, _, rfl, .inl rfl⟩
  obtain ⟨c, cs, hc⟩ := List.exists_cons_of_ne_nil (decimal_ne_nil i.natAbs i.natAbs)
  exact ⟨c, cs, hc, .inr (isDigit_of_mem_decimal (hc ▸ List.mem_cons_self))⟩

theorem readJson_numberText (rounds : Nat) (i : Int) {b : UInt8} (hb : isDigit b = false)
    (rest : Bytes) :
    readJson (rounds + 1) (numberText i ++ b :: rest) = some (Json.ofInt i, b :: rest) := by
  have hnumber : readJsonNumber (numberText i ++ b :: rest) = some (Json.ofInt i, b :: rest) := by
    rw [readJsonNumber, readNumber_append i hb rest, Option.map_some]
  obtain ⟨c, cs, hc, hhead⟩ := numberText_head i
  -- no other value starts with a sign or a digit
  have hother : ∀ d ∈ ([34, 91, 123, 110, 116, 102] : List UInt8), c ≠ d := by
    have hno : ∀ d ∈ ([34, 91, 123, 110, 116, 102] : List UInt8), ¬(d = 45 ∨ isDigit d = true) := by
      decide +kernel
    rintro d hd rfl
    exact hno c hd hhead
  rw [hc, List.cons_append] at hnumber ⊢
  rw [readJson.eq_def]
  dsimp only
  split
  all_goals first
    | exact hnumber
    | (rename_i heq; exact absurd (List.cons.inj heq).1 (hother _ (by decide)))

variable {rounds : Nat}

theorem readJson_word {j : Json} (hj : j = .null ∨ ∃ b, j = .bool b) (rest : Bytes) :
    readJson (rounds + 1) (printJson j ++ rest) = some (j, rest) := by
  have hdrop : ∀ word : Bytes, (word ++ rest).drop word.length = rest := fun _ => List.drop_left
  have hword : ∀ word : String, readWord word j (ascii word ++ rest) = some (j, rest) := by
    intro word
    rw [readWord, if_pos (startsWith_iff.mpr (List.prefix_append _ _)), hdrop]
  rcases hj with rfl | ⟨b, rfl⟩
  · have h := hword "null"
    rw [show ascii "null" = [110, 117, 108, 108] by decide +kernel] at h
    rw [printJson, show ascii "null" = [110, 117, 108, 108] by decide +kernel]
    exact h
  · cases b
    · have h := hword "false"
      rw [show ascii "false" = [102, 97, 108, 115, 101] by decide +kernel] at h
      rw [printJson, show ascii "false" = [102, 97, 108, 115, 101] by decide +kernel]
      exact h
    · have h := hword "true"
      rw [show ascii "true" = [116, 114, 117, 101] by decide +kernel] at h
      rw [printJson, show ascii "true" = [116, 114, 117, 101] by decide +kernel]
      exact h

theorem printJson_head (j : Json) : ∃ c cs, printJson j = c :: cs ∧ c ≠ 93 := by
  have hnumber : ∀ i : Int, ∃ c cs, numberText i = c :: cs ∧ c ≠ 93 := by
    intro i
    obtain ⟨c, cs, hc, hhead⟩ := numberText_head i
    refine ⟨c, cs, hc, ?_⟩
    rintro rfl
    exact absurd hhead (by decide)
  have hword : ∀ w ∈ [ascii "null", ascii "true", ascii "false"], ∃ c cs, w = c :: cs ∧ c ≠ 93 := by
    intro w hw
    have hhead : ∀ w ∈ [ascii "null", ascii "true", ascii "false"], w.head?.any (· ≠ 93) = true := by
      decide +kernel
    cases w with
    | nil => cases hhead [] hw
    | cons c cs => exact ⟨c, cs, rfl, by simpa using hhead _ hw⟩
  cases j with
  | null | float => exact hword _ (by simp [printJson])
  | bool b => cases b <;> exact hword _ (by simp [printJson])
  | integer i => exact hnumber i
  | unsigned n => exact hnumber n
  | string s => exact ⟨34, _, rfl, by decide⟩
  | array items => cases items <;> exact ⟨91, _, rfl, by decide⟩
  | object fields => cases fields <;> exact ⟨123, _, rfl, by decide⟩

theorem printItems_head (items : List Json) :
    ∃ c cs, printItems items = c :: cs ∧ isDigit c = false := by
  cases items with
  | nil => exact ⟨93, [], rfl, rfl⟩
  | cons j items => exact ⟨44, _, rfl, rfl⟩

theorem printMembers_head (fields : List (Bytes × Json)) :
    ∃ c cs, printMembers fields = c :: cs ∧ isDigit c = false := by
  cases fields with
  | nil => exact ⟨125, [], rfl, rfl⟩
  | cons f fields => exact ⟨44, _, rfl, rfl⟩

theorem readJson_bracket {c : UInt8} {cs rest rest' : Bytes} {j : Json}
    {items : List Json} (hc : c ≠ 93) (hj : readJson rounds (c :: cs) = some (j, rest))
    (hitems : readItemsJson rounds rest = some (items, rest')) :
    readJson (rounds + 1) (91 :: c :: cs) = some (.array (j :: items), rest') := by
  rw [readJson]
  · simp only [hj, hitems, Option.map_some]
  · intro rest heq
    exact hc (List.cons.inj heq).1

mutual

theorem readJson_printJson : ∀ (j : Json) {k : Nat} {b : UInt8} (rest : Bytes),
    j.canonical = true → isDigit b = false → (printJson j).length ≤ k →
      readJson k (printJson j ++ b :: rest) = some (j, b :: rest)
  | .null, rounds + 1, b, rest, _, _, _ => readJson_word (.inl rfl) _
  | .bool v, rounds + 1, b, rest, _, _, _ => readJson_word (.inr ⟨v, rfl⟩) _
  | .integer i, rounds + 1, b, rest, hj, hb, _ => by
    have hneg : ¬ 0 ≤ i := by
      simp only [Json.canonical, Bool.and_eq_true, decide_eq_true_eq] at hj
      omega
    rw [printJson, readJson_numberText rounds i hb rest, Json.ofInt, if_neg hneg]
  | .unsigned n, rounds + 1, b, rest, _, hb, _ => by
    rw [printJson, readJson_numberText rounds n hb rest, Json.ofInt, if_pos (Int.natCast_nonneg n),
      Int.toNat_natCast]
  | .float _, _, _, _, hj, _, _ => by cases hj
  | .string s, rounds + 1, b, rest, _, _, _ => by
    simp only [printJson, stringText, List.cons_append, List.append_assoc, List.nil_append, readJson,
      readString_stringText, Option.map_some]
  | .array [], rounds + 1, b, rest, _, _, _ => rfl
  | .array (j :: items), rounds + 1, b, rest, hj, hb, hlen => by
    simp only [Json.canonical, Json.itemsCanonical, Bool.and_eq_true] at hj
    obtain ⟨d, ds, hd, hdigit⟩ := printItems_head items
    obtain ⟨c, cs, hc, hne⟩ := printJson_head j
    simp only [printJson, List.cons_append, List.length_cons, List.length_append] at hlen
    have hvalue := readJson_printJson j (k := rounds) (ds ++ b :: rest) hj.1 hdigit (by omega)
    have hitems := readItemsJson_printItems items (k := rounds) (b := b) rest hj.2 (by omega)
    rw [hd, List.cons_append] at hitems
    rw [hc, List.cons_append] at hvalue
    rw [printJson, hd, hc]
    simp only [List.cons_append, List.append_assoc]
    exact readJson_bracket hne hvalue hitems
  | .object [], rounds + 1, b, rest, _, _, _ => rfl
  | .object ((key, j) :: fields), rounds + 1, b, rest, hj, hb, hlen => by
    simp only [Json.canonical, Json.fieldsCanonical, Bool.and_eq_true] at hj
    obtain ⟨d, ds, hd, hdigit⟩ := printMembers_head fields
    simp only [printJson, List.cons_append, List.length_cons, List.length_append] at hlen
    have hvalue := readJson_printJson j (k := rounds) (ds ++ b :: rest) hj.2.1 hdigit (by omega)
    have hmembers := readMembersJson_printMembers fields (k := rounds) (b := b) rest hj.2.2
      (by omega)
    have hkey := readKey_stringText key (printJson j ++ d :: (ds ++ b :: rest))
    rw [hd, List.cons_append] at hmembers
    rw [printJson, hd]
    simp only [stringText, List.cons_append, List.append_assoc, List.nil_append] at hkey ⊢
    rw [readJson]
    · simp only [hkey, hvalue, hmembers, Option.map_some]
    · intro rest' heq
      exact absurd (List.cons.inj heq).1 (by decide)
  | j, 0, _, _, _, _, hlen => by
    obtain ⟨c, cs, hc, -⟩ := printJson_head j
    rw [hc] at hlen
    cases hlen

theorem readItemsJson_printItems : ∀ (items : List Json) {k : Nat} {b : UInt8} (rest : Bytes),
    Json.itemsCanonical items = true → (printItems items).length ≤ k →
      readItemsJson k (printItems items ++ b :: rest) = some (items, b :: rest)
  | [], rounds + 1, b, rest, _, _ => rfl
  | j :: items, rounds + 1, b, rest, hj, hlen => by
    simp only [Json.itemsCanonical, Bool.and_eq_true] at hj
    obtain ⟨d, ds, hd, hdigit⟩ := printItems_head items
    simp only [printItems, List.cons_append, List.length_cons, List.length_append] at hlen
    have hvalue := readJson_printJson j (k := rounds) (ds ++ b :: rest) hj.1 hdigit (by omega)
    have hitems := readItemsJson_printItems items (k := rounds) (b := b) rest hj.2 (by omega)
    rw [hd, List.cons_append] at hitems
    rw [printItems, hd]
    simp only [List.cons_append, List.append_assoc]
    rw [readItemsJson]
    simp only [hvalue, hitems, Option.map_some]
  | items, 0, _, _, _, hlen => by
    cases items <;> cases hlen

theorem readMembersJson_printMembers : ∀ (fields : List (Bytes × Json)) {k : Nat} {b : UInt8}
    (rest : Bytes), Json.fieldsCanonical fields = true → (printMembers fields).length ≤ k →
      readMembersJson k (printMembers fields ++ b :: rest) = some (fields, b :: rest)
  | [], rounds + 1, b, rest, _, _ => rfl
  | (key, j) :: fields, rounds + 1, b, rest, hj, hlen => by
    simp only [Json.fieldsCanonical, Bool.and_eq_true] at hj
    obtain ⟨d, ds, hd, hdigit⟩ := printMembers_head fields
    simp only [printMembers, List.cons_append, List.length_cons, List.length_append] at hlen
    have hvalue := readJson_printJson j (k := rounds) (ds ++ b :: rest) hj.1 hdigit (by omega)
    have hmembers := readMembersJson_printMembers fields (k := rounds) (b := b) rest hj.2 (by omega)
    have hkey := readKey_stringText key (printJson j ++ d :: (ds ++ b :: rest))
    rw [hd, List.cons_append] at hmembers
    rw [printMembers, hd]
    simp only [List.cons_append, List.append_assoc] at hkey ⊢
    rw [readMembersJson]
    simp only [hkey, hvalue, hmembers, Option.map_some]
  | fields, 0, _, _, _, hlen => by
    cases fields <;> cases hlen

end

theorem strictJson_dump {j : Json} {text : Bytes} :
    strictJson.dump j = .ok text ↔ j.textsValid = true ∧ printJson j = text := by
  show (if j.textsValid then _ else _) = _ ↔ _
  cases j.textsValid <;> simp

theorem strictJson_exact : strictJson.Exact := by
  intro j hj htexts
  refine ⟨printJson j, strictJson_dump.mpr ⟨htexts, rfl⟩, ?_⟩
  · have hread := readJson_printJson j (k := (printJson j).length + 1) (b := 32) [] hj rfl
      (Nat.le_succ _)
    show strictParse (printJson j) = .ok j
    rw [strictParse, hread]
    rfl

theorem strictJson_printsValid : strictJson.PrintsValid :=
  fun _ hj => ⟨_, strictJson_dump.mpr ⟨hj, rfl⟩⟩

theorem strictJson_refuses : strictJson.Refuses := by
  intro j hj
  refine ⟨ascii "[json.exception.type_error.316] invalid UTF-8 byte", ?_⟩
  show (if j.textsValid then _ else _) = _
  rw [hj]
  rfl

end RollingRaft
