/-
# RollingRaft.NodeLists — node lists as the text of configuration entries.

A configuration entry carries its voter lists as JSON text, printed and read back by the third-party
library. `PrintsLists` is what is asked of that library: a printed list of 32-bit integers has no
colon in it and parses to the same list. With it the lists of a JOINT or FINALIZE entry are those it
was made from.

`listJson` is a library that does this, for runs that read their own lists back.
-/
import RollingRaft.Process

namespace RollingRaft

open Lib

/-! ## §1 — What is asked of the library. -/

def nodesValue (nodes : List NodeId) : Json :=
  .array (nodes.map fun i => if 0 ≤ i then .unsigned i.toNat else .integer i)

/-- The ids are `int32_t` values. -/
def Int32Ids (nodes : List NodeId) : Prop := ∀ i ∈ nodes, -2 ^ 31 ≤ i ∧ i < 2 ^ 31

/-- A printed list of node ids contains no colon and is parsed to what was printed. -/
def JsonText.PrintsLists (js : JsonText) : Prop :=
  ∀ nodes : List NodeId, Int32Ids nodes → ∃ text, js.dump (nodesValue nodes) = .ok text ∧
    58 ∉ text ∧ js.parse text = .ok (nodesValue nodes)

theorem toInt32_of_range {i : Int} (hlow : -2 ^ 31 ≤ i) (hhigh : i < 2 ^ 31) :
    Json.toInt32 i = i := by
  unfold Json.toInt32
  omega

variable (i : Int) {nodes : List NodeId} {js : JsonText} {b : UInt8}

theorem asInt32_nodes (js : JsonText) (h : Int32Ids nodes) :
    (nodes.map fun i => if 0 ≤ i then Json.unsigned i.toNat else .integer i).mapM
      (Json.asInt32 js) = .ok nodes := by
  induction nodes with
  | nil => rfl
  | cons i nodes ih =>
    have hone : Json.asInt32 js (if 0 ≤ i then Json.unsigned i.toNat else .integer i) = .ok i := by
      have hrange := h i List.mem_cons_self
      have hi := toInt32_of_range hrange.1 hrange.2
      split
      · rename_i hpos
        rw [Json.asInt32, Int.toNat_of_nonneg hpos, hi]
      · rw [Json.asInt32, hi]
    rw [List.map_cons, List.mapM_cons, hone, ih fun j hj => h j (List.mem_cons_of_mem i hj)]
    rfl

theorem nodesToJson_of_dump {text : Bytes} (hdump : js.dump (nodesValue nodes) = .ok text) :
    nodesToJson js nodes = text := by
  unfold nodesValue at hdump
  unfold nodesToJson
  rw [hdump]

theorem jsonToNodes_nodesToJson (hjs : js.PrintsLists) (h : Int32Ids nodes) :
    jsonToNodes js (nodesToJson js nodes) = .ok nodes := by
  obtain ⟨text, hdump, -, hparse⟩ := hjs nodes h
  rw [nodesToJson_of_dump hdump, jsonToNodes, hparse]
  exact asInt32_nodes js h

theorem colon_notMem_nodesToJson (hjs : js.PrintsLists) (h : Int32Ids nodes) :
    58 ∉ nodesToJson js nodes := by
  obtain ⟨text, hdump, hcolon, -⟩ := hjs nodes h
  rw [nodesToJson_of_dump hdump]
  exact hcolon

theorem splitColon_append {a : Bytes} (b : Bytes) (ha : 58 ∉ a) :
    splitColon (a ++ 58 :: b) = some (a, b) := by
  simp [splitColon, findByte_append ha b]

/-! ## §2 — A library that does it. -/

/-- The decimal digits of `n`, given that many rounds are enough. -/
def decimal : Nat → Nat → Bytes
  | 0, _ => []
  | rounds + 1, n =>
    if n < 10 then [UInt8.ofNat (48 + n)]
    else decimal rounds (n / 10) ++ [UInt8.ofNat (48 + n % 10)]

/-- `-12` or `12`. -/
def numberText (i : Int) : Bytes :=
  if i < 0 then 45 :: decimal (i.natAbs + 1) i.natAbs else decimal (i.natAbs + 1) i.natAbs

/-- The items of a list, each followed by a comma, the last by a closing bracket. -/
def itemsText : List Int → Bytes
  | [] => [93]
  | [i] => numberText i ++ [93]
  | i :: rest => numberText i ++ 44 :: itemsText rest

/-- `[1,-2,3]`. -/
def listText (nodes : List Int) : Bytes := 91 :: itemsText nodes

/-- The number at the start of a text and what follows it. -/
def readNumber (text : Bytes) : Option (Int × Bytes) :=
  match text with
  | 45 :: rest => (digits rest).map fun n : Nat => (-(n : Int), rest.dropWhile isDigit)
  | rest => (digits rest).map fun n : Nat => ((n : Int), rest.dropWhile isDigit)

/-- The items up to the closing bracket; a round reads one. -/
def readItems : Nat → Bytes → Option (List Int)
  | 0, _ => none
  | rounds + 1, text =>
    match readNumber text with
    | some (i, b :: rest) =>
      if b = 44 then (readItems rounds rest).map (i :: ·)
      else if b = 93 && rest.isEmpty then some [i] else none
    | _ => none

def readList : Bytes → Option (List Int)
  | 91 :: rest => if rest = [93] then some [] else readItems rest.length rest
  | _ => none

/-- The integer of a JSON number. -/
def jsonInt : Json → Int
  | .unsigned n => n
  | .integer i => i
  | _ => 0

/-- A JSON library for texts that are lists of integers. Other values print as nothing. -/
def listJson : JsonText where
  parse text :=
    match readList text with
    | some nodes => .ok (nodesValue nodes)
    | none => .error (ascii "parse error")
  dump
    | .array items => .ok (listText (items.map jsonInt))
    | _ => .ok []
  truncate _ := 0

theorem digit_ofNat {d : Nat} (hd : d < 10) :
    isDigit (UInt8.ofNat (48 + d)) = true ∧ (UInt8.ofNat (48 + d)).toNat = 48 + d := by
  have hall : ∀ d < 10,
      isDigit (UInt8.ofNat (48 + d)) = true ∧ (UInt8.ofNat (48 + d)).toNat = 48 + d := by decide
  exact hall d hd

variable {rounds : Nat}

theorem isDigit_of_mem_decimal {n : Nat} (h : b ∈ decimal rounds n) : isDigit b = true := by
  induction rounds generalizing n with
  | zero => cases h
  | succ rounds ih =>
    rw [decimal] at h
    split at h
    · rename_i hn
      rw [List.mem_singleton.mp h]
      exact (digit_ofNat hn).1
    rcases List.mem_append.mp h with h | h
    · exact ih h
    · rw [List.mem_singleton.mp h]
      exact (digit_ofNat (Nat.mod_lt n (by omega))).1

theorem foldl_decimal {n : Nat} (h : n < rounds) :
    (decimal rounds n).foldl (fun acc b => 10 * acc + (b.toNat - 48)) 0 = n := by
  induction rounds generalizing n with
  | zero => omega
  | succ rounds ih =>
    rw [decimal]
    split
    · rename_i hn
      rw [List.foldl_cons, List.foldl_nil, (digit_ofNat hn).2]
      omega
    rename_i hn
    rw [List.foldl_append, ih (by omega), List.foldl_cons, List.foldl_nil,
      (digit_ofNat (Nat.mod_lt n (by omega))).2]
    omega

theorem decimal_ne_nil (rounds n : Nat) : decimal (rounds + 1) n ≠ [] := by
  rw [decimal]
  split
  · exact List.cons_ne_nil _ _
  · exact List.append_ne_nil_of_right_ne_nil _ (List.cons_ne_nil _ _)

theorem digits_decimal (n : Nat) {r : Bytes} (hr : ∀ b ∈ r.head?, isDigit b = false) :
    digits (decimal (n + 1) n ++ r) = some n ∧
      (decimal (n + 1) n ++ r).dropWhile isDigit = r := by
  have hall : ∀ c ∈ decimal (n + 1) n, isDigit c = true := fun c => isDigit_of_mem_decimal
  have hstop : r.takeWhile isDigit = [] ∧ r.dropWhile isDigit = r := by
    cases r with
    | nil => exact ⟨rfl, rfl⟩
    | cons b r => simp [hr b rfl]
  constructor
  · rw [digits, List.takeWhile_append_of_pos hall, hstop.1, List.append_nil]
    split
    · exact absurd ‹_› (decimal_ne_nil n n)
    · rw [foldl_decimal (Nat.lt_succ_self n)]
  · rw [List.dropWhile_append_of_pos hall, hstop.2]

theorem signedDigits_decimal (n : Nat) {r : Bytes} (hr : ∀ b ∈ r.head?, isDigit b = false) :
    signedDigits (decimal (n + 1) n ++ r) = some (false, n) := by
  have hdigits := (digits_decimal n hr).1
  obtain ⟨c, cs, hc⟩ := List.exists_cons_of_ne_nil (decimal_ne_nil n n)
  have hfirst : isDigit c = true := isDigit_of_mem_decimal (hc ▸ List.mem_cons_self)
  have hdigit : ∀ k : Fin 256, isDigit (.ofFin k) = true →
      isSpace (.ofFin k) = false ∧ UInt8.ofFin k ≠ 45 ∧ UInt8.ofFin k ≠ 43 := by
    decide +kernel
  obtain ⟨hspace, hminus, hplus⟩ := hdigit c.toFin hfirst
  rw [hc, List.cons_append] at hdigits ⊢
  rw [signedDigits, List.dropWhile_cons_of_neg (by rw [show isSpace c = false from hspace]; simp)]
  split
  · rename_i heq
    exact absurd (List.cons.inj heq).1 hminus
  · rename_i heq
    exact absurd (List.cons.inj heq).1 hplus
  · rw [hdigits, Option.map_some]

theorem stoull_decimal {n : Nat} (hn : n < 2 ^ 64) {rest : Bytes}
    (hrest : ∀ b, rest.head? = some b → isDigit b = false) :
    stoull (decimal (n + 1) n ++ rest) = some n := by
  rw [stoull, signedDigits_decimal n hrest]
  simp only [Bool.false_eq_true, if_false, if_pos hn]

theorem readNumber_append (hb : isDigit b = false) (rest : Bytes) :
    readNumber (numberText i ++ b :: rest) = some (i, b :: rest) := by
  obtain ⟨hread, hdrop⟩ := digits_decimal i.natAbs (r := b :: rest) (by simpa using hb)
  unfold numberText
  split
  · rename_i hneg
    rw [List.cons_append, readNumber, hread, hdrop, Option.map_some]
    congr 2
    omega
  rename_i hpos
  have hfirst : ∀ tail, decimal (i.natAbs + 1) i.natAbs ++ b :: rest ≠ 45 :: tail := by
    intro tail heq
    obtain ⟨c, cs, hc⟩ := List.exists_cons_of_ne_nil (decimal_ne_nil i.natAbs i.natAbs)
    rw [hc, List.cons_append] at heq
    have hdigit : isDigit c = true := isDigit_of_mem_decimal (hc ▸ List.mem_cons_self)
    rw [(List.cons.inj heq).1] at hdigit
    exact absurd hdigit (by decide)
  rw [readNumber.eq_2 _ hfirst, hread, hdrop, Option.map_some]
  congr 2
  omega

theorem numberText_length_pos : 0 < (numberText i).length := by
  have hpos := List.length_pos_of_ne_nil (decimal_ne_nil i.natAbs i.natAbs)
  unfold numberText
  split
  · exact Nat.succ_pos _
  · exact hpos

theorem length_lt_itemsText (nodes : List Int) : nodes.length < (itemsText nodes).length := by
  induction nodes with
  | nil => exact Nat.one_pos
  | cons i rest ih =>
    have hpos := numberText_length_pos i
    cases rest with
    | nil =>
      rw [itemsText, List.length_append]
      simp only [List.length_cons, List.length_nil]
      omega
    | cons j rest =>
      rw [itemsText, List.length_append]
      · simp only [List.length_cons] at ih ⊢
        omega
      · exact List.cons_ne_nil j rest

theorem readItems_itemsText {nodes : List Int} (hne : nodes ≠ [])
    (h : nodes.length ≤ rounds) : readItems rounds (itemsText nodes) = some nodes := by
  induction nodes generalizing rounds with
  | nil => exact absurd rfl hne
  | cons i rest ih =>
    obtain ⟨rounds, rfl⟩ : ∃ k, rounds = k + 1 := ⟨rounds - 1, by simp at h; omega⟩
    cases rest with
    | nil =>
      rw [itemsText, readItems, readNumber_append i (by decide) []]
      rfl
    | cons j rest =>
      have hrest := ih (List.cons_ne_nil j rest) (Nat.le_of_succ_le_succ h)
      rw [itemsText, readItems, readNumber_append i (by decide)]
      · dsimp only
        rw [if_pos rfl, hrest, Option.map_some]
      · exact List.cons_ne_nil j rest

theorem readList_listText (nodes : List Int) : readList (listText nodes) = some nodes := by
  rw [listText, readList]
  cases nodes with
  | nil => rfl
  | cons i rest =>
    have hlen := length_lt_itemsText (i :: rest)
    rw [if_neg, readItems_itemsText (List.cons_ne_nil i rest) (Nat.le_of_lt hlen)]
    intro heq
    rw [heq] at hlen
    simp at hlen

theorem colon_notMem_numberText : 58 ∉ numberText i := by
  have hdec : 58 ∉ decimal (i.natAbs + 1) i.natAbs := fun h =>
    absurd (isDigit_of_mem_decimal h) (by decide)
  unfold numberText
  split
  · simp only [List.mem_cons, not_or]
    exact ⟨by decide, hdec⟩
  · exact hdec

theorem colon_notMem_listText (nodes : List Int) : 58 ∉ listText nodes := by
  have hitems : 58 ∉ itemsText nodes := by
    induction nodes with
    | nil => decide
    | cons i rest ih =>
      have hi := colon_notMem_numberText i
      cases rest with
      | nil =>
        rw [itemsText, List.mem_append, not_or]
        exact ⟨hi, by decide⟩
      | cons j rest =>
        rw [itemsText, List.mem_append, not_or, List.mem_cons, not_or]
        · exact ⟨hi, by decide, ih⟩
        · exact List.cons_ne_nil j rest
  rw [listText, List.mem_cons, not_or]
  exact ⟨by decide, hitems⟩

theorem map_jsonInt (nodes : List NodeId) :
    (nodes.map fun i => if 0 ≤ i then Json.unsigned i.toNat else .integer i).map jsonInt =
      nodes := by
  rw [List.map_map]
  conv_rhs => rw [← List.map_id nodes]
  apply List.map_congr_left
  intro i _
  show jsonInt (if 0 ≤ i then Json.unsigned i.toNat else .integer i) = i
  split
  · exact Int.toNat_of_nonneg ‹_›
  · rfl

theorem listJson_printsLists : listJson.PrintsLists := by
  intro nodes _
  refine ⟨listText nodes, ?_, colon_notMem_listText nodes, ?_⟩
  · show Except.ok (listText _) = _
    rw [map_jsonInt]
  · show (match readList (listText nodes) with | some ns => _ | none => _) = _
    rw [readList_listText]

example : listText [1, -20, 305] = ascii "[1,-20,305]" := by decide +kernel

/-- Node 1 of three, which holds no pre-votes and reads lists of nodes. -/
def readingOne : Options := { votingOne with json := listJson }

end RollingRaft
