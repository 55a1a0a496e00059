/-
# RollingRaft.Protocol.JsonValue — JSON values as the protocol builds and reads them.

`Json.lean` has what the code asks of a parsed value. Here is the other direction: an object is a
`std::map`, so `j[key] = value` keeps its members ordered by key, and `j.get<T>()` for the widths of
the message fields. A number has lost its C++ type once it is text: a non-negative one is read back
as `unsigned`.

What is asked of the library is `JsonLibrary.Exact` (integers of 64 bits and valid UTF-8 strings are
printed and parsed exactly) and `JsonLibrary.Refuses` (`dump` throws on a string that is not valid
UTF-8).
-/
import RollingRaft.Lib.Utf8
import RollingRaft.Json

namespace RollingRaft

open Lib

/-- The library with the two further conversions of doubles, `static_cast<uint32_t>` and
`static_cast<uint64_t>`. -/
structure JsonLibrary extends JsonText where
  floatToUInt32 : UInt64 → UInt32
  floatToUInt64 : UInt64 → UInt64

namespace Json

/-! ## §1 — Building a value. -/

/-- `std::map::operator[]` and an assignment. -/
def setField (key : Bytes) (value : Json) : List (Bytes × Json) → List (Bytes × Json)
  | [] => [(key, value)]
  | f :: fields =>
    if key = f.1 then (key, value) :: fields
    else if key < f.1 then (key, value) :: f :: fields
    else f :: setField key value fields

/-- The object that a sequence of assignments `j[key] = value` leaves. -/
def ofFields (fields : List (Bytes × Json)) : Json :=
  .object (fields.foldl (fun members f => setField f.1 f.2 members) [])

/-- An integer as it reads in the text. -/
def ofInt (i : Int) : Json := if 0 ≤ i then .unsigned i.toNat else .integer i

theorem lookup_cons_eq_ite (key key' : Bytes) (value : Json) (fields : List (Bytes × Json)) :
    ((key, value) :: fields).lookup key'
      = if key' = key then some value else fields.lookup key' := by
  rw [List.lookup_cons]
  by_cases h : key' = key
  · rw [if_pos h, beq_iff_eq.mpr h]
  · rw [if_neg h, beq_eq_false_iff_ne.mpr h]

theorem lookup_setField (key key' : Bytes) (value : Json) (fields : List (Bytes × Json)) :
    (setField key value fields).lookup key'
      = if key' = key then some value else fields.lookup key' := by
  induction fields with
  | nil => exact lookup_cons_eq_ite key key' value []
  | cons f fields ih =>
    obtain ⟨k, v⟩ := f
    rw [setField]
    split
    · rename_i hkey
      rw [lookup_cons_eq_ite, lookup_cons_eq_ite, ← (show key = k from hkey)]
      split <;> rfl
    rename_i hkey
    split
    · exact lookup_cons_eq_ite key key' value _
    rw [lookup_cons_eq_ite, ih, lookup_cons_eq_ite]
    by_cases h : key' = k
    · have hne : key' ≠ key := fun h' => hkey (h'.symm.trans h)
      rw [if_pos h, if_neg hne, if_pos h]
    · rw [if_neg h, if_neg h]

def Ordered (fields : List (Bytes × Json)) : Prop :=
  fields.Pairwise fun f g => f.1 < g.1

instance (fields : List (Bytes × Json)) : Decidable (Ordered fields) :=
  inferInstanceAs (Decidable (List.Pairwise _ fields))

variable (js : JsonLibrary) (n : UInt32) {fields : List (Bytes × Json)} {f : Bytes × Json}
  {items : List Json}

theorem mem_setField {key : Bytes} {value : Json} (h : f ∈ setField key value fields) :
    f = (key, value) ∨ f ∈ fields := by
  induction fields with
  | nil => exact .inl (List.mem_singleton.mp h)
  | cons g fields ih =>
    rw [setField] at h
    split at h
    · rcases List.mem_cons.mp h with h | h
      · exact .inl h
      · exact .inr (List.mem_cons_of_mem g h)
    split at h
    · exact List.mem_cons.mp h
    rcases List.mem_cons.mp h with h | h
    · exact .inr (h ▸ List.mem_cons_self)
    · exact (ih h).imp_right (List.mem_cons_of_mem g)

theorem Ordered.setField (h : Ordered fields) (key : Bytes) (value : Json) :
    Ordered (setField key value fields) := by
  induction fields with
  | nil => exact List.pairwise_singleton _ _
  | cons f fields ih =>
    obtain ⟨hf, hfields⟩ := List.pairwise_cons.mp h
    rw [Json.setField]
    split
    · rename_i hkey
      exact List.pairwise_cons.mpr ⟨fun g hg => hkey ▸ hf g hg, hfields⟩
    rename_i hne
    split
    · rename_i hlt
      refine List.pairwise_cons.mpr ⟨fun g hg => ?_, h⟩
      rcases List.mem_cons.mp hg with rfl | hg
      · exact hlt
      · exact List.lt_trans hlt (hf g hg)
    rename_i hge
    refine List.pairwise_cons.mpr ⟨fun g hg => ?_, ih hfields⟩
    rcases mem_setField hg with rfl | hg
    · exact Std.lt_of_le_of_ne (List.not_lt.mp hge) fun h => hne h.symm
    · exact hf g hg

theorem get?_ofFields (fields : List (Bytes × Json)) (key : Bytes) :
    (ofFields fields).get? key = fields.reverse.lookup key := by
  suffices h : ∀ members : List (Bytes × Json),
      (fields.foldl (fun members f => setField f.1 f.2 members) members).lookup key
        = (fields.reverse ++ members).lookup key by
    have hnil := h []
    rwa [List.append_nil] at hnil
  induction fields with
  | nil => intro members; rfl
  | cons f fields ih =>
    intro members
    rw [List.foldl_cons, ih, List.reverse_cons, List.append_assoc]
    rw [List.lookup_append, List.lookup_append, lookup_setField, ← lookup_cons_eq_ite,
      List.singleton_append]

theorem ordered_ofFields (fields members : List (Bytes × Json)) (h : Ordered members) :
    Ordered (fields.foldl (fun members f => setField f.1 f.2 members) members) := by
  induction fields generalizing members with
  | nil => exact h
  | cons f fields ih => exact ih _ (h.setField f.1 f.2)

theorem mem_ofFields {members : List (Bytes × Json)}
    (h : f ∈ fields.foldl (fun members f => setField f.1 f.2 members) members) :
    f ∈ fields ∨ f ∈ members := by
  induction fields generalizing members with
  | nil => exact .inr h
  | cons g fields ih =>
    rcases ih h with h | h
    · exact .inl (List.mem_cons_of_mem g h)
    · rcases mem_setField h with rfl | h
      · exact .inl List.mem_cons_self
      · exact .inr h

/-! ## §2 — Values that are printed and parsed exactly. -/

mutual

/-- The strings of a value, keys included, are valid UTF-8. -/
def textsValid : Json → Bool
  | .string s => validUtf8 s
  | .array items => itemsValid items
  | .object fields => fieldsValid fields
  | _ => true

def itemsValid : List Json → Bool
  | [] => true
  | j :: items => textsValid j && itemsValid items

def fieldsValid : List (Bytes × Json) → Bool
  | [] => true
  | (key, j) :: fields => validUtf8 key && textsValid j && fieldsValid fields

end

mutual

/-- The numbers are 64-bit integers with the sign their kind says, and objects are ordered. -/
def canonical : Json → Bool
  | .integer i => -2 ^ 63 ≤ i && i < 0
  | .unsigned n => n < 2 ^ 64
  | .float _ => false
  | .array items => itemsCanonical items
  | .object fields => Ordered fields && fieldsCanonical fields
  | _ => true

def itemsCanonical : List Json → Bool
  | [] => true
  | j :: items => canonical j && itemsCanonical items

def fieldsCanonical : List (Bytes × Json) → Bool
  | [] => true
  | (_, j) :: fields => canonical j && fieldsCanonical fields

end

theorem itemsValid_iff : itemsValid items = true ↔ ∀ j ∈ items, j.textsValid = true := by
  induction items with
  | nil => simp [itemsValid]
  | cons j items ih => simp [itemsValid, ih]

theorem fieldsValid_iff :
    fieldsValid fields = true ↔
      ∀ f ∈ fields, validUtf8 f.1 = true ∧ f.2.textsValid = true := by
  induction fields with
  | nil => simp [fieldsValid]
  | cons f fields ih => simp [fieldsValid, ih]

theorem itemsCanonical_iff : itemsCanonical items = true ↔ ∀ j ∈ items, j.canonical = true := by
  induction items with
  | nil => simp [itemsCanonical]
  | cons j items ih => simp [itemsCanonical, ih]

theorem fieldsCanonical_iff :
    fieldsCanonical fields = true ↔ ∀ f ∈ fields, f.2.canonical = true := by
  induction fields with
  | nil => simp [fieldsCanonical]
  | cons f fields ih => simp [fieldsCanonical, ih]

theorem canonical_ofFields (h : ∀ f ∈ fields, f.2.canonical = true) :
    (ofFields fields).canonical = true := by
  rw [ofFields, canonical, Bool.and_eq_true, decide_eq_true_eq, fieldsCanonical_iff]
  refine ⟨ordered_ofFields fields [] List.Pairwise.nil, fun f hf => ?_⟩
  rcases mem_ofFields hf with hf | hf
  · exact h f hf
  · cases hf

theorem textsValid_ofFields (h : ∀ f ∈ fields, validUtf8 f.1 = true ∧ f.2.textsValid = true) :
    (ofFields fields).textsValid = true := by
  rw [ofFields, textsValid, fieldsValid_iff]
  intro f hf
  rcases mem_ofFields hf with hf | hf
  · exact h f hf
  · cases hf

theorem textsValid_of_get? {j v : Json} {key : Bytes} (hj : j.textsValid = true)
    (h : j.get? key = some v) : v.textsValid = true := by
  cases j with
  | object fields =>
    rw [textsValid, fieldsValid_iff] at hj
    obtain ⟨before, rest, rfl, -⟩ := List.lookup_eq_some_iff.mp h
    exact (hj (key, v) (List.mem_append_right before List.mem_cons_self)).2
  | _ => cases h

/-! ## §3 — Conversions. -/

def notNumber (j : Json) : Bytes :=
  ascii "[json.exception.type_error.302] type must be number, but is " ++ j.typeName

/-- `j.get<int32_t>()`. -/
def getInt32 (js : JsonText) (j : Json) : Except Bytes Int32 := (j.asInt32 js).map Int32.ofInt

/-- `j.get<uint32_t>()`. -/
def getUInt32 (js : JsonLibrary) (j : Json) : Except Bytes UInt32 :=
  match j with
  | .bool b => .ok (if b then 1 else 0)
  | .integer i => .ok (UInt32.ofInt i)
  | .unsigned n => .ok (UInt32.ofNat n)
  | .float bits => .ok (js.floatToUInt32 bits)
  | j => .error j.notNumber

/-- `j.get<uint64_t>()`: the one integer conversion here that refuses a boolean. -/
def getUInt64 (js : JsonLibrary) (j : Json) : Except Bytes UInt64 :=
  match j with
  | .integer i => .ok (UInt64.ofInt i)
  | .unsigned n => .ok (UInt64.ofNat n)
  | .float bits => .ok (js.floatToUInt64 bits)
  | j => .error j.notNumber

/-- `j.get<bool>()`. -/
def getBool (j : Json) : Except Bytes Bool :=
  match j with
  | .bool b => .ok b
  | j => .error (ascii "[json.exception.type_error.302] type must be boolean, but is " ++ j.typeName)

def ofUInt32 (n : UInt32) : Json := .unsigned n.toNat

def ofUInt64 (n : UInt64) : Json := .unsigned n.toNat

def ofInt32 (i : Int32) : Json := ofInt i.toInt

@[simp] theorem getUInt32_ofUInt32 : (ofUInt32 n).getUInt32 js = .ok n := by
  rw [ofUInt32, getUInt32, UInt32.ofNat_toNat]

@[simp] theorem getUInt64_ofUInt64 (n : UInt64) : (ofUInt64 n).getUInt64 js = .ok n := by
  rw [ofUInt64, getUInt64, UInt64.ofNat_toNat]

theorem asInt32_ofInt (js : JsonText) {i : Int} (hlow : -2 ^ 31 ≤ i) (hhigh : i < 2 ^ 31) :
    (ofInt i).asInt32 js = .ok i := by
  have hi : toInt32 i = i := by
    unfold toInt32
    omega
  unfold ofInt
  split
  · rename_i hpos
    rw [asInt32, Int.toNat_of_nonneg hpos, hi]
  · rw [asInt32, hi]

@[simp] theorem getInt32_ofInt32 (js : JsonText) (i : Int32) :
    (ofInt32 i).getInt32 js = .ok i := by
  rw [ofInt32, getInt32, asInt32_ofInt js i.le_toInt i.toInt_lt, Except.map, Int32.ofInt_toInt]

@[simp] theorem canonical_ofUInt32 : (ofUInt32 n).canonical = true := by
  have hn := n.toNat_lt
  rw [ofUInt32, canonical, decide_eq_true_eq]
  omega

@[simp] theorem canonical_ofUInt64 (n : UInt64) : (ofUInt64 n).canonical = true := by
  rw [ofUInt64, canonical, decide_eq_true_eq]
  exact n.toNat_lt

@[simp] theorem canonical_ofInt32 (i : Int32) : (ofInt32 i).canonical = true := by
  have hlow := i.le_toInt
  have hhigh := i.toInt_lt
  rw [ofInt32, ofInt]
  split
  · rw [canonical, decide_eq_true_eq]
    omega
  rw [canonical, Bool.and_eq_true, decide_eq_true_eq, decide_eq_true_eq]
  omega

@[simp] theorem textsValid_ofUInt32 : (ofUInt32 n).textsValid = true := rfl

@[simp] theorem textsValid_ofUInt64 (n : UInt64) : (ofUInt64 n).textsValid = true := rfl

@[simp] theorem textsValid_ofInt (i : Int) : (ofInt i).textsValid = true := by
  rw [ofInt]
  split <;> rfl

@[simp] theorem textsValid_ofInt32 (i : Int32) : (ofInt32 i).textsValid = true :=
  textsValid_ofInt i.toInt

end Json

/-! ## §4 — What is asked of the library. -/

/-- Values of 64-bit integers and valid strings are printed, and parsed to what was printed. -/
def JsonLibrary.Exact (js : JsonLibrary) : Prop :=
  ∀ j : Json, j.canonical = true → j.textsValid = true →
    ∃ text, js.dump j = .ok text ∧ js.parse text = .ok j

/-- `dump` throws on a value with a string that is not valid UTF-8. -/
def JsonLibrary.Refuses (js : JsonLibrary) : Prop :=
  ∀ j : Json, j.textsValid = false → ∃ what, js.dump j = .error what

/-- `dump` throws on nothing else. -/
def JsonLibrary.PrintsValid (js : JsonLibrary) : Prop :=
  ∀ j : Json, j.textsValid = true → ∃ text, js.dump j = .ok text

end RollingRaft
