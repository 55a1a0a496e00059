/-
# RollingRaft.Json — the JSON values the code reads and the conversions it asks of them.

The JSON library is third-party code: its text parser and printer are parameters (`JsonText`), and
so is the truncation of a double. What the code does with a parsed value is documented behaviour of
that library and is defined here: `contains` is false on anything but an object, an implicit
conversion to an integer accepts any number or boolean and keeps the low 32 bits, a conversion to a
string accepts a string only, and `value(key, default)` needs an object. Every failed conversion is
an exception carrying the library's message.
-/
import RollingRaft.Lib.ByteString

namespace RollingRaft

open Lib

/-- A parsed JSON value. Non-negative integers are `unsigned`, negative ones `integer`; a float is
kept as the bits of its double. -/
inductive Json where
  | null
  | bool (b : Bool)
  | integer (i : Int)
  | unsigned (n : Nat)
  | float (bits : UInt64)
  | string (s : Bytes)
  | array (items : List Json)
  | object (fields : List (Bytes × Json))

/-- The third-party parts: `json::parse` (the error is `e.what()`), `dump` (which throws on a string
that is not valid UTF-8) and `static_cast<int>(double)`. -/
structure JsonText where
  parse : Bytes → Except Bytes Json
  dump : Json → Except Bytes Bytes
  truncate : UInt64 → Int

namespace Json

/-- `type_name()`. -/
def typeName : Json → Bytes
  | null => ascii "null"
  | bool _ => ascii "boolean"
  | integer _ | unsigned _ | float _ => ascii "number"
  | string _ => ascii "string"
  | array _ => ascii "array"
  | object _ => ascii "object"

/-- `j[key]` of an object, when the key is there. -/
def get? (j : Json) (key : Bytes) : Option Json :=
  match j with
  | object fields => fields.lookup key
  | _ => none

/-- `j.contains(key)`. -/
def contains (j : Json) (key : Bytes) : Bool := (j.get? key).isSome

/-- The two's complement value of the low 32 bits. -/
def toInt32 (i : Int) : Int := (i + 2 ^ 31) % 2 ^ 32 - 2 ^ 31

/-- Implicit conversion to `int32_t`. -/
def asInt32 (js : JsonText) (j : Json) : Except Bytes Int :=
  match j with
  | bool b => .ok (if b then 1 else 0)
  | integer i => .ok (toInt32 i)
  | unsigned n => .ok (toInt32 n)
  | float bits => .ok (js.truncate bits)
  | _ => .error (ascii "[json.exception.type_error.302] type must be number, but is " ++ j.typeName)

/-- Implicit conversion to `std::string`. -/
def asString (j : Json) : Except Bytes Bytes :=
  match j with
  | string s => .ok s
  | _ => .error (ascii "[json.exception.type_error.302] type must be string, but is " ++ j.typeName)

/-- `j.value(key, 0)`: an `int`. -/
def valueInt (js : JsonText) (j : Json) (key : Bytes) : Except Bytes Int :=
  match j with
  | object _ =>
    match j.get? key with
    | some v => v.asInt32 js
    | none => .ok 0
  | _ => .error (ascii "[json.exception.type_error.306] cannot use value() with " ++ j.typeName)

/-- An `int` stored into a `uint64_t`. -/
def toUInt64 (i : Int) : Nat := (i % 2 ^ 64).toNat

/-- `j == -1`. The comparison of an unsigned value goes through `int64_t`. -/
def eqMinusOne : Json → Bool
  | integer i => i = -1
  | unsigned n => n = 2 ^ 64 - 1
  | float bits => bits = 0xBFF0000000000000
  | _ => false

/-- `j == "text"`. -/
def eqText (j : Json) (text : Bytes) : Bool :=
  match j with
  | string s => s = text
  | _ => false

/-- What a range-based `for` over a value visits. -/
def items : Json → List Json
  | array items => items
  | object fields => fields.map (·.2)
  | null => []
  | j => [j]

/-- `j.is_null()`. -/
def isNull : Json → Bool
  | null => true
  | _ => false

end Json

end RollingRaft
