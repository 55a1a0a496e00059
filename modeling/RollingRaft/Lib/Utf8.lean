/-
# RollingRaft.Lib.Utf8 — which byte strings are UTF-8.

The machine of RFC 3629: between characters, or inside one with a range for the next byte and a
number of further continuation bytes. A byte string is valid when the machine accepts every byte and
ends between characters.
-/
import RollingRaft.Lib.ByteString

namespace RollingRaft.Lib

/-- Inside a character: the next byte is between `low` and `high`, and `more` continuation bytes
follow it. -/
structure Utf8Tail where
  low : UInt8
  high : UInt8
  more : Nat
  deriving DecidableEq

/-- After the first byte of a character: `none` when no character starts with it, `some none` when
it is a character of its own. -/
def utf8First (b : UInt8) : Option (Option Utf8Tail) :=
  if b ≤ 0x7F then some none
  else if 0xC2 ≤ b && b ≤ 0xDF then some (some ⟨0x80, 0xBF, 0⟩)
  -- the shortest form only
  else if b = 0xE0 then some (some ⟨0xA0, 0xBF, 1⟩)
  -- no surrogates
  else if b = 0xED then some (some ⟨0x80, 0x9F, 1⟩)
  else if 0xE1 ≤ b && b ≤ 0xEF then some (some ⟨0x80, 0xBF, 1⟩)
  else if b = 0xF0 then some (some ⟨0x90, 0xBF, 2⟩)
  else if 0xF1 ≤ b && b ≤ 0xF3 then some (some ⟨0x80, 0xBF, 2⟩)
  -- nothing above U+10FFFF
  else if b = 0xF4 then some (some ⟨0x80, 0x8F, 2⟩)
  else none

def utf8Step : Option Utf8Tail → UInt8 → Option (Option Utf8Tail)
  | none, b => utf8First b
  | some t, b =>
    if t.low ≤ b && b ≤ t.high then
      match t.more with
      | 0 => some none
      | more + 1 => some (some ⟨0x80, 0xBF, more⟩)
    else none

def utf8Run (s : Option Utf8Tail) : Bytes → Option (Option Utf8Tail)
  | [] => some s
  | b :: rest => (utf8Step s b).bind fun s => utf8Run s rest

def validUtf8 (text : Bytes) : Bool := utf8Run none text = some none

example : validUtf8 [0xE2, 0x82, 0xAC] = true ∧ validUtf8 [0xE2, 0x82] = false ∧
    validUtf8 [0xFF] = false := by
  decide +kernel

end RollingRaft.Lib
