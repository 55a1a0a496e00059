/-
# RollingRaft.Types — the core types of `types.h`, and the arithmetic they bring along.

`Term` and `Index` are `uint32_t` in the code. They are natural numbers here and every addition or
subtraction that may wrap is written with `add32` and `sub32`, so that what depends on the wrap
shows in the definitions. `NodeId` is an `int32_t` on which nothing computes. Times are
milliseconds of the timer service's clock.
-/
import Mathlib.Data.List.AList
import Mathlib.Data.Finset.Card
import RollingRaft.Lib.ByteString

namespace RollingRaft

open Lib

abbrev NodeId := Int

abbrev Term := Nat

abbrev Index := Nat

abbrev Time := Int

/-- The code's `unordered_map`s; nothing depends on the order of their entries. -/
abbrev Map (κ : Type) [DecidableEq κ] (α : Type) := AList fun _ : κ => α

/-- `uint32_t` addition. -/
def add32 (a b : Nat) : Nat := (a + b) % 2 ^ 32

/-- `uint32_t` subtraction. -/
def sub32 (a b : Nat) : Nat := (a + (2 ^ 32 - b % 2 ^ 32)) % 2 ^ 32

theorem add32_of_lt {a b : Nat} (h : a + b < 2 ^ 32) : add32 a b = a + b := Nat.mod_eq_of_lt h

/-- `RaftNodeRole`. -/
inductive Role where
  | follower | candidate | leader
  deriving DecidableEq

/-- `RaftLogEntry`. -/
structure LogEntry where
  index : Index
  term : Term
  data : Bytes
  deriving DecidableEq

/-- What a call to `SaveState` does. A call that fails may still have replaced the file: writing
the new file succeeded and syncing the directory did not. -/
inductive SaveResult where
  | ok | failed | failedWritten
  deriving DecidableEq

end RollingRaft
