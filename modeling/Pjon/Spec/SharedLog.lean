import Pjon.Model.LocalFile
import Pjon.Lib.Run
import Mathlib.Data.List.Chain
import Mathlib.Logic.Function.Basic
/-!
# A log that readers follow

Instances that share a file: what is sent makes a log, and every reader follows the log at its
own pace.  The file holds the last entries only, so that a reader that is too slow misses some.
-/

namespace Pjon.Spec

open Pjon.Lib Pjon.Model Pjon.Model.LocalFile

/-- What an instance calls.  Each call is one step, since it is made under the lock of the file. -/
inductive FileCall (ι : Type) (s : Settings) where
  | send (sender : ι) (frame : Frame s)
  | receive (reader : ι) (maxLength : Nat)

/-- A poll of a reader: how many entries the log has, and what `receive_frame` returns. -/
structure Visit where
  entries : Nat
  maxLength : Nat
  result : Option (List UInt8)
  deriving DecidableEq, Repr

/-- The file, the instances, the log of what was written and the polls of each instance. -/
structure Shared (ι : Type) (s : Settings) where
  file : ContentFile s := {}
  instances : ι → Strategy := fun _ => {}
  log : List (Frame s) := []
  visits : ι → List Visit := fun _ => []

variable {ι : Type} [DecidableEq ι] {s : Settings}

namespace Shared

/-- A frame is written if the sender gets `PJON_ACK` for it. -/
def step (x : Shared ι s) : FileCall ι s → Shared ι s
  | .send sender frame =>
    let sent := (x.instances sender).sendFrame x.file frame
    { x with
      file := sent.2
      instances := Function.update x.instances sender sent.1
      log := if sent.1.receiveResponse = ack then x.log ++ [frame] else x.log }
  | .receive reader maxLength =>
    let received := (x.instances reader).receiveFrame x.file maxLength
    let visit := { entries := x.log.length, maxLength := maxLength, result := received.1 }
    { x with
      instances := Function.update x.instances reader received.2
      visits := Function.update x.visits reader (x.visits reader ++ [visit]) }

end Shared

/-- The polls from the first one on that returned something. -/
def sinceFirst (visits : List Visit) : List Visit := visits.dropWhile fun v => v.result.isNone

/-- The polls before that. -/
def untilFirst (visits : List Visit) : List Visit := visits.takeWhile fun v => v.result.isNone

/-- Fewer than 0x8FFE entries are written between two polls. -/
def Timely (visits : List Visit) : Prop :=
  visits.IsChain fun v w => w.entries - v.entries < 0x8FFE

/-- A poll with the entry that it returns. -/
structure Reading extends Visit where
  entry : Option Nat
  deriving DecidableEq, Repr

/-- The entries that are read. -/
def entriesRead (readings : List Reading) : List Nat := readings.filterMap Reading.entry

/-- The poll has nothing to return up to entry `k`: it returns a later one, or nothing although
`k` was written. -/
def Skips (reading : Reading) (k : Nat) : Prop :=
  match reading.entry with
  | some m => k < m
  | none => k < reading.entries

/-- The readings follow a log whose last `q` entries can be read. -/
structure Follows (q : Nat) (log : List (Frame s)) (readings : List Reading) : Prop where
  returns : ∀ r ∈ readings, r.result =
    r.entry.bind fun k => log[k]?.map fun frame => frame.bytes.take r.maxLength
  written : ∀ r ∈ readings, ∀ k, r.entry = some k → k < r.entries ∧ r.entries ≤ log.length
  ordered : (entriesRead readings).Pairwise (· < ·)
  complete : ∀ before r after, readings = before ++ r :: after →
    ∀ first, (entriesRead readings).head? = some first → ∀ k, first < k → Skips r k →
      k ∈ entriesRead (before ++ [r]) ∨ k + q < r.entries

end Pjon.Spec
