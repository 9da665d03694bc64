import Pjon.Model.Templates
/-!
# Indices of attached buses

The array `buses` has elements for the attached buses only.  A `uint8_t` that may be used as an
index of it is the index of an attached bus or `PJON_NOT_ASSIGNED`, which must not be used.
-/

namespace Pjon.Spec

open Pjon.Lib Pjon.Model

def Names (busCount k : UInt8) : Prop := k < busCount ∨ k = notAssigned

instance (busCount k : UInt8) : Decidable (Names busCount k) := by
  unfold Names
  exact inferInstance

/-- An object that is not in one of its members: the default gateway and the routes that it was
given, and what it has learned, name attached buses. -/
structure Configured (x : BuiltObject) : Prop where
  gateway : Names x.busCount x.defaultGateway
  rows : ∀ row ∈ x.table, Names x.busCount row.viaAttachedBus
  devices : ∀ level deviceId,
    Names x.busCount ((x.virtualBuses level).deviceViaAttachedBus deviceId)
  idle : x.currentBus = notAssigned

/-- Every index that the member uses is that of an attached bus. -/
def InRange {α : Type} (m : Member α) (x : BuiltObject) : Prop := ∀ k, m x ≠ .error k

end Pjon.Spec
