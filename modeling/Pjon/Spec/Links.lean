import Pjon.Model.UDPHelper
/-!
# Links that carry frames

What goes in at one end of a link comes out at the other.
-/

namespace Pjon.Spec

open Pjon.Lib Pjon.Model

/-- The datagram that one helper writes for a frame, if it arrives intact, is returned as that
frame by the other. -/
def CarriesFrame {α : Type} (sender receiver : Posix.UDPHelper α) (maxLength : Nat) (source : α)
    (frame string : Memory) (length : Nat) : Prop :=
  let arrival := (sender.sendFrame frame length).map fun datagram => (source, datagram)
  let received := receiver.receiveFrame string maxLength arrival
  received.result = length ∧ received.string.load 0 length = frame.load 0 length

end Pjon.Spec
