import NatBehaviour.Wire.Listeners

/-!
The ports of the three listeners. Any port but zero may be used only once. A responder whose port is zero
gets one that the system chooses; to a client zero is a port like any other, but nothing can be sent to it.
-/

namespace NatBehaviour.Settings

open NatBehaviour.Wire (Listeners)

abbrev Ports := Listeners UInt16

/-- The well-known ports. -/
def defaultPorts : Ports := ⟨3478, 3479, 3480⟩

/-- The first element that comes again later. -/
def firstRepeated? : List UInt16 → Option UInt16
  | [] => none
  | p :: ps => if ps.contains p then some p else firstRepeated? ps

/-- A port other than zero that is used more than once. -/
def repeated? (ports : Ports) : Option UInt16 :=
  firstRepeated? (ports.toList.filter (· ≠ 0))

end NatBehaviour.Settings
