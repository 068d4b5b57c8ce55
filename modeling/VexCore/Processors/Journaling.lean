import VexCore.Networking.Publications

/-!
# Journaling

The journaling processor stamps a command and offers it to the archive. What the id generator
and the clock answer for one command is its stamp. An error of the generator is unwrapped and ends
the handler's thread: such a run is one in which journaling comes no further.
-/

namespace VexCore

structure Stamp where
  orderId : Nat
  timestamp : Nat
deriving DecidableEq, Repr

/-- The command with its stamp; a cancellation keeps the id it names. -/
def Stamp.apply (stamp : Stamp) (cmd : OrderCommand) : OrderCommand :=
  if cmd.command ≠ .cancelOrder then
    { cmd with orderId := stamp.orderId, timestamp := stamp.timestamp }
  else { cmd with timestamp := stamp.timestamp }

/-- The stamped command, and the record that the archive gets of it; neither during a replay. -/
def journalCommand (replayEnabled : Bool) (stamp : Stamp)
    (publications : Networking.Publications Networking.Offer) (cmd : OrderCommand) :
    OrderCommand × Option OrderRecord :=
  if replayEnabled then (cmd, none)
  else (stamp.apply cmd, publications.publishToArchive (stamp.apply cmd))

end VexCore
