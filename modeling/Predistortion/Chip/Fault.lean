import Predistortion.Chip.Request

/-!
# Injected faults

A `Fault` makes the simulated chip misbehave. Some refuse every call of one kind, or every one after
the first few; some act on the commands of one object; one freezes the actuator clock.
-/

namespace Predistortion

/-- A failure scenario. -/
inductive Fault where
  /-- The first `count` calls of a kind succeed and all later ones fail on the bus. -/
  | failAfter (kind : Request.Kind) (count : UInt32)
  /-- Every call of a kind times out. -/
  | timeout (kind : Request.Kind)
  /-- Every call of a kind reports that only a reset helps. -/
  | resetRequired (kind : Request.Kind)
  /-- Commands for an object are not carried out and leave a status. -/
  | commandStatus (object status : UInt8)
  /-- The status wait of an object's command ends with a firmware error. -/
  | deviceError (object : UInt8) (code : UInt32)
  /-- The actuator clock never changes. -/
  | clockStuck
deriving DecidableEq, Inhabited

namespace Fault

/-- The error with which the fault refuses a call of a kind, when it is the `ordinal`-th one. -/
def refusal? (f : Fault) (kind : Request.Kind) (ordinal : Nat) : Option TransportError :=
  match f with
  | .failAfter target count =>
    if target = kind ∧ ordinal > count.toNat then
      some (.bus s!"injected failure on {kind.name} after {count.toNat} calls")
    else none
  | .timeout target => if target = kind then some (.timeout kind.name 0) else none
  | .resetRequired target =>
    if target = kind then some (.resetRequired s!"injected reset on {kind.name}") else none
  | _ => none

/-- The status that the fault forces on a command for an object. -/
def forcedStatus? (f : Fault) (object : UInt8) : Option UInt8 :=
  match f with
  | .commandStatus target status => if target = object then some status else none
  | _ => none

/-- The firmware error that the fault reports for a command for an object. -/
def deviceCode? (f : Fault) (object : UInt8) : Option UInt32 :=
  match f with
  | .deviceError target code => if target = object then some code else none
  | _ => none

end Fault

end Predistortion
