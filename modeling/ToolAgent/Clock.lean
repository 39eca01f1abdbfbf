/-
The time within a step and the token that cancels it. The token is cancelled from
within, or from outside at an instant known beforehand.
-/
namespace ToolAgent

structure Clock where
  now : Nat
  cancelled : Bool
  /-- The instant of cancellation from outside. -/
  alarm : Option Nat
  deriving DecidableEq, Repr, Inhabited

namespace Clock

/-- Never cancelled from outside. -/
def start : Clock := ⟨0, false, none⟩

/-- Cancelled before it starts. -/
def stopped : Clock := ⟨0, true, none⟩

def isCancelled (c : Clock) : Bool := c.cancelled || c.alarm.any (· ≤ c.now)

def cancel (c : Clock) : Clock := { c with cancelled := true }

/-- Lets so many milliseconds pass. -/
def sleep (c : Clock) (ms : Nat) : Clock := { c with now := c.now + ms }

end Clock
end ToolAgent
