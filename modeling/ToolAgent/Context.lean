/-
What an agent remembers of a conversation. All messages are stored; a window
limits how many of the last ones the model gets to see.
-/
import ToolAgent.Message

namespace ToolAgent

/-- How much of the stored messages the model sees. -/
inductive Window where
  | all
  | last (size : Nat) (pos : 0 < size)
  deriving DecidableEq, Repr

structure Context where
  messages : List Message
  window : Window
  deriving DecidableEq, Repr

namespace Context

def unbounded : Context := ⟨[], .all⟩

/-- Shows the last messages only, at least one. -/
def buffered (size : Nat) : Context := ⟨[], .last (max size 1) (by omega)⟩

def bufferSize? (c : Context) : Option Nat :=
  match c.window with
  | .all => none
  | .last size _ => some size

def add (c : Context) (m : Message) : Context := { c with messages := c.messages ++ [m] }

def addAll (c : Context) (ms : List Message) : Context := { c with messages := c.messages ++ ms }

/-- The messages without leading tool results: those of one batch at most, for which
the model would not see the calls. -/
def dropOrphan : List Message → List Message
  | [] => []
  | m :: ms => if m.isToolResults then ms else m :: ms

theorem dropOrphan_cons (m : Message) (ms : List Message) :
    dropOrphan (m :: ms) = if m.isToolResults then ms else m :: ms := rfl

/-- The messages the model sees. -/
def visible (c : Context) : List Message :=
  match c.window with
  | .all => c.messages
  | .last size _ => dropOrphan (c.messages.drop (c.messages.length - size))

def clear (c : Context) : Context := { c with messages := [] }

def size (c : Context) : Nat := c.messages.length

def isEmpty (c : Context) : Bool := c.messages.isEmpty

def save (c : Context) : Transcript := ⟨c.messages⟩

/-- Takes the messages of a transcript in place of its own. -/
def load (c : Context) (t : Transcript) : Context := { c with messages := t.messages }

/-- The text of the last message of a user. -/
def lastUserText? (c : Context) : Option String := c.messages.reverse.findSome? Message.userText?

@[simp] theorem addAll_messages (c : Context) (ms : List Message) :
    (c.addAll ms).messages = c.messages ++ ms := rfl

@[simp] theorem addAll_window (c : Context) (ms : List Message) : (c.addAll ms).window = c.window := rfl

@[simp] theorem addAll_nil (c : Context) : c.addAll [] = c := by simp [addAll]

@[simp] theorem addAll_addAll (c : Context) (ms ns : List Message) :
    (c.addAll ms).addAll ns = c.addAll (ms ++ ns) := by simp [addAll]

end Context
end ToolAgent
