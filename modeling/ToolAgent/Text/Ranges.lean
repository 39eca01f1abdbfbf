/-
Sets of characters given as ascending ranges of code points.
-/
namespace ToolAgent.Text

/-- Some range holds the number. The ranges ascend, so the search stops early. -/
def covers : List (Nat × Nat) → Nat → Bool
  | [], _ => false
  | (first, last) :: rest, n => if n < first then false else if n ≤ last then true else covers rest n

end ToolAgent.Text
