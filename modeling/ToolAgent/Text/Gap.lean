/-
What does not count between the parts of a document: blanks, short comments up to the
end of their line, and long ones between marks of their own.
-/
namespace ToolAgent.Text

structure Gap where
  isSpace : Char → Bool
  /-- Ends a short comment. -/
  isLineEnd : Char → Bool
  /-- Whether a long comment may hold others. -/
  nests : Bool

namespace Gap

/-- The text after the end of a long comment, in which so many others are open. -/
def afterComment? (nests : Bool) (inner : Nat) : List Char → Option (List Char)
  | '*' :: '/' :: cs => if inner = 0 then some cs else afterComment? nests (inner - 1) cs
  | '/' :: '*' :: cs =>
    if nests then afterComment? nests (inner + 1) cs else afterComment? nests inner ('*' :: cs)
  | _ :: cs => afterComment? nests inner cs
  | [] => none

/-- Skips blanks and comments, in at most so many steps. A comment that has no end is
left. -/
def skip (g : Gap) : Nat → List Char → List Char
  | bound + 1, '/' :: '/' :: cs => g.skip bound (cs.dropWhile (!g.isLineEnd ·))
  | bound + 1, '/' :: '*' :: cs =>
    match afterComment? g.nests 0 cs with
    | some rest => g.skip bound rest
    | none => '/' :: '*' :: cs
  | bound + 1, c :: cs => if g.isSpace c then g.skip bound cs else c :: cs
  | _, cs => cs

/-- The text after a gap, which may be empty. -/
def after (g : Gap) (cs : List Char) : List Char := g.skip (cs.length + 1) cs

end Gap
end ToolAgent.Text
