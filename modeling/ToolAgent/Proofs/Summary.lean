/-
What templates come to.

The text is gone through letter by letter here: a letter that is no brace stays (`fillIn_letter`), and
at a brace there are three ways to go on (`fillIn_brace`). So a template written from literals and
placeholders is filled in part by part (`render_segments`); and whatever a template is like, it is cut
into fixed texts and slots before anything is known of what fills them (`render_fills`).
-/
import ToolAgent.Summary

namespace ToolAgent.Summary

variable {call : ToolCall} {result : ToolResult}

/-! ## Letter by letter -/

theorem fillIn_eq (cs : List Char) : fillIn call result cs = cs.takeWhile (!isBrace ·) ++
    match cs.dropWhile (!isBrace ·) with
    | [] => []
    | brace :: behind =>
      if behind.head? = some brace then brace :: fillIn call result behind.tail
      else
        match placeholder? brace behind with
        | some (key, rest) => valueOf call result key ++ fillIn call result rest
        | none => brace :: fillIn call result behind := by
  rw [fillIn]
  congr 1
  split
  next h => simp only [h]
  next brace behind h =>
    simp only [h]
    split
    · rfl
    · split
      next hp => simp only [hp]
      next hp => simp only [hp]

@[simp] theorem fillIn_nil : fillIn call result [] = [] := by
  rw [fillIn_eq]
  rfl

theorem fillIn_letter {c : Char} (h : isBrace c = false) (cs : List Char) :
    fillIn call result (c :: cs) = c :: fillIn call result cs := by
  rw [fillIn_eq]
  simp only [List.takeWhile_cons, List.dropWhile_cons, h, Bool.not_false, if_true, List.cons_append]
  rw [← fillIn_eq]

theorem fillIn_brace {b : Char} (h : isBrace b = true) (cs : List Char) :
    fillIn call result (b :: cs) =
      if cs.head? = some b then b :: fillIn call result cs.tail
      else
        match placeholder? b cs with
        | some (key, rest) => valueOf call result key ++ fillIn call result rest
        | none => b :: fillIn call result cs := by
  rw [fillIn_eq]
  simp only [List.takeWhile_cons, List.dropWhile_cons, h, Bool.not_true, Bool.false_eq_true, if_false, List.nil_append]

/-! ## Templates that are written -/

/-- A text as it is written in a template. -/
def doubled (text : List Char) : List Char := text.flatMap fun c => if c = '\x7b' ∨ c = '\x7d' then [c, c] else [c]

theorem isBrace_iff {c : Char} : isBrace c = true ↔ c = '\x7b' ∨ c = '\x7d' := by
  simp [isBrace]

theorem fillIn_doubled (text cs : List Char) :
    fillIn call result (doubled text ++ cs) = text ++ fillIn call result cs := by
  induction text with
  | nil => rfl
  | cons c text ih =>
    have hcons : doubled (c :: text) = (if c = '\x7b' ∨ c = '\x7d' then [c, c] else [c]) ++ doubled text := rfl
    rw [hcons]
    by_cases hc : isBrace c = true
    · rw [if_pos (isBrace_iff.1 hc)]
      show fillIn call result (c :: c :: (doubled text ++ cs)) = c :: (text ++ fillIn call result cs)
      rw [fillIn_brace hc, if_pos List.head?_cons, List.tail_cons, ih]
    · rw [if_neg fun h => hc (isBrace_iff.2 h)]
      show fillIn call result (c :: (doubled text ++ cs)) = c :: (text ++ fillIn call result cs)
      rw [fillIn_letter (by simpa using hc), ih]

theorem upToClose_append {key : List Char} (h : ∀ c ∈ key, isBrace c = false) (cs : List Char) :
    upToClose (key ++ '\x7d' :: cs) = some (key, cs) := by
  induction key with
  | nil => simp [upToClose]
  | cons c key ih =>
    have hc : c ≠ '\x7d' := by
      rintro rfl
      exact absurd (h '\x7d' (by simp)) (by decide)
    rw [List.cons_append, upToClose, if_neg hc, ih fun d hd => h d (by simp [hd])]

/-- A key without braces is read up to its closing brace. -/
theorem fillIn_braced {key : List Char} (h : ∀ c ∈ key, isBrace c = false) (cs : List Char) :
    fillIn call result (braced key ++ cs) = valueOf call result key ++ fillIn call result cs := by
  have hcons : braced key ++ cs = '\x7b' :: (key ++ '\x7d' :: cs) := by simp [braced]
  have hhead : (key ++ '\x7d' :: cs).head? ≠ some '\x7b' := by
    cases key with
    | nil => simp
    | cons c key =>
      intro he
      obtain rfl : c = '\x7b' := by simpa using he
      exact absurd (h '\x7b' (by simp)) (by decide)
  have hkey : placeholder? '\x7b' (key ++ '\x7d' :: cs) = some (key, cs) := by
    rw [placeholder?, if_pos rfl, upToClose_append h]
  rw [hcons, fillIn_brace (by decide), if_neg hhead, hkey]

theorem Slot.named?_name (s : Slot) : named? s.name.toList = some s := by
  cases s <;> decide

theorem Slot.named?_eq_none {key : String} (h : key ∉ ["tool_name", "arguments", "result"]) :
    named? key.toList = none := by
  have hname : ∀ s : Slot, s.name ∈ ["tool_name", "arguments", "result"] := by
    intro s
    cases s <;> simp [name]
  rw [named?, List.find?_eq_none]
  intro s _ hs
  exact h (String.toList_inj.1 (by simpa using hs) ▸ hname s)

theorem Slot.name_plain (s : Slot) : ∀ c ∈ s.name.toList, isBrace c = false := by
  have hall : s.name.toList.all (!isBrace ·) = true := by cases s <;> decide
  simpa using hall

/-- What a template is written from. -/
inductive Segment where
  | literal (text : String)
  | slot (slot : Slot)
  /-- A placeholder that is not known. -/
  | unknown (key : String) (plain : ∀ c ∈ key.toList, ¬ (c = '\x7b' ∨ c = '\x7d'))
      (fresh : key ∉ ["tool_name", "arguments", "result"])

namespace Segment

def written : Segment → List Char
  | .literal text => doubled text.toList
  | .slot .toolName => '\x7b' :: "tool_name".toList ++ ['\x7d']
  | .slot .arguments => '\x7b' :: "arguments".toList ++ ['\x7d']
  | .slot .result => '\x7b' :: "result".toList ++ ['\x7d']
  | .unknown key _ _ => '\x7b' :: key.toList ++ ['\x7d']

def filled (call : ToolCall) (result : ToolResult) : Segment → List Char
  | .literal text => text.toList
  | .slot .toolName => call.name.toList
  | .slot .arguments => call.arguments.toList
  | .slot .result => result.content.toList
  | .unknown key _ _ => '\x7b' :: key.toList ++ ['\x7d']

theorem written_slot (s : Slot) : (slot s).written = braced s.name.toList := by
  cases s <;> rfl

theorem filled_slot (s : Slot) : (slot s).filled call result = s.value call result := by
  cases s <;> rfl

/-- Where a segment ends is seen whatever comes behind it. -/
theorem fillIn_written (segment : Segment) (cs : List Char) :
    fillIn call result (segment.written ++ cs) = segment.filled call result ++ fillIn call result cs := by
  cases segment with
  | literal text => exact fillIn_doubled text.toList cs
  | slot s => rw [written_slot, filled_slot, fillIn_braced s.name_plain, valueOf, s.named?_name]
  | unknown key plain fresh =>
    have hplain : ∀ c ∈ key.toList, isBrace c = false := fun c hc => by simpa [isBrace] using plain c hc
    show fillIn call result (braced key.toList ++ cs) = braced key.toList ++ fillIn call result cs
    rw [fillIn_braced hplain, valueOf, Slot.named?_eq_none fresh]

theorem fillIn_flatMap (segments : List Segment) :
    fillIn call result (segments.flatMap written) = segments.flatMap (filled call result) := by
  induction segments with
  | nil => exact fillIn_nil
  | cons segment segments ih => rw [List.flatMap_cons, List.flatMap_cons, fillIn_written, ih]

end Segment

/-- The template of some segments, one behind the other. -/
def template (segments : List Segment) : String := String.ofList (segments.flatMap Segment.written)

/-- **A template says what it is written from.** Literals come back with their braces single, a slot
gives the name, the arguments or the result, and a placeholder that is not known stays as it is. So
there is a template for every text. -/
theorem render_segments :
    (∀ (segments : List Segment) (call : ToolCall) (result : ToolResult),
      render (template segments) call result = String.ofList (segments.flatMap (Segment.filled call result))) ∧
    ∀ text : String, ∃ t : String, ∀ (call : ToolCall) (result : ToolResult), render t call result = text := by
  have hsegments : ∀ (segments : List Segment) (call : ToolCall) (result : ToolResult),
      render (template segments) call result = String.ofList (segments.flatMap (Segment.filled call result)) := by
    intro segments call result
    rw [render, template, String.toList_ofList, Segment.fillIn_flatMap]
  refine ⟨hsegments, fun text => ⟨template [.literal text], fun call result => ?_⟩⟩
  rw [hsegments]
  simp [Segment.filled]

/-- A template with a segment of every kind. -/
theorem render_segments_each :
    let unknown : Segment := .unknown "id" (by simp) (by simp)
    let segments : List Segment := [.literal "\x7b1\x7d ", .slot .toolName, .literal "(", .slot .arguments,
      .literal ") = ", .slot .result, unknown]
    template segments = "\x7b\x7b1\x7d\x7d \x7btool_name\x7d(\x7barguments\x7d) = \x7bresult\x7d\x7bid\x7d" ∧
      render (template segments) ⟨"7", "add", "[1, 2]"⟩ ⟨"7", "3", false⟩ = "\x7b1\x7d add([1, 2]) = 3\x7bid\x7d" := by
  intro unknown segments
  refine ⟨rfl, ?_⟩
  rw [render_segments.1]
  rfl

/-! ## Templates of any kind -/

inductive Piece where
  | fixed (text : List Char)
  | slot (slot : Slot)
  deriving DecidableEq, Repr

namespace Piece

def fill (call : ToolCall) (result : ToolResult) : Piece → List Char
  | .fixed text => text
  | .slot .toolName => call.name.toList
  | .slot .arguments => call.arguments.toList
  | .slot .result => result.content.toList

/-- A part of a template that the piece may be cut from. -/
def origin : Piece → List Char
  | .fixed text => text
  | .slot s => braced s.name.toList

/-- The piece that a placeholder stands for. -/
def ofKey (key : List Char) : Piece :=
  match Slot.named? key with
  | some s => .slot s
  | none => .fixed (braced key)

theorem fill_ofKey (key : List Char) : (ofKey key).fill call result = valueOf call result key := by
  rw [ofKey, valueOf]
  cases Slot.named? key with
  | some s => cases s <;> rfl
  | none => rfl

theorem origin_ofKey (key : List Char) : (ofKey key).origin = braced key := by
  rw [ofKey]
  split
  next s h =>
    have hs : s.name.toList = key := by simpa using List.find?_some h
    rw [origin, hs]
  next => rfl

end Piece

/-- Cuts a template into pieces. -/
def pieces : List Char → List Piece
  | [] => []
  | c :: cs =>
    if isBrace c = false then .fixed [c] :: pieces cs
    else if cs.head? = some c then .fixed [c] :: pieces cs.tail
    else
      match hp : placeholder? c cs with
      | some (key, rest) =>
        have := placeholder?_length hp
        .ofKey key :: pieces rest
      | none => .fixed [c] :: pieces cs
termination_by cs => cs.length
decreasing_by
  · simp
  · rw [List.length_tail, List.length_cons]; omega
  · rw [List.length_cons]; omega
  · simp

theorem fillIn_pieces (cs : List Char) : fillIn call result cs = (pieces cs).flatMap (Piece.fill call result) := by
  fun_induction pieces cs with
  | case1 => exact fillIn_nil
  | case2 c cs hc ih => rw [fillIn_letter hc, ih]; rfl
  | case3 c cs hc hd ih => rw [fillIn_brace (by simpa using hc), if_pos hd, ih]; rfl
  | case4 c cs hc hd key rest hp _ ih =>
    rw [fillIn_brace (by simpa using hc), if_neg hd, hp]
    simp only [List.flatMap_cons, Piece.fill_ofKey, ih]
  | case5 c cs hc hd hp ih =>
    rw [fillIn_brace (by simpa using hc), if_neg hd, hp]
    simp only [ih]
    rfl

/-- Every piece is cut from the template. -/
theorem origin_infix {cs : List Char} {p : Piece} (h : p ∈ pieces cs) : p.origin <:+: cs := by
  fun_induction pieces cs with
  | case1 => cases h
  | case2 c cs hc ih =>
    obtain rfl | h := List.mem_cons.1 h
    · exact (List.prefix_append [c] cs).isInfix
    · exact List.infix_cons (ih h)
  | case3 c cs hc hd ih =>
    obtain rfl | h := List.mem_cons.1 h
    · exact (List.prefix_append [c] cs).isInfix
    · exact List.infix_cons ((ih h).trans (List.tail_suffix cs).isInfix)
  | case4 c cs hc hd key rest hp _ ih =>
    have hcut : c :: cs = braced key ++ rest := placeholder?_eq hp
    rw [hcut]
    obtain rfl | h := List.mem_cons.1 h
    · rw [Piece.origin_ofKey]
      exact (List.prefix_append _ rest).isInfix
    · exact (ih h).trans (List.suffix_append _ rest).isInfix
  | case5 c cs hc hd hp ih =>
    obtain rfl | h := List.mem_cons.1 h
    · exact (List.prefix_append [c] cs).isInfix
    · exact List.infix_cons (ih h)

/-- **What fills a slot is not looked at.** A template comes to one list of fixed texts and slots, all
of them parts of the template, whatever the call and the result are; the slots are filled with the
name, the arguments and the result as these stand. -/
theorem render_fills (template : String) (call : ToolCall) (result : ToolResult) :
    render template call result = String.ofList ((pieces template.toList).flatMap (Piece.fill call result)) ∧
      ∀ p ∈ pieces template.toList, p.origin <:+: template.toList :=
  ⟨congrArg String.ofList (fillIn_pieces template.toList), fun _ => origin_infix⟩

/-- A brace is left open, and the name, the arguments and the result hold placeholders. -/
theorem render_fills_verbatim :
    let t := "\x7btool_name\x7d: \x7barguments\x7d, \x7bresult\x7d \x7b"
    Piece.slot .result ∈ pieces t.toList ∧ braced "result".toList <:+: t.toList ∧
      render t ⟨"1", "\x7bresult\x7d", "\x7b\x7d"⟩ ⟨"1", "\x7b\x7b\x7btool_name\x7d", false⟩ =
        "\x7bresult\x7d: \x7b\x7d, \x7b\x7b\x7btool_name\x7d \x7b" := by
  intro t
  have hpieces : pieces t.toList = [.slot .toolName, .fixed [':'], .fixed [' '], .slot .arguments, .fixed [','],
      .fixed [' '], .slot .result, .fixed [' '], .fixed ['\x7b']] := by
    simp [t, pieces, isBrace, placeholder?, upToClose, Piece.ofKey, Slot.named?, Slot.name]
  have hmem : Piece.slot .result ∈ pieces t.toList := by simp [hpieces]
  obtain ⟨hrender, horigin⟩ := render_fills t ⟨"1", "\x7bresult\x7d", "\x7b\x7d"⟩
    ⟨"1", "\x7b\x7b\x7btool_name\x7d", false⟩
  refine ⟨hmem, horigin _ hmem, ?_⟩
  rw [hrender, hpieces]
  rfl

end ToolAgent.Summary
