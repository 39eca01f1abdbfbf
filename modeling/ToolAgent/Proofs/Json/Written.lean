/-
What is written is read back: the reader of a text gives a tree that shows the value the text
was written from, whatever blanks stand between the tokens.

The induction is on the nesting of the value. A bound of twice the length of the text is enough
for the reader, as every call of it takes at least a character off the text or is followed by one
that does.
-/
import ToolAgent.Proofs.Json.Shown

namespace ToolAgent.Json

/-! ## Blanks -/

/-- Nothing but blanks stands between tokens. -/
structure Spacing.Blank (sp : Spacing) : Prop where
  lineBreak : ∀ d, ∀ c ∈ sp.lineBreak d, Cursor.isBlank c = true
  afterColon : ∀ c ∈ sp.afterColon, Cursor.isBlank c = true

theorem Spacing.none_blank : Spacing.none.Blank := ⟨by simp [Spacing.none], by simp [Spacing.none]⟩

theorem Spacing.indented_blank : Spacing.indented.Blank where
  lineBreak d c hc := by
    simp only [Spacing.indented, List.mem_cons, List.mem_replicate] at hc
    rcases hc with rfl | ⟨-, rfl⟩
    · rfl
    · rfl
  afterColon := by simp [Spacing.indented, Cursor.isBlank]

/-- Behind blanks a reader sees what follows them. -/
theorem Cursor.skipFrom_blanks {bl : List Char} {x : Char} {cs : List Char}
    (hb : ∀ c ∈ bl, isBlank c = true) (hx : isBlank x = false) (p : Place) :
    ∃ p', skipFrom p (bl ++ x :: cs) = ⟨x :: cs, p'⟩ := by
  induction bl generalizing p with
  | nil => exact ⟨p, by simp [skipFrom, hx]⟩
  | cons c bl ih =>
    obtain ⟨p', hp⟩ := ih (fun c' hc => hb c' (List.mem_cons_of_mem c hc)) (p.past c)
    refine ⟨p', ?_⟩
    rw [List.cons_append, skipFrom, if_pos (hb c (by simp)), hp]

theorem Cursor.skipBlanks_of_rest {c : Cursor} {bl : List Char} {x : Char} {cs : List Char}
    (h : c.rest = bl ++ x :: cs) (hb : ∀ c ∈ bl, isBlank c = true) (hx : isBlank x = false) :
    ∃ p, c.skipBlanks = ⟨x :: cs, p⟩ := by
  rw [skipBlanks, h]
  exact skipFrom_blanks hb hx _

theorem Ends.of_blanks {bl : List Char} {x : Char} {cs : List Char} (hb : ∀ c ∈ bl, Cursor.isBlank c = true)
    (h : Ends (x :: cs)) : Ends (bl ++ x :: cs) := by
  cases bl with
  | nil => exact h
  | cons b bl =>
    intro c cs' he
    obtain ⟨rfl, -⟩ := List.cons.inj he
    have hblank := hb b (by simp)
    simp only [Cursor.isBlank, Bool.or_eq_true, decide_eq_true_eq] at hblank
    rcases hblank with ((rfl | rfl) | rfl) | rfl
    all_goals decide

theorem Ends.of_mark {x : Char} (hx : x ∈ [',', ']', '\x7d']) (cs : List Char) : Ends (x :: cs) := by
  intro c cs' he
  obtain ⟨rfl, -⟩ := List.cons.inj he
  simp only [List.mem_cons, List.not_mem_nil, or_false] at hx
  rcases hx with rfl | rfl | rfl
  all_goals decide

/-! ## Heads -/

theorem signed_head (n : Int) : ∃ x cs, Decimal.signed n = x :: cs ∧ (x = '-' ∨ x.isDigit = true) := by
  unfold Decimal.signed
  split
  · exact ⟨_, _, rfl, .inl rfl⟩
  · obtain ⟨d, ds, hds⟩ := List.exists_cons_of_ne_nil (Decimal.digits_ne_nil n.natAbs)
    exact ⟨d, ds, hds, .inr (Decimal.isDigit_of_mem_digits n.natAbs d (by simp [hds]))⟩

/-- A digit is none of the other characters with which a value may start. -/
theorem digit_ne {x : Char} (h : x = '-' ∨ x.isDigit = true) :
    Cursor.isBlank x = false ∧ x ≠ ']' ∧ x ≠ 'n' ∧ x ≠ 't' ∧ x ≠ 'f' := by
  rcases h with rfl | h
  · decide
  · refine ⟨?_, ?_, ?_, ?_, ?_⟩
    · cases hb : Cursor.isBlank x with
      | false => rfl
      | true =>
        simp only [Cursor.isBlank, Bool.or_eq_true, decide_eq_true_eq] at hb
        rcases hb with ((rfl | rfl) | rfl) | rfl
        all_goals cases h
    all_goals
      rintro rfl
      cases h

/-- What is written of a plain value starts with a character that is no blank and closes nothing. -/
theorem write_head {k : Nat} {v : Json} (h : v.Plain k) (sp : Spacing) (depth : Nat) :
    ∃ x cs, write sp depth v = x :: cs ∧ Cursor.isBlank x = false ∧ x ≠ ']' := by
  cases v with
  | null => exact ⟨_, _, rfl, rfl, by decide⟩
  | bool b =>
    cases b with
    | true | false => exact ⟨_, _, rfl, rfl, by decide⟩
  | number n =>
    cases n with
    | int n =>
      obtain ⟨x, cs, hs, hx⟩ := signed_head n
      exact ⟨x, cs, hs, (digit_ne hx).1, (digit_ne hx).2.1⟩
    | float x => cases k <;> exact h.elim
  | string s => exact ⟨_, _, rfl, rfl, by decide⟩
  | array vs =>
    cases vs with
    | nil | cons => exact ⟨_, _, rfl, rfl, by decide⟩
  | object fs =>
    cases fs with
    | nil => exact ⟨_, _, rfl, rfl, by decide⟩
    | cons f fs => exact ⟨_, _, rfl, rfl, by decide⟩

/-! ## Values -/

/-- Something was read that shows a value, and behind it comes the rest. -/
structure Found.Gets {α β : Type} (Shows : α → β → Prop) (r : Found α) (x : β) (rest : List Char) : Prop where
  intact : r.intact = true
  shows : Shows r.value x
  rest : r.next.rest = rest

/-- Values that nest so deep are read back. -/
def ReadsBack (sp : Spacing) (k : Nat) : Prop :=
  ∀ v : Json, v.Plain k → ∀ (depth level bound : Nat) (c : Cursor) (bl rest : List Char),
    (∀ x ∈ bl, Cursor.isBlank x = true) → c.rest = bl ++ write sp depth v ++ rest → Ends rest →
    level + k ≤ Node.deepest → 2 * (write sp depth v).length ≤ bound →
      (readValue bound level c).Gets Node.Shows v rest

/-! ## Arrays -/

section Items

variable {sp : Spacing} {k depth level bound : Nat} {c : Cursor} {rest : List Char}

/-- An item of an array, and those behind it. -/
def readItem (bound level : Nat) (c : Cursor) : Found (List Node) :=
  let v := readValue bound level c
  if v.intact then
    let r := readItems bound level false v.next
    ⟨v.value.settle (settledInArray v.next) :: r.value, r.next, r.intact⟩
  else ⟨[v.value], v.next, false⟩

theorem readItems_first {x : Char} {cs : List Char} {p : Place} (hc : c.skipBlanks = ⟨x :: cs, p⟩)
    (hx : x ≠ ']') : readItems (bound + 1) level true c = readItem bound level ⟨x :: cs, p⟩ := by
  simp only [readItems, hc, if_neg hx]
  rfl

theorem readItems_next {x : Char} {cs cs' : List Char} {p p' : Place} (hc : c.skipBlanks = ⟨',' :: cs', p'⟩)
    (hs : Cursor.skipFrom (p'.past ',') cs' = ⟨x :: cs, p⟩) (hx : x ≠ ']') :
    readItems (bound + 1) level false c = readItem bound level ⟨x :: cs, p⟩ := by
  simp [readItems, hc, hs, hx, readItem]

theorem readItems_close {first : Bool} {p : Place} {cs : List Char} (hc : c.skipBlanks = ⟨']' :: cs, p⟩) :
    (readItems (bound + 1) level first c).Gets Node.ShowsItems [] cs := by
  have hr : readItems (bound + 1) level first c = ⟨[], ⟨cs, p.past ']'⟩, true⟩ := by
    simp [readItems, hc]
  rw [hr]
  exact ⟨rfl, .nil, rfl⟩

theorem readItem_gets {v : Json} {vs : List Json} {more : List Char}
    (hv : (readValue bound level c).Gets Node.Shows v more)
    (hvs : ∀ next : Cursor, next.rest = more → (readItems bound level false next).Gets Node.ShowsItems vs rest) :
    (readItem bound level c).Gets Node.ShowsItems (v :: vs) rest := by
  obtain ⟨hi, hs, hn⟩ := hv
  have hr := hvs _ hn
  rw [readItem]
  simp only [hi, if_true]
  exact ⟨hr.intact, .cons (hs.settle _) hr.shows, hr.rest⟩

/-- What is left of an array behind an item. -/
def itemsLeft (sp : Spacing) (depth d : Nat) (vs : List Json) (rest : List Char) : List Char :=
  writeItems sp depth vs ++ (sp.lineBreak d ++ ']' :: rest)

theorem itemsLeft_ends (hsp : sp.Blank) (depth d : Nat) (vs : List Json) (rest : List Char) :
    Ends (itemsLeft sp depth d vs rest) := by
  cases vs with
  | nil => exact .of_blanks (hsp.lineBreak d) (.of_mark (by decide) _)
  | cons v vs => exact .of_mark (by decide) _

/-- The items behind the first, and the end of the array. -/
theorem readItems_write (hsp : sp.Blank) (ih : ReadsBack sp k) (hl : level + k ≤ Node.deepest) (d : Nat) :
    ∀ {vs : List Json} {bound : Nat} {c : Cursor}, (∀ v ∈ vs, v.Plain k) →
      c.rest = itemsLeft sp depth d vs rest → 2 * (writeItems sp depth vs).length + 2 ≤ bound →
        (readItems bound level false c).Gets Node.ShowsItems vs rest
  | [], bound, c, _, hc, hb => by
    obtain ⟨p, hp⟩ := Cursor.skipBlanks_of_rest hc (hsp.lineBreak d) rfl
    obtain ⟨bound, rfl⟩ : ∃ b, bound = b + 1 := ⟨bound - 1, by omega⟩
    exact readItems_close hp
  | v :: vs, bound, c, hv, hc, hb => by
    obtain ⟨x, cs, hw, hblank, hx⟩ := write_head (hv v (by simp)) sp depth
    -- Behind the comma comes the item, and behind that what is left of the text.
    have hrest : c.rest = [] ++ ',' :: (sp.lineBreak depth ++ x :: (cs ++ itemsLeft sp depth d vs rest)) := by
      rw [hc, itemsLeft, writeItems, hw, itemsLeft]
      simp
    obtain ⟨p', hp'⟩ := Cursor.skipBlanks_of_rest hrest (by simp) rfl
    obtain ⟨p, hp⟩ : ∃ p, Cursor.skipFrom (p'.past ',') _ = ⟨x :: (cs ++ itemsLeft sp depth d vs rest), p⟩ :=
      Cursor.skipFrom_blanks (hsp.lineBreak depth) hblank _
    simp only [writeItems, List.length_cons, List.length_append] at hb
    obtain ⟨bound, rfl⟩ : ∃ b, bound = b + 1 := ⟨bound - 1, by omega⟩
    rw [readItems_next hp' hp hx]
    have hends := itemsLeft_ends hsp depth d vs rest
    refine readItem_gets (ih v (hv v (by simp)) depth level bound _ [] _ (by simp) ?_ hends hl (by omega)) ?_
    · rw [hw]
      rfl
    · intro next hn
      exact readItems_write hsp ih hl d (fun w hm => hv w (List.mem_cons_of_mem v hm)) hn (by omega)

end Items

/-! ## Objects -/

section Members

variable {sp : Spacing} {k depth level bound : Nat} {c : Cursor} {rest : List Char}

/-- A member of an object behind its label, and those behind it. -/
def readMember (bound level : Nat) (label : Label) (c : Cursor) : Found (List (Label × Node)) :=
  let v := readValue bound level c
  if v.intact then
    let r := readMembers bound level false v.next
    ⟨(label, v.value.settle (settledInObject v.next)) :: r.value, r.next, r.intact⟩
  else ⟨[(label, v.value)], v.next, false⟩

/-- A key, behind which comes a colon. -/
theorem readLabel_quote (key : String) (p : Place) (cs : List Char) :
    ∃ label p', readLabel ⟨quote key ++ cs, p⟩ = .good label ⟨cs, p'⟩ ∧
      label.name = .ok key ∧ label.laxFault? = none := by
  obtain ⟨p', hp⟩ := readText_escapeAll (p.past '"') [] key.toList cs
  refine ⟨⟨settledInObject ⟨cs, p'⟩, .ok key, none⟩, p', ?_, rfl, rfl⟩
  have htext : (quote key ++ cs).drop 1 = escapeAll key.toList ++ '"' :: cs := by
    simp [quote]
  simp [readLabel, htext, hp]

theorem skipBlanks_colon (cs : List Char) (p : Place) : Cursor.skipBlanks ⟨':' :: cs, p⟩ = ⟨':' :: cs, p⟩ := by
  simp [Cursor.skipBlanks, Cursor.skipFrom, Cursor.isBlank]

theorem readMembers_first {label : Label} {cs cs' : List Char} {p p' : Place}
    (hc : c.skipBlanks = ⟨'"' :: cs, p⟩) (hl : readLabel ⟨'"' :: cs, p⟩ = .good label ⟨':' :: cs', p'⟩) :
    readMembers (bound + 1) level true c = readMember bound level label ⟨cs', p'.past ':'⟩ := by
  simp [readMembers, hc, hl, skipBlanks_colon, readMember]

theorem readMembers_next {label : Label} {cs cs' cs'' : List Char} {p p' q : Place}
    (hc : c.skipBlanks = ⟨',' :: cs'', q⟩) (hs : Cursor.skipFrom (q.past ',') cs'' = ⟨'"' :: cs, p⟩)
    (hl : readLabel ⟨'"' :: cs, p⟩ = .good label ⟨':' :: cs', p'⟩) :
    readMembers (bound + 1) level false c = readMember bound level label ⟨cs', p'.past ':'⟩ := by
  simp [readMembers, hc, hs, hl, skipBlanks_colon, readMember]

theorem readMembers_close {first : Bool} {p : Place} {cs : List Char} (hc : c.skipBlanks = ⟨'\x7d' :: cs, p⟩) :
    (readMembers (bound + 1) level first c).Gets Node.ShowsFields [] cs := by
  have hr : readMembers (bound + 1) level first c = ⟨[], ⟨cs, p.past '\x7d'⟩, true⟩ := by
    simp [readMembers, hc]
  rw [hr]
  exact ⟨rfl, .nil, rfl⟩

theorem readMember_gets {label : Label} {key : String} {v : Json} {fs : List (String × Json)} {more : List Char}
    (hname : label.name = .ok key) (hlax : label.laxFault? = none)
    (hv : (readValue bound level c).Gets Node.Shows v more)
    (hfs : ∀ next : Cursor, next.rest = more → (readMembers bound level false next).Gets Node.ShowsFields fs rest) :
    (readMember bound level label c).Gets Node.ShowsFields ((key, v) :: fs) rest := by
  obtain ⟨hi, hs, hn⟩ := hv
  have hr := hfs _ hn
  rw [readMember]
  simp only [hi, if_true]
  exact ⟨hr.intact, .cons hname hlax (hs.settle _) hr.shows, hr.rest⟩

/-- What is left of an object behind a field. -/
def fieldsLeft (sp : Spacing) (depth d : Nat) (fs : List (String × Json)) (rest : List Char) : List Char :=
  writeFields sp depth fs ++ (sp.lineBreak d ++ '\x7d' :: rest)

theorem fieldsLeft_ends (hsp : sp.Blank) (depth d : Nat) (fs : List (String × Json)) (rest : List Char) :
    Ends (fieldsLeft sp depth d fs rest) := by
  cases fs with
  | nil => exact .of_blanks (hsp.lineBreak d) (.of_mark (by decide) _)
  | cons f fs => exact .of_mark (by decide) _

/-- The fields behind the first, and the end of the object. -/
theorem readMembers_write (hsp : sp.Blank) (ih : ReadsBack sp k) (hl : level + k ≤ Node.deepest) (d : Nat) :
    ∀ {fs : List (String × Json)} {bound : Nat} {c : Cursor}, (∀ f ∈ fs, f.2.Plain k) →
      c.rest = fieldsLeft sp depth d fs rest → 2 * (writeFields sp depth fs).length + 2 ≤ bound →
        (readMembers bound level false c).Gets Node.ShowsFields fs rest
  | [], bound, c, _, hc, hb => by
    obtain ⟨p, hp⟩ := Cursor.skipBlanks_of_rest hc (hsp.lineBreak d) rfl
    obtain ⟨bound, rfl⟩ : ∃ b, bound = b + 1 := ⟨bound - 1, by omega⟩
    exact readMembers_close hp
  | (key, v) :: fs, bound, c, hv, hc, hb => by
    -- Behind the comma comes the key, then the colon, the value, and what is left of the text.
    let value := sp.afterColon ++ write sp depth v ++ fieldsLeft sp depth d fs rest
    have hrest : c.rest = [] ++ ',' :: (sp.lineBreak depth ++ (quote key ++ ':' :: value)) := by
      rw [hc, fieldsLeft, writeFields]
      simp [value, fieldsLeft]
    obtain ⟨q, hq⟩ := Cursor.skipBlanks_of_rest hrest (by simp) rfl
    obtain ⟨p, hp⟩ : ∃ p, Cursor.skipFrom (q.past ',') _ = ⟨quote key ++ ':' :: value, p⟩ :=
      Cursor.skipFrom_blanks (hsp.lineBreak depth) rfl _
    obtain ⟨label, p', hlabel, hname, hlax⟩ := readLabel_quote key p (':' :: value)
    simp only [writeFields, List.length_cons, List.length_append] at hb
    obtain ⟨bound, rfl⟩ : ∃ b, bound = b + 1 := ⟨bound - 1, by omega⟩
    rw [readMembers_next hq hp hlabel]
    have hends := fieldsLeft_ends hsp depth d fs rest
    refine readMember_gets hname hlax
      (ih v (hv (key, v) (by simp)) depth level bound _ _ _ hsp.afterColon rfl hends hl (by omega)) ?_
    intro next hn
    exact readMembers_write hsp ih hl d (fun f hm => hv f (List.mem_cons_of_mem _ hm)) hn (by omega)

end Members

/-! ## Whole values -/

section Values

variable {sp : Spacing} {level bound : Nat} {c : Cursor} {p : Place} {cs rest : List Char}

theorem readValue_null (hc : c.skipBlanks = ⟨'n' :: 'u' :: 'l' :: 'l' :: rest, p⟩) :
    (readValue (bound + 1) level c).Gets Node.Shows .null rest := by
  simp only [readValue, hc]
  exact ⟨rfl, .null, rfl⟩

theorem readValue_true (hc : c.skipBlanks = ⟨'t' :: 'r' :: 'u' :: 'e' :: rest, p⟩) :
    (readValue (bound + 1) level c).Gets Node.Shows (.bool true) rest := by
  simp only [readValue, hc]
  exact ⟨rfl, .bool, rfl⟩

theorem readValue_false (hc : c.skipBlanks = ⟨'f' :: 'a' :: 'l' :: 's' :: 'e' :: rest, p⟩) :
    (readValue (bound + 1) level c).Gets Node.Shows (.bool false) rest := by
  simp only [readValue, hc]
  exact ⟨rfl, .bool, rfl⟩

theorem readValue_int {n : Int} (hn : (Number.int n).Plain) (hr : Ends rest)
    (hc : c.skipBlanks = ⟨Decimal.signed n ++ rest, p⟩) :
    (readValue (bound + 1) level c).Gets Node.Shows (.number (.int n)) rest := by
  obtain ⟨p', hp'⟩ := readNumber_signed hn hr p
  obtain ⟨x, cs, hs, hx⟩ := signed_head n
  obtain ⟨-, -, hnull, htrue, hfalse⟩ := digit_ne hx
  rw [hs] at hc hp'
  simp only [List.cons_append] at hc hp'
  simp only [readValue, hc, if_neg hnull, if_neg htrue, if_neg hfalse, if_pos hx, hp']
  exact ⟨rfl, .number, rfl⟩

theorem readValue_string {s : String} (hc : c.skipBlanks = ⟨quote s ++ rest, p⟩) :
    (readValue (bound + 1) level c).Gets Node.Shows (.string s) rest := by
  obtain ⟨p', hp'⟩ := readText_escapeAll (p.past '"') [] s.toList rest
  have htext : quote s ++ rest = '"' :: (escapeAll s.toList ++ '"' :: rest) := by
    simp [quote]
  have hs : String.ofList (s.toList.reverse ++ []).reverse = s := by simp
  rw [htext] at hc
  simp only [readValue, hc]
  simp only [hp', Lexed.leaf, hs]
  exact ⟨rfl, .string, rfl⟩

/-- An array, once its items are read. -/
theorem readValue_array {vs : List Json} (hl : level + 1 ≤ Node.deepest)
    (hc : c.skipBlanks = ⟨'[' :: cs, p⟩)
    (h : (readItems bound (level + 1) true ⟨cs, p.past '['⟩).Gets Node.ShowsItems vs rest) :
    (readValue (bound + 1) level c).Gets Node.Shows (.array vs) rest := by
  simp only [readValue, hc]
  exact ⟨h.intact, .array hl h.shows, h.rest⟩

/-- An object, once its members are read. -/
theorem readValue_object {fs : List (String × Json)} (hl : level + 1 ≤ Node.deepest) (hk : (fs.map (·.1)).Nodup)
    (hc : c.skipBlanks = ⟨'\x7b' :: cs, p⟩)
    (h : (readMembers bound (level + 1) true ⟨cs, p.past '\x7b'⟩).Gets Node.ShowsFields fs rest) :
    (readValue (bound + 1) level c).Gets Node.Shows (.object fs) rest := by
  simp only [readValue, hc]
  exact ⟨h.intact, .object hl hk h.shows (.refl _), h.rest⟩

theorem ReadsBack.array {k depth : Nat} {vs : List Json} (ih : ReadsBack sp k) (hsp : sp.Blank)
    (hvs : ∀ v ∈ vs, v.Plain k) (hl : level + (k + 1) ≤ Node.deepest)
    (hb : 2 * (write sp depth (.array vs)).length ≤ bound + 1)
    (hc : c.skipBlanks = ⟨write sp depth (.array vs) ++ rest, p⟩) :
    (readValue (bound + 1) level c).Gets Node.Shows (.array vs) rest := by
  cases vs with
  | nil =>
    obtain ⟨p', hp'⟩ : ∃ p', Cursor.skipBlanks ⟨']' :: rest, p.past '['⟩ = ⟨']' :: rest, p'⟩ :=
      Cursor.skipFrom_blanks (List.forall_mem_nil _) rfl _
    simp only [write, List.length_cons] at hb
    obtain ⟨bound, rfl⟩ : ∃ b, bound = b + 1 := ⟨bound - 1, by omega⟩
    exact readValue_array (by omega) hc (readItems_close hp')
  | cons v vs =>
    have hv : v.Plain k := hvs v (by simp)
    obtain ⟨x, cs, hw, hblank, hx⟩ := write_head hv sp (depth + 1)
    let left := itemsLeft sp (depth + 1) depth vs rest
    have hc : c.skipBlanks = ⟨'[' :: (sp.lineBreak (depth + 1) ++ x :: (cs ++ left)), p⟩ := by
      rw [hc, write, hw]
      simp [left, itemsLeft]
    simp only [write, List.length_cons, List.length_append] at hb
    obtain ⟨bound, rfl⟩ : ∃ b, bound = b + 1 := ⟨bound - 1, by omega⟩
    refine readValue_array (by omega) hc ?_
    obtain ⟨p', hp'⟩ := Cursor.skipBlanks_of_rest (c := ⟨_, p.past '['⟩) rfl (hsp.lineBreak (depth + 1)) hblank
    rw [readItems_first hp' hx]
    have hends : Ends left := itemsLeft_ends hsp (depth + 1) depth vs rest
    refine readItem_gets (ih v hv (depth + 1) (level + 1) bound _ [] left (by simp) ?_ hends (by omega) (by omega)) ?_
    · rw [hw]
      rfl
    · intro next hn
      exact readItems_write hsp ih (by omega) depth (fun w hm => hvs w (List.mem_cons_of_mem v hm)) hn (by omega)

theorem ReadsBack.object {k depth : Nat} {fs : List (String × Json)} (ih : ReadsBack sp k) (hsp : sp.Blank)
    (hfs : (Json.object fs).Plain (k + 1)) (hl : level + (k + 1) ≤ Node.deepest)
    (hb : 2 * (write sp depth (.object fs)).length ≤ bound + 1)
    (hc : c.skipBlanks = ⟨write sp depth (.object fs) ++ rest, p⟩) :
    (readValue (bound + 1) level c).Gets Node.Shows (.object fs) rest := by
  obtain ⟨hk, hfs⟩ := hfs
  cases fs with
  | nil =>
    obtain ⟨p', hp'⟩ : ∃ p', Cursor.skipBlanks ⟨'\x7d' :: rest, p.past '\x7b'⟩ = ⟨'\x7d' :: rest, p'⟩ :=
      Cursor.skipFrom_blanks (List.forall_mem_nil _) rfl _
    simp only [write, List.length_cons] at hb
    obtain ⟨bound, rfl⟩ : ∃ b, bound = b + 1 := ⟨bound - 1, by omega⟩
    exact readValue_object (by omega) hk hc (readMembers_close hp')
  | cons f fs =>
    obtain ⟨key, v⟩ := f
    let left := fieldsLeft sp (depth + 1) depth fs rest
    let value := sp.afterColon ++ write sp (depth + 1) v ++ left
    have hc : c.skipBlanks = ⟨'\x7b' :: (sp.lineBreak (depth + 1) ++ (quote key ++ ':' :: value)), p⟩ := by
      rw [hc, write]
      simp [value, left, fieldsLeft]
    simp only [write, List.length_cons, List.length_append] at hb
    obtain ⟨bound, rfl⟩ : ∃ b, bound = b + 1 := ⟨bound - 1, by omega⟩
    refine readValue_object (by omega) hk hc ?_
    obtain ⟨p', hp'⟩ : ∃ p', Cursor.skipBlanks
        ⟨sp.lineBreak (depth + 1) ++ (quote key ++ ':' :: value), p.past '\x7b'⟩ = ⟨quote key ++ ':' :: value, p'⟩ :=
      Cursor.skipBlanks_of_rest rfl (hsp.lineBreak (depth + 1)) rfl
    obtain ⟨label, p'', hlabel, hname, hlax⟩ := readLabel_quote key p' (':' :: value)
    rw [readMembers_first hp' hlabel]
    have hends : Ends left := fieldsLeft_ends hsp (depth + 1) depth fs rest
    refine readMember_gets hname hlax (ih v (hfs (key, v) (by simp)) (depth + 1) (level + 1) bound _ _ left
      hsp.afterColon rfl hends (by omega) (by omega)) ?_
    intro next hn
    exact readMembers_write hsp ih (by omega) depth (fun f hm => hfs f (List.mem_cons_of_mem _ hm)) hn (by omega)

/-- Values are read back if those that nest one level less are. -/
theorem ReadsBack.step {k : Nat} (hsp : sp.Blank) (below : ∀ j, j + 1 = k → ReadsBack sp j) : ReadsBack sp k := by
  intro v hv depth level bound c bl rest hbl hrest hends hl hb
  obtain ⟨x, cs, hw, hblank, -⟩ := write_head hv sp depth
  obtain ⟨p, hp⟩ : ∃ p, c.skipBlanks = ⟨write sp depth v ++ rest, p⟩ := by
    rw [hw] at hrest ⊢
    exact Cursor.skipBlanks_of_rest (by rw [hrest]; simp) hbl hblank
  obtain ⟨bound, rfl⟩ : ∃ b, bound = b + 1 := ⟨bound - 1, by rw [hw, List.length_cons] at hb; omega⟩
  cases v with
  | null => exact readValue_null hp
  | bool b =>
    cases b with
    | true => exact readValue_true hp
    | false => exact readValue_false hp
  | number n =>
    cases n with
    | int n =>
      have hn : (Number.int n).Plain := by cases k <;> exact hv
      exact readValue_int hn hends hp
    | float x => cases k <;> exact hv.elim
  | string s => exact readValue_string hp
  | array vs =>
    cases k with
    | zero => exact hv.elim
    | succ k => exact (below k rfl).array hsp hv hl hb hp
  | object fs =>
    cases k with
    | zero => exact hv.elim
    | succ k => exact (below k rfl).object hsp hv hl hb hp

theorem readsBack (hsp : sp.Blank) : ∀ k, ReadsBack sp k
  | 0 => .step hsp fun _ h => nomatch h
  | k + 1 => .step hsp fun _ h => Nat.succ.inj h ▸ readsBack hsp k

/-- A written text is read whole, as the value it was written from. -/
theorem Document.read_write (hsp : sp.Blank) {k : Nat} {v : Json} (hv : v.Plain k) (hk : k ≤ Node.deepest) :
    (Document.read (String.ofList (write sp 0 v))).root.Shows v ∧
      (Document.read (String.ofList (write sp 0 v))).trailing = none := by
  have h := readsBack hsp k v hv 0 0 (2 * (write sp 0 v).length + 2) ⟨write sp 0 v, .start⟩ [] [] (by simp)
    (by simp) .nil (by omega) (by omega)
  have hnext : (readValue (2 * (write sp 0 v).length + 2) 0 ⟨write sp 0 v, .start⟩).next.skipBlanks.rest = [] := by
    rw [Cursor.skipBlanks, h.rest]
    rfl
  simp only [Document.read, String.toList_ofList, Document.readChars, hnext]
  exact ⟨h.shows, trivial⟩

end Values

end ToolAgent.Json
