/-
Events and responses are read as they were written, but for memory whose data are null.

Null data of a piece of memory are written as they are, and read as no data. So a response, and
every event, is restored with such data left out (`withoutNull`). Free-form data are kept with the
keys of their objects in order (`Json.InOrder`); data that were listed otherwise come back sorted.
-/
import ToolAgent.Event.Codec
import ToolAgent.Proofs.Message.Codec

namespace ToolAgent

open Json (Decoder)

theorem map_eq_self {α : Type} {f : α → α} {xs : List α} : xs.map f = xs ↔ ∀ x ∈ xs, f x = x := by
  have hid : xs.map f = xs.map id ↔ ∀ x ∈ xs, f x = id x := List.map_inj_left
  simpa using hid

/-! ## Memory -/

namespace MemoryItem

/-- The data of the item, if it has any, are in order. -/
def InOrder (m : MemoryItem) : Prop := ∀ v ∈ m.metadata, v.InOrder

/-- The item with its data put in order. -/
def sorted (m : MemoryItem) : MemoryItem := { m with metadata := m.metadata.map Json.sorted }

/-- The item without its data when these are null. -/
def withoutNull (m : MemoryItem) : MemoryItem := { m with metadata := m.metadata.bind Json.present? }

theorem sorted_withoutNull_eq_self {m : MemoryItem} :
    m.sorted.withoutNull = m ↔ m.InOrder ∧ m.metadata ≠ some .null := by
  obtain ⟨content, _ | v⟩ := m
  · simp [InOrder, sorted, withoutNull]
  · cases v <;> simp [InOrder, sorted, withoutNull, Json.sorted, Json.present?, ← Json.sorted_eq_self_iff]

theorem toJson_distinct (m : MemoryItem) : m.toJson.Distinct :=
  .optionalField (by simp) (by simp) fun v _ => v.sorted_inOrder.distinct

/-- Data that are null are written, and read as no data. -/
theorem reads (m : MemoryItem) : decoder.Reads m.toJson m.sorted.withoutNull := by
  have hdata : ∀ v ∈ m.metadata, (Decoder.optional .json).Reads v.sorted v.sorted.present? := by
    intro v _
    simpa only [v.sorted_inOrder.sorted_eq] using Decoder.Reads.optional_json v.sorted
  have hkept : m.metadata.bind (fun v => v.sorted.present?) = m.sorted.withoutNull.metadata := by
    rw [withoutNull, sorted, Option.bind_map]
    rfl
  exact .record (by simp)
    (.required (.optionalField .done (by simp) hdata rfl) (by simp) (.string m.content) (by rw [hkept]; rfl))

example : decoder.readJson (toJson ⟨"a", some .null⟩) = .ok ⟨"a", none⟩ := rfl

end MemoryItem

/-! ## Messages -/

theorem ChatMessage.toJson_distinct (m : ChatMessage) : m.toJson.Distinct := by
  cases m with
  | text content source usage =>
    exact .optionalField (by simp) (by simp) fun u _ => (u.toJson_plain 0).distinct
  | multiModal parts source =>
    have hparts : ∀ p ∈ parts, p.toJson.Distinct := fun p _ => (p.toJson_plain 0).distinct
    simpa [toJson] using hparts
  | toolCallSummary content source => simp [toJson]
  | handoff content target source => simp [toJson]

theorem ChatMessage.reads (m : ChatMessage) : ChatMessage.decoder.Reads m.toJson m := by
  cases m with
  | text content source usage =>
    exact .tagged (.here (by simp)
      (.required
        (.required (Usage.fits .done (by simp) rfl) (by simp) (.string _) rfl)
        (by simp) (.string _) rfl))
  | multiModal parts source =>
    exact .tagged (.there (by decide) (.here (by simp)
      (.required (.required .done (by simp) (.string _) rfl) (by simp) (.list fun p _ => p.reads) rfl)))
  | toolCallSummary content source =>
    exact .tagged (.there (by decide) (.there (by decide) (.here (by simp)
      (.required (.required .done (by simp) (.string _) rfl) (by simp) (.string _) rfl))))
  | handoff content target source =>
    exact .tagged (.there (by decide) (.there (by decide) (.there (by decide) (.here (by simp)
      (.required
        (.required (.required .done (by simp) (.string _) rfl) (by simp) (.string _) rfl)
        (by simp) (.string _) rfl)))))

/-! ## Events -/

namespace Event

/-- The memory that an event shows. -/
def items : Event → List MemoryItem
  | .memoryQuery items _ => items
  | .toolCallRequest .. | .toolCallExecution .. => []

def mapItems (f : MemoryItem → MemoryItem) : Event → Event
  | .memoryQuery items source => .memoryQuery (items.map f) source
  | .toolCallRequest calls source usage => .toolCallRequest calls source usage
  | .toolCallExecution results source => .toolCallExecution results source

theorem mapItems_eq_self {f : MemoryItem → MemoryItem} {e : Event} :
    e.mapItems f = e ↔ ∀ i ∈ e.items, f i = i := by
  cases e <;> simp [mapItems, items, map_eq_self]

theorem toJson_distinct (e : Event) : e.toJson.Distinct := by
  cases e with
  | memoryQuery items source =>
    have hitems : ∀ i ∈ items, i.toJson.Distinct := fun i _ => i.toJson_distinct
    simpa [toJson] using hitems
  | toolCallRequest calls source usage =>
    have hcalls : ∀ c ∈ calls, c.toJson.Distinct := fun c _ => (c.toJson_plain 0).distinct
    exact .optionalField (by simpa using hcalls) (by simp) fun u _ => (u.toJson_plain 0).distinct
  | toolCallExecution results source =>
    have hresults : ∀ r ∈ results, r.toJson.Distinct := fun r _ => (r.toJson_plain 0).distinct
    simpa [toJson] using hresults

theorem reads (e : Event) : decoder.Reads e.toJson (e.mapItems fun i => i.sorted.withoutNull) := by
  cases e with
  | memoryQuery items source =>
    exact .tagged (.here (by simp)
      (.required (.required .done (by simp) (.string _) rfl) (by simp) (.list_map fun i _ => i.reads) rfl))
  | toolCallRequest calls source usage =>
    exact .tagged (.there (by decide) (.here (by simp)
      (.required
        (.required (Usage.fits .done (by simp) rfl) (by simp) (.string _) rfl)
        (by simp) (.list fun c _ => c.reads) rfl)))
  | toolCallExecution results source =>
    exact .tagged (.there (by decide) (.there (by decide) (.here (by simp)
      (.required (.required .done (by simp) (.string _) rfl) (by simp) (.list fun r _ => r.reads) rfl))))

end Event

/-! ## Responses -/

namespace Response

/-- The memory that the events of a response show. -/
def items (r : Response) : List MemoryItem := r.innerMessages.flatMap Event.items

def mapItems (f : MemoryItem → MemoryItem) (r : Response) : Response :=
  { r with innerMessages := r.innerMessages.map (Event.mapItems f) }

theorem mapItems_eq_self {f : MemoryItem → MemoryItem} {r : Response} :
    r.mapItems f = r ↔ ∀ i ∈ r.items, f i = i := by
  have hevents : r.mapItems f = r ↔ ∀ e ∈ r.innerMessages, e.mapItems f = e := by
    cases r
    simp [mapItems, map_eq_self]
  simp only [hevents, Event.mapItems_eq_self, items, List.mem_flatMap]
  exact ⟨fun h i ⟨e, he, hi⟩ => h e he i hi, fun h e he i hi => h i ⟨e, he, hi⟩⟩

theorem toJson_distinct (r : Response) : r.toJson.Distinct := by
  have hevents : ∀ e ∈ r.innerMessages, e.toJson.Distinct := fun e _ => e.toJson_distinct
  simpa [toJson, r.chatMessage.toJson_distinct] using hevents

theorem reads (r : Response) : decoder.Reads r.toJson (r.mapItems fun i => i.sorted.withoutNull) :=
  .record (by simp)
    (.required (.required .done (by simp) (.list_map fun e _ => e.reads) rfl) (by simp) r.chatMessage.reads rfl)

end Response

/-- A response, and an event, is restored with its memory in order and without null data. It is
restored as it was just when its memory is in order and no data in it are null. A chat message is
restored as it was. -/
theorem Response.restores_toJson :
    (∀ r : Response,
      Response.decoder.Restores r.toJson (r.mapItems fun i => i.sorted.withoutNull) ∧
      (Response.decoder.Restores r.toJson r ↔ ∀ i ∈ r.items, i.InOrder ∧ i.metadata ≠ some .null)) ∧
    (∀ e : Event,
      Event.decoder.Restores e.toJson (e.mapItems fun i => i.sorted.withoutNull) ∧
      (Event.decoder.Restores e.toJson e ↔ ∀ i ∈ e.items, i.InOrder ∧ i.metadata ≠ some .null)) ∧
    ∀ m : ChatMessage, ChatMessage.decoder.Restores m.toJson m := by
  refine ⟨fun r => ?_, fun e => ?_, fun m => m.reads.restores m.toJson_distinct⟩
  · have hr := r.reads.restores r.toJson_distinct
    exact ⟨hr, by simp only [hr.iff_eq, Response.mapItems_eq_self, MemoryItem.sorted_withoutNull_eq_self]⟩
  · have he := e.reads.restores e.toJson_distinct
    exact ⟨he, by simp only [he.iff_eq, Event.mapItems_eq_self, MemoryItem.sorted_withoutNull_eq_self]⟩

end ToolAgent
