import WidgetSync.Proofs.Json.Reading
import WidgetSync.Proofs.Wire.RoundTrip

/-! The text formats of messages. What 64 bits and the wire can carry is read back from its text, which is one line. -/
namespace WidgetSync

open Wire

/-- No number embedded in the message is a double. -/
def SyncMessage.Exact : SyncMessage → Prop
  | .update data | .patch data => data.toJson.Exact
  | .custom content => content.json.Exact

def Frame.Exact : Frame → Prop
  | .message _ data _ => data.Exact
  | .close _ => True

def ModelMessage.Exact : ModelMessage → Prop
  | .display _ _ _ => True
  | .update state => state.toJson.Exact

def SessionEvent.Exact : SessionEvent → Prop
  | .commMessage message => message.data.json.Exact
  | _ => True

namespace Wire

theorem exact_natural (n : Nat) : (natural n).Exact := by
  unfold natural
  split <;> trivial

theorem exact_nullable {α : Type} {encode : α → Json} (h : ∀ a, (encode a).Exact) (o : Option α) :
    (nullable encode o).Exact := by
  cases o with
  | none => trivial
  | some a => exact h a

end Wire

theorem GroupKey.exact_toJson (key : GroupKey) : key.toJson.Exact := by
  cases key with
  | cell index => exact ⟨exact_natural index, trivial⟩
  | detached => trivial

theorem Callbacks.exact_toJson (callbacks : Callbacks) : callbacks.toJson.Exact :=
  ⟨exact_nullable GroupKey.exact_toJson callbacks.output, trivial⟩

theorem SyncMessage.exact_toJson {message : SyncMessage} (h : message.Exact) : message.toJson.Exact := by
  cases message <;> exact ⟨trivial, h, trivial⟩

theorem Frame.exact_toJson {frame : Frame} (h : frame.Exact) : frame.toJson.Exact := by
  cases frame with
  | message comm data callbacks =>
    exact ⟨trivial, trivial, SyncMessage.exact_toJson h, callbacks.exact_toJson, trivial⟩
  | close comm => exact ⟨trivial, trivial, trivial⟩

theorem ModelMessage.exact_toJson {message : ModelMessage} (h : message.Exact) : message.toJson.Exact := by
  cases message with
  | display viewName parent cell =>
    have hcomm : ∀ comm : CommId, comm.toJson.Exact := fun _ => trivial
    exact ⟨trivial, trivial, exact_nullable hcomm parent, exact_nullable exact_natural cell, trivial⟩
  | update state => exact ⟨trivial, h, trivial⟩

theorem UiEvent.exact_toJson (event : UiEvent) : event.toJson.Exact := by
  cases event with
  | click => exact ⟨trivial, trivial⟩
  | input text => exact ⟨trivial, trivial, trivial⟩
  | slide position => exact ⟨trivial, trivial, trivial⟩

theorem SessionEvent.exact_toJson {event : SessionEvent} (h : event.Exact) : event.toJson.Exact := by
  cases event with
  | execute cell message => exact ⟨trivial, exact_natural cell, trivial, trivial⟩
  | commMessage message =>
    have hstring : ∀ text : String, (Json.str text).Exact := fun _ => trivial
    exact ⟨trivial, trivial, h, exact_nullable hstring message.parentMessage, trivial⟩
  | ui view event => exact ⟨trivial, exact_natural view.index, event.exact_toJson, trivial⟩
  | removeView view => exact ⟨trivial, exact_natural view.index, trivial⟩
  | commOpen request => exact ⟨trivial, trivial, trivial, trivial⟩
  | commClose comm => exact ⟨trivial, trivial, trivial⟩
  | status comm report => exact ⟨trivial, trivial, trivial, trivial⟩
  | output comm text => exact ⟨trivial, trivial, trivial, trivial⟩

/-- A kind of message with its JSON form, which loses nothing of an index that 64 bits hold. -/
structure Format (α : Type) where
  encode : α → Json
  decode : Json → Option α
  /-- Whether 64 bits hold every index. -/
  Sized : α → Prop
  /-- Whether no embedded number is a double. -/
  Exact : α → Prop
  decode_encode : ∀ a, Sized a → decode (encode a) = some a
  exact_encode : ∀ a, Exact a → (encode a).Exact

namespace Format

variable {α : Type} (f : Format α)

/-- The message as text. -/
def text (a : α) : String := (f.encode a).compact

/-- The message that a text holds. -/
def read? (text : String) : Option α := Json.read? text >>= f.decode

/-- Whether a message is one of its kind on a machine of 64 bits, has no double in it and does not nest too deeply. -/
structure Portable (a : α) : Prop where
  sized : f.Sized a
  exact : f.Exact a
  shallow : (f.encode a).depth ≤ Json.maxDepth

/-- The message comes back from its text, which is one line. -/
structure ReadBack (a : α) : Prop where
  read : f.read? (f.text a) = some a
  oneLine : '\n' ∉ (f.text a).toList ∧ '\x0d' ∉ (f.text a).toList

variable {f} {a : α}

theorem Portable.exact_encode (h : f.Portable a) : (f.encode a).Exact := f.exact_encode a h.exact

/-- The message is read back from its text, whatever blanks stand behind it. -/
theorem read?_append (h : f.Portable a) {gap : List Char} (hg : Json.Gap gap) :
    f.read? (String.ofList ((f.text a).toList ++ gap)) = some a := by
  have hread := Json.readChars?_value h.exact_encode h.shallow Json.gap_nil hg
  rw [List.nil_append] at hread
  rw [read?, Json.read?, String.toList_ofList, text, Json.toList_compact, hread]
  exact f.decode_encode a h.sized

theorem le_of_mem_text (h : f.Portable a) {c : Char} (hc : c ∈ (f.text a).toList) : ' ' ≤ c := by
  rw [text, Json.toList_compact] at hc
  exact Json.Writer.le_of_mem_value _ h.exact_encode c hc

theorem Portable.readBack (h : f.Portable a) : f.ReadBack a where
  read := by
    have hread := read?_append h Json.gap_nil
    rwa [List.append_nil, String.ofList_toList] at hread
  oneLine := by
    constructor
    all_goals exact fun hc => absurd (le_of_mem_text h hc) (by decide)

end Format

def SyncMessage.format : Format SyncMessage where
  encode := SyncMessage.toJson
  decode := SyncMessage.ofJson? .outer
  Sized _ := True
  Exact := SyncMessage.Exact
  decode_encode message _ := message.ofJson?_toJson .outer
  exact_encode _ := SyncMessage.exact_toJson

def Frame.format : Format Frame where
  encode := Frame.toJson
  decode := Frame.ofJson?
  Sized := Frame.Sized
  Exact := Frame.Exact
  decode_encode _ := Frame.ofJson?_toJson
  exact_encode _ := Frame.exact_toJson

/-- The backend's messages come as values, in the data of a comm message. -/
def ModelMessage.format : Format ModelMessage where
  encode := ModelMessage.toJson
  decode j := ModelMessage.ofJson? (.ofJson j)
  Sized := ModelMessage.Sized
  Exact := ModelMessage.Exact
  decode_encode _ := ModelMessage.ofJson?_toJson
  exact_encode _ := ModelMessage.exact_toJson

def SessionEvent.format : Format SessionEvent where
  encode := SessionEvent.toJson
  decode := SessionEvent.ofJson?
  Sized := SessionEvent.Sized
  Exact := SessionEvent.Exact
  decode_encode _ := SessionEvent.ofJson?_toJson
  exact_encode _ := SessionEvent.exact_toJson

end WidgetSync
