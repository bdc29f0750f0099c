import WidgetSync.Proofs.Attributes
import WidgetSync.Proofs.Json.Canonical

/-! Messages are read back from their JSON form, as long as 64 bits hold their indices. -/
namespace WidgetSync

namespace Wire

/-- Whether 64 bits hold an index. -/
def IsWord (n : Nat) : Prop := n < 0x10000000000000000

theorem word?_natural {n : Nat} (h : IsWord n) : word? (natural n) = some n := by
  have hnatural : natural n = .num (.int n _) := dif_pos h
  rw [hnatural]
  rfl

theorem natural_ne_null {n : Nat} (h : IsWord n) : natural n ≠ .null := by
  have hnatural : natural n = .num (.int n _) := dif_pos h
  rw [hnatural]
  exact Json.noConfusion

theorem canonical_natural (n : Nat) : (natural n).Canonical := by
  unfold natural
  split <;> trivial

theorem canonical_nullable {α : Type} {encode : α → Json} (h : ∀ a, (encode a).Canonical) (o : Option α) :
    (nullable encode o).Canonical := by
  cases o with
  | none => trivial
  | some a => exact h a

theorem optional?_nullable {α : Type} {encode : α → Json} {decode : Json → Option α} {o : Option α}
    (h : ∀ a ∈ o, encode a ≠ .null ∧ decode (encode a) = some a) : optional? decode (nullable encode o) = some o := by
  cases o with
  | none => rfl
  | some a =>
    obtain ⟨hnull, hread⟩ := h a rfl
    rw [nullable, optional?, hread]
    · rfl
    · exact hnull

end Wire

open Wire

@[simp] theorem CommId.ofJson?_toJson (comm : CommId) : CommId.ofJson? comm.toJson = some comm := rfl

/-- The index has 64 bits. -/
def ViewId.Sized (view : ViewId) : Prop := IsWord view.index

theorem ViewId.ofJson?_toJson {view : ViewId} (h : view.Sized) : ViewId.ofJson? view.toJson = some view := by
  rw [ViewId.ofJson?, ViewId.toJson, word?_natural h]
  rfl

theorem ExecutionState.ofJson?_toJson (place : Place) (state : ExecutionState) :
    ExecutionState.ofJson? place state.toJson = some state := state.ofName?_name

/-- The index of the cell, if there is one, has 64 bits. -/
def GroupKey.Sized : GroupKey → Prop
  | .cell index => IsWord index
  | .detached => True

theorem GroupKey.ofJson?_toJson (place : Place) {key : GroupKey} (h : key.Sized) :
    GroupKey.ofJson? place key.toJson = some key := by
  cases key with
  | cell index =>
    rw [GroupKey.toJson, GroupKey.ofJson?, word?_natural h]
    rfl
  | detached => rfl

theorem GroupKey.toJson_ne_null (key : GroupKey) : key.toJson ≠ .null := by
  cases key <;> exact Json.noConfusion

/-- The index of the cell they name, if they name one, has 64 bits. -/
def Callbacks.Sized (callbacks : Callbacks) : Prop := ∀ key ∈ callbacks.output, key.Sized

theorem Callbacks.ofJson?_toJson (place : Place) {callbacks : Callbacks} (h : callbacks.Sized) :
    Callbacks.ofJson? place callbacks.toJson = some callbacks := by
  have hread : Callbacks.ofJson? place callbacks.toJson = (do
      pure ⟨← optional? (GroupKey.ofJson? place) (nullable GroupKey.toJson callbacks.output)⟩) := rfl
  have houtput := optional?_nullable fun key hkey => ⟨key.toJson_ne_null, GroupKey.ofJson?_toJson place (h key hkey)⟩
  rw [hread, houtput]
  rfl

theorem SyncMessage.ofJson?_toJson (place : Place) (message : SyncMessage) :
    SyncMessage.ofJson? place message.toJson = some message := by
  -- The tag and the names are fixed, so that reading comes down to the payload by computation.
  cases message with
  | update data =>
    have hread : SyncMessage.ofJson? place (SyncMessage.update data).toJson
        = (Attributes.ofJson? data.toJson).map .update := rfl
    rw [hread, Attributes.ofJson?_toJson]
    rfl
  | patch data =>
    have hread : SyncMessage.ofJson? place (SyncMessage.patch data).toJson
        = (Attributes.ofJson? data.toJson).map .patch := rfl
    rw [hread, Attributes.ofJson?_toJson]
    rfl
  | custom content =>
    have hread : SyncMessage.ofJson? place (SyncMessage.custom content).toJson
        = some (.custom (.ofJson content.json)) := rfl
    rw [hread, Value.ofJson_json]

def Frame.Sized : Frame → Prop
  | .message _ _ callbacks => callbacks.Sized
  | .close _ => True

theorem Frame.ofJson?_toJson {frame : Frame} (h : frame.Sized) : Frame.ofJson? frame.toJson = some frame := by
  cases frame with
  | message comm data callbacks =>
    have hread : Frame.ofJson? (Frame.message comm data callbacks).toJson = (do
        pure (.message (← CommId.ofJson? comm.toJson) (← SyncMessage.ofJson? .inner data.toJson)
          (← Callbacks.ofJson? .inner callbacks.toJson))) := rfl
    rw [hread, SyncMessage.ofJson?_toJson, Callbacks.ofJson?_toJson .inner h]
    rfl
  | close comm => rfl

theorem UiEvent.ofJson?_toJson (place : Place) (event : UiEvent) : UiEvent.ofJson? place event.toJson = some event := by
  cases event with
  | click => rfl
  | input text => rfl
  | slide position =>
    have hread : UiEvent.ofJson? place (UiEvent.slide position).toJson
        = (Value.ofInt64 position).asInt64?.map .slide := rfl
    rw [hread, Value.asInt64?_eq_some_iff.mpr rfl]
    rfl

/-- Cells and views have an index of 64 bits. -/
def SessionEvent.Sized : SessionEvent → Prop
  | .execute cell _ => IsWord cell
  | .ui view _ | .removeView view => view.Sized
  | _ => True

theorem CommMessage.ofJson?_members (message : CommMessage) :
    CommMessage.ofJson? (.obj message.members) = some message := by
  have hread : CommMessage.ofJson? (.obj message.members) = (do
      pure ⟨message.comm, .ofJson message.data.json, ← optional? string? (nullable .str message.parentMessage)⟩) := rfl
  have hparent : optional? string? (nullable .str message.parentMessage) = some message.parentMessage :=
    optional?_nullable fun _ _ => ⟨Json.noConfusion, rfl⟩
  rw [hread, hparent, Value.ofJson_json]
  rfl

theorem SessionEvent.ofJson?_toJson {event : SessionEvent} (h : event.Sized) :
    SessionEvent.ofJson? event.toJson = some event := by
  cases event with
  | execute cell message =>
    have hread : SessionEvent.ofJson? (SessionEvent.execute cell message).toJson = (do
        pure (.execute (← word? (natural cell)) message)) := rfl
    rw [hread, word?_natural h]
    rfl
  | commMessage message =>
    have hread : SessionEvent.ofJson? (SessionEvent.commMessage message).toJson
        = (CommMessage.ofJson? (.obj message.members)).map .commMessage := rfl
    rw [hread, CommMessage.ofJson?_members]
    rfl
  | status comm report =>
    have hread : SessionEvent.ofJson? (SessionEvent.status comm report).toJson = (do
        pure (.status comm ⟨← ExecutionState.ofJson? .inner report.state.toJson⟩)) := rfl
    rw [hread, ExecutionState.ofJson?_toJson]
    rfl
  | ui view event =>
    have hread : SessionEvent.ofJson? (SessionEvent.ui view event).toJson = (do
        pure (.ui (← ViewId.ofJson? view.toJson) (← UiEvent.ofJson? .inner event.toJson))) := rfl
    rw [hread, ViewId.ofJson?_toJson h, UiEvent.ofJson?_toJson]
    rfl
  | removeView view =>
    have hread : SessionEvent.ofJson? (SessionEvent.removeView view).toJson
        = (ViewId.ofJson? view.toJson).map .removeView := rfl
    rw [hread, ViewId.ofJson?_toJson h]
    rfl
  | _ => rfl

/-- The index of the cell, if there is one, has 64 bits. -/
def ModelMessage.Sized : ModelMessage → Prop
  | .display _ _ cell => ∀ index ∈ cell, IsWord index
  | .update _ => True

/-- As a value, the message has its members sorted, so that the tag is not the first one. -/
theorem ModelMessage.json_display (viewName : String) (parent : Option CommId) (cell : Option Nat) :
    (Value.ofJson (ModelMessage.display viewName parent cell).toJson).json
      = .obj [("cell_index", nullable natural cell), ("method", .str "display"),
          ("parent", nullable CommId.toJson parent), ("view_name", .str viewName)] := by
  have hcell := Json.normalize_of_canonical _ (canonical_nullable canonical_natural cell)
  have hcomm : ∀ comm : CommId, comm.toJson.Canonical := fun _ => trivial
  have hparent := Json.normalize_of_canonical _ (canonical_nullable hcomm parent)
  simp only [Value.ofJson, ModelMessage.toJson, Json.normalize, Json.normalizeMembers, hcell, hparent]
  rfl

theorem ModelMessage.json_update (state : Attributes) :
    (Value.ofJson (ModelMessage.update state).toJson).json
      = .obj [("method", .str "update"), ("state", state.toJson)] := by
  have hstate := Json.normalize_of_canonical state.toJson state.toValue.canonical
  simp only [Value.ofJson, ModelMessage.toJson, Json.normalize, Json.normalizeMembers, hstate]
  rfl

theorem ModelMessage.ofJson?_toJson {message : ModelMessage} (h : message.Sized) :
    ModelMessage.ofJson? (.ofJson message.toJson) = some message := by
  cases message with
  | display viewName parent cell =>
    have hparent : orMissing? CommId.ofJson? (some (nullable CommId.toJson parent)) = some parent :=
      optional?_nullable fun _ _ => ⟨Json.noConfusion, rfl⟩
    have hcell : orMissing? word? (some (nullable natural cell)) = some cell :=
      optional?_nullable fun index hindex => ⟨natural_ne_null (h index hindex), word?_natural (h index hindex)⟩
    have hread : ModelMessage.ofJson? (.ofJson (ModelMessage.display viewName parent cell).toJson) = (do
        pure (.display viewName (← orMissing? CommId.ofJson? (some (nullable CommId.toJson parent)))
          (← orMissing? word? (some (nullable natural cell))))) := by
      rw [ModelMessage.ofJson?, ModelMessage.json_display]
      rfl
    rw [hread, hparent, hcell]
    rfl
  | update state =>
    have hread : ModelMessage.ofJson? (.ofJson (ModelMessage.update state).toJson)
        = (Attributes.ofJson? state.toJson).map .update := by
      rw [ModelMessage.ofJson?, ModelMessage.json_update]
      rfl
    rw [hread, Attributes.ofJson?_toJson]
    rfl

end WidgetSync
