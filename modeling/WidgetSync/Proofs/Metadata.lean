import WidgetSync.Metadata
import WidgetSync.Proofs.Json.Canonical
import WidgetSync.Proofs.Json.Reading

/-! Metadata comes back from the dialog as it went in, unless somebody edits it. -/
namespace WidgetSync

namespace Json

variable {j : Json} (he : j.Exact) (hd : j.depth ≤ maxDepth)

include he hd

theorem read?_pretty : read? j.pretty = some j := by
  have hread := readChars?_of_spells (Writer.spells_prettyValue 0 j he) hd gap_nil gap_nil
  rwa [List.nil_append, List.append_nil, ← toList_pretty] at hread

theorem read?_compact : read? j.compact = some j := by
  have hread := readChars?_value he hd gap_nil gap_nil
  rwa [List.nil_append, List.append_nil, ← toList_compact] at hread

end Json

namespace MetadataEditor

theorem save_of_read? {e : MetadataEditor} {document : Json} (h : Json.read? e.text = some document) :
    e.save.2 = some (.ofJson document) := by
  rw [save, h]

/-- A value without doubles, of no more levels than the reader takes, is what the dialog gives back: for the text that
it shows, for the compact text, for every text that is read as the value, and for every one that spells a document
that denotes it, in whatever order the members come and whatever blanks there are. Then it shows the same text again. -/
theorem unedited_metadata_returned (name : String) (v : Value) (he : v.json.Exact) (hd : v.json.depth ≤ 127) :
    let shown := start name (some v)
    shown.save.2 = some v ∧ (shown.setText v.json.compact).save.2 = some v ∧
      (∀ text document, Json.read? text = some document → .ofJson document = v →
        (shown.setText text).save.2 = some v) ∧
      (∀ document before text after, .ofJson document = v → Json.Spells document text → document.depth ≤ 127 →
        Json.Gap before → Json.Gap after →
        (shown.setText (String.ofList (before ++ (text ++ after)))).save.2 = some v) ∧
      ∀ returned, shown.save.2 = some returned → (start name (some returned)).text = shown.text := by
  intro shown
  have hany (text : String) (document : Json) (hread : Json.read? text = some document) (hv : .ofJson document = v) :
      (shown.setText text).save.2 = some v := by
    have htext : Json.read? (shown.setText text).text = some document := hread
    rw [save_of_read? htext, hv]
  have hshown : shown.save.2 = some v := by
    have hread : Json.read? shown.text = some v.json := Json.read?_pretty he hd
    rw [save_of_read? hread, v.ofJson_json]
  refine ⟨hshown, hany _ _ (Json.read?_compact he hd) v.ofJson_json, hany, ?_, ?_⟩
  · intro document before text after hv hspells hdepth hb ha
    refine hany _ document ?_ hv
    rw [Json.read?, String.toList_ofList]
    exact Json.readChars?_of_spells hspells hdepth hb ha
  · intro returned hreturned
    obtain rfl := Option.some.inj (hshown.symm.trans hreturned)
    rfl

end MetadataEditor

/-- So many arrays around a value. -/
def Value.nested (v : Value) : Nat → Value
  | 0 => v
  | n + 1 => ⟨.arr [(v.nested n).json], (v.nested n).canonical, trivial⟩

theorem Value.depth_nested (v : Value) (n : Nat) : (v.nested n).json.depth = v.json.depth + n := by
  induction n with
  | zero => rfl
  | succ n ih =>
    show max (v.nested n).json.depth 0 + 1 = _
    rw [ih, Nat.max_zero, Nat.add_assoc]

theorem Value.exact_nested {v : Value} (h : v.json.Exact) (n : Nat) : (v.nested n).json.Exact := by
  induction n with
  | zero => exact h
  | succ n ih => exact ⟨ih, trivial⟩

namespace MetadataEditor

/-- The numbers at both ends of the 64-bit ranges, empty containers, characters that are escaped and characters of two
to four bytes, within as many levels as are allowed. -/
theorem deepest_metadata_returned :
    let data : Value := .ofJson (.obj [("k\n\"é", .arr [.null, .num (.int (-0x8000000000000000) (by decide)), .obj [],
      .num (.int 0xFFFFFFFFFFFFFFFF (by decide)), .str "\x00→𝄞\\"]), ("", .arr [])])
    let shown := start "cell" (some (data.nested 124))
    shown.save.2 = some (data.nested 124) ∧
      (shown.setText (data.nested 124).json.compact).save.2 = some (data.nested 124) := by
  intro data shown
  have he : data.json.Exact := ⟨trivial, ⟨trivial, trivial, trivial, trivial, trivial, trivial⟩, trivial⟩
  have hd : (data.nested 124).json.depth ≤ 127 := by
    rw [Value.depth_nested]
    decide
  obtain ⟨hshown, hcompact, -⟩ := unedited_metadata_returned "cell" (data.nested 124) (Value.exact_nested he 124) hd
  exact ⟨hshown, hcompact⟩

end MetadataEditor

end WidgetSync
