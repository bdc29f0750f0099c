import WidgetSync.Attributes
import WidgetSync.Wire.Decode
import WidgetSync.Wire.Encode

/-! A JSON value is the value that its own document denotes. -/
namespace WidgetSync

/-- A key above all others comes last. -/
theorem Entries.insert_of_gt {κ α : Type} [Ord κ] [Std.TransOrd κ] {k : κ} (a : α) {entries : List (κ × α)}
    (h : ∀ p ∈ entries, compare p.1 k = .lt) : Entries.insert k a entries = entries ++ [(k, a)] := by
  induction entries with
  | nil => rfl
  | cons q rest ih =>
    have hgt : compare k q.1 = .gt := Std.OrientedCmp.gt_of_lt (h q List.mem_cons_self)
    have hrest := ih fun p hp => h p (List.mem_cons_of_mem _ hp)
    simp only [Entries.insert, hgt, hrest, List.cons_append]

namespace Json

mutual

/-- There is nothing to sort in a value. -/
theorem normalize_of_canonical : (j : Json) → j.Canonical → j.normalize = j
  | .null, _ | .bool _, _ | .num _, _ | .str _, _ => rfl
  | .arr items, h => congrArg Json.arr (normalizeItems_of_canonical items h)
  | .obj members, h => congrArg Json.obj (normalizeMembers_of_canonical members h.2 [] h.1)
termination_by structural j => j

theorem normalizeItems_of_canonical : (items : List Json) → CanonicalItems items → normalizeItems items = items
  | [], _ => rfl
  | j :: rest, h => by rw [normalizeItems, normalize_of_canonical j h.1, normalizeItems_of_canonical rest h.2]
termination_by structural items => items

/-- Members in ascending order are added behind those that are there. -/
theorem normalizeMembers_of_canonical : (members : List (String × Json)) → CanonicalMembers members →
    (acc : List (String × Json)) → (acc ++ members).Pairwise (fun p q => compare p.1 q.1 = .lt) →
    normalizeMembers acc members = acc ++ members
  | [], _, acc, _ => (List.append_nil acc).symm
  | (k, j) :: rest, h, acc, hasc => by
    have habove : ∀ p ∈ acc, compare p.1 k = .lt := fun p hp =>
      (List.pairwise_append.mp hasc).2.2 p hp (k, j) List.mem_cons_self
    have hnext : acc ++ (k, j) :: rest = acc ++ [(k, j)] ++ rest := List.append_cons acc (k, j) rest
    rw [normalizeMembers, normalize_of_canonical j h.1, Entries.insert_of_gt j habove, hnext]
    exact normalizeMembers_of_canonical rest h.2 (acc ++ [(k, j)]) (hnext ▸ hasc)
termination_by structural members => members

end

end Json

namespace Value

@[simp] theorem ofJson_json (v : Value) : ofJson v.json = v := ext (v.json.normalize_of_canonical v.canonical)

theorem toObject_members (m : OrdMap String Value) (h : (Json.obj (members m)).Canonical) :
    toObject (members m) h = m := by
  have hentry : ∀ p : String × Value, ∀ hp : p.2.json.Canonical, (p.1, Value.mk p.2.json hp) = p := fun _ _ => rfl
  have hentries : (toObject (members m) h).entries = m.entries := by
    simp only [toObject, members, List.pmap_map, hentry, List.pmap_eq_map, List.map_id']
  obtain ⟨entries, _⟩ := m
  exact (OrdMap.mk.injEq ..).mpr hentries

/-- The members of an object are those it was made of. -/
@[simp] theorem asObject?_ofObject (m : OrdMap String Value) : (ofObject m).asObject? = some m :=
  congrArg some (toObject_members m (ofObject m).canonical)

end Value

@[simp] theorem Attributes.ofJson?_toJson (attributes : Attributes) :
    Attributes.ofJson? attributes.toJson = some attributes := by
  rw [Attributes.ofJson?, Attributes.toJson, Value.ofJson_json]
  exact Value.asObject?_ofObject attributes

end WidgetSync
