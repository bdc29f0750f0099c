import WidgetSync.OrdMap
import Mathlib.Data.List.Basic
import Mathlib.Data.List.Nodup
import Mathlib.Data.List.Pairwise

/-! Further laws of finite maps: the look-ups of the remaining operations, merging as a monoid, and
keys and values as lists without repetition of keys. -/
namespace WidgetSync

variable {κ α β : Type} [Ord κ]

namespace Entries

theorem find?_map (f : κ → α → β) (k : κ) [Std.LawfulEqOrd κ] (entries : List (κ × α)) :
    find? k (entries.map fun p => (p.1, f p.1 p.2)) = (find? k entries).map (f k) := by
  induction entries with
  | nil => rfl
  | cons q rest ih =>
    obtain ⟨l, a⟩ := q
    simp only [List.map_cons, find?]
    split
    · next h =>
      obtain rfl := Std.LawfulEqOrd.eq_of_compare h
      rfl
    · exact ih

end Entries

namespace OrdMap

theorem contains_iff {m : OrdMap κ α} {k : κ} : m.contains k = true ↔ ∃ a, m.get? k = some a := by
  rw [contains, Option.isSome_iff_exists]

theorem contains_eq_false_iff {m : OrdMap κ α} {k : κ} :
    m.contains k = false ↔ m.get? k = none := by
  rw [contains, Option.isSome_eq_false_iff, Option.isNone_iff_eq_none]

/-- A key with a value is not one without. -/
theorem ne_of_get? {m : OrdMap κ α} {k l : κ} {a : α} (hk : m.get? k = none)
    (hl : m.get? l = some a) : k ≠ l := by
  intro he
  rw [he, hl] at hk
  contradiction

@[simp] theorem get?_emptyCollection (k : κ) : (∅ : OrdMap κ α).get? k = none := rfl

theorem eq_empty_of_isEmpty {m : OrdMap κ α} (h : m.isEmpty = true) : m = ∅ := by
  have he : m.entries = [] := List.isEmpty_iff.mp h
  cases m with
  | mk entries ascending =>
    obtain rfl : entries = [] := he
    rfl

section Lookup

variable [Std.LawfulEqOrd κ]

theorem ne_of_compare_lt {k l : κ} (h : compare k l = .lt) : k ≠ l := by
  intro he
  rw [he, @Std.ReflCmp.compare_self κ compare _ l] at h
  exact absurd h (by decide)

@[simp] theorem get?_mapValues (m : OrdMap κ α) (f : κ → α → β) (k : κ) :
    (m.mapValues f).get? k = (m.get? k).map (f k) :=
  Entries.find?_map f k m.entries

theorem get?_modify [DecidableEq κ] (m : OrdMap κ α) (k l : κ) (f : α → α) :
    (m.modify k f).get? l = if k = l then (m.get? l).map f else m.get? l := by
  rw [modify, get?_mapValues]
  by_cases h : k = l
  · subst h
    simp
  · simp [h]

theorem get?_filter (m : OrdMap κ α) (keep : κ → α → Bool) (k : κ) :
    (m.filter keep).get? k = (m.get? k).filter (keep k) := by
  apply Option.ext
  intro a
  rw [get?_eq_some_iff, Option.filter_eq_some_iff, get?_eq_some_iff]
  exact List.mem_filter

theorem get?_erase [DecidableEq κ] (m : OrdMap κ α) (k l : κ) :
    (m.erase k).get? l = if k = l then none else m.get? l := by
  rw [erase, get?_filter]
  by_cases h : k = l
  · subst h
    cases m.get? k <;> simp [Option.filter]
  · have hc : (compare k l != .eq) = true := by
      simpa [Std.LawfulEqOrd.compare_eq_iff_eq] using h
    rw [if_neg h]
    cases m.get? l <;> simp [Option.filter, hc]

theorem mem_keys {m : OrdMap κ α} {k : κ} : k ∈ m.keys ↔ ∃ a, m.get? k = some a := by
  simp only [keys, List.mem_map, Prod.exists, get?_eq_some_iff]
  constructor
  · rintro ⟨k', a, hm, rfl⟩
    exact ⟨a, hm⟩
  · rintro ⟨a, hm⟩
    exact ⟨k, a, hm, rfl⟩

theorem mem_values {m : OrdMap κ α} {a : α} : a ∈ m.values ↔ ∃ k, m.get? k = some a := by
  simp only [values, List.mem_map, Prod.exists, get?_eq_some_iff]
  constructor
  · rintro ⟨k, a', hm, rfl⟩
    exact ⟨k, hm⟩
  · rintro ⟨k, hm⟩
    exact ⟨k, a, hm, rfl⟩

/-- A relation of any two values under different keys holds along the list of values. -/
theorem pairwise_values {m : OrdMap κ α} {R : α → α → Prop}
    (h : ∀ k l a b, k ≠ l → m.get? k = some a → m.get? l = some b → R a b) :
    m.values.Pairwise R := by
  refine List.pairwise_map.mpr (m.ascending.imp_of_mem ?_)
  intro p q hp hq hlt
  exact h p.1 q.1 p.2 q.2 (ne_of_compare_lt hlt) (get?_eq_some_iff.mpr hp)
    (get?_eq_some_iff.mpr hq)

/-- A symmetric relation along the list of values holds of any two values under different keys. -/
theorem rel_of_pairwise_values {m : OrdMap κ α} {R : α → α → Prop} (hR : ∀ a b, R a b → R b a)
    (h : m.values.Pairwise R) {k l : κ} {a b : α} (hne : k ≠ l)
    (ha : m.get? k = some a) (hb : m.get? l = some b) : R a b := by
  have hp : m.entries.Pairwise fun p q => R p.2 q.2 := List.pairwise_map.mp h
  have hs : Std.Symm (fun p q : κ × α => R p.2 q.2) := ⟨fun p q => hR p.2 q.2⟩
  refine hp.forall (get?_eq_some_iff.mp ha) (get?_eq_some_iff.mp hb) ?_
  intro he
  exact hne (congrArg Prod.fst he)

end Lookup

section Order

variable [Std.TransOrd κ] [Std.LawfulEqOrd κ]

theorem get?_insert_eq [DecidableEq κ] (m : OrdMap κ α) (k l : κ) (a : α) :
    (m.insert k a).get? l = if k = l then some a else m.get? l := by
  simp only [get?_insert, Std.LawfulEqOrd.compare_eq_iff_eq]

/-- Of two values for a key the later one stays. -/
theorem insert_insert (m : OrdMap κ α) (k : κ) (a b : α) : (m.insert k a).insert k b = m.insert k b := by
  refine ext fun l => ?_
  simp only [get?_insert]
  split <;> rfl

theorem isEmpty_iff {m : OrdMap κ α} : m.isEmpty = true ↔ ∀ k, m.get? k = none := by
  constructor
  · intro h k
    rw [eq_empty_of_isEmpty h]
    rfl
  · intro h
    have he : m = ∅ := ext h
    rw [he]
    rfl

@[simp] theorem merge_empty (m : OrdMap κ α) : m.merge ∅ = m := rfl

@[simp] theorem empty_merge (m : OrdMap κ α) : (∅ : OrdMap κ α).merge m = m := by
  refine ext fun k => ?_
  rw [get?_merge, get?_emptyCollection]
  cases m.get? k <;> rfl

theorem contains_merge {a b : OrdMap κ α} {k : κ} :
    (a.merge b).contains k = true ↔ a.contains k = true ∨ b.contains k = true := by
  rw [contains, contains, contains, get?_merge]
  cases b.get? k <;> simp

/-- Merging is associative: what is written last wins, however the writes are grouped. -/
theorem merge_assoc (a b c : OrdMap κ α) : (a.merge b).merge c = a.merge (b.merge c) := by
  refine ext fun k => ?_
  simp only [get?_merge]
  cases c.get? k <;> rfl

@[simp] theorem merge_self (m : OrdMap κ α) : m.merge m = m := by
  refine ext fun k => ?_
  rw [get?_merge]
  cases m.get? k <;> rfl

/-- What was merged into a map may be merged into that map as a whole. -/
theorem merge_merge_self (a b : OrdMap κ α) : a.merge (a.merge b) = a.merge b := by
  rw [← merge_assoc, merge_self]

end Order

end OrdMap

end WidgetSync
