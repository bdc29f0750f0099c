/-! Finite maps kept as association lists in strictly ascending key order.
Two maps with the same look-ups are equal (`ext`), and each operation has one equation for its look-ups. -/
namespace WidgetSync

variable {κ α : Type} [Ord κ]

/-- A finite map, listed by strictly ascending key. -/
structure OrdMap (κ α : Type) [Ord κ] where
  entries : List (κ × α)
  ascending : entries.Pairwise (fun p q => compare p.1 q.1 = .lt)

namespace Entries

def find? (k : κ) : List (κ × α) → Option α
  | [] => none
  | (k', a) :: rest => if compare k k' = .eq then some a else find? k rest

def insert (k : κ) (a : α) : List (κ × α) → List (κ × α)
  | [] => [(k, a)]
  | (k', a') :: rest =>
    match compare k k' with
    | .lt => (k, a) :: (k', a') :: rest
    | .eq => (k, a) :: rest
    | .gt => (k', a') :: insert k a rest

theorem mem_insert {k : κ} {a : α} {p : κ × α} {entries : List (κ × α)}
    (h : p ∈ insert k a entries) : p = (k, a) ∨ p ∈ entries := by
  induction entries with
  | nil => exact .inl (List.mem_singleton.mp h)
  | cons q rest ih =>
    obtain ⟨k', a'⟩ := q
    simp only [insert] at h
    split at h
    · simpa using h
    · rcases List.mem_cons.mp h with h | h
      · exact .inl h
      · exact .inr (List.mem_cons_of_mem _ h)
    · rcases List.mem_cons.mp h with h | h
      · exact .inr (h ▸ List.mem_cons_self)
      · exact (ih h).imp_right (List.mem_cons_of_mem _)

/-- Below every key there is nothing to find. -/
theorem find?_eq_none_of_lt {k : κ} {entries : List (κ × α)}
    (h : ∀ p ∈ entries, compare k p.1 = .lt) : find? k entries = none := by
  induction entries with
  | nil => rfl
  | cons q rest ih =>
    obtain ⟨k', a'⟩ := q
    have hk : compare k k' = .lt := h _ List.mem_cons_self
    simp [find?, hk, ih fun p hp => h p (List.mem_cons_of_mem _ hp)]

section Lawful

variable [Std.LawfulEqOrd κ]

theorem find?_insert_self (k : κ) (a : α) (entries : List (κ × α)) :
    find? k (insert k a entries) = some a := by
  induction entries with
  | nil => simp [insert, find?]
  | cons q rest ih =>
    obtain ⟨k', a'⟩ := q
    simp only [insert]
    split
    · simp [find?]
    · simp [find?]
    · next h => simp [find?, h, ih]

theorem find?_insert_of_ne {k l : κ} (hne : k ≠ l) (a : α) (entries : List (κ × α)) :
    find? l (insert k a entries) = find? l entries := by
  have hl : compare l k ≠ .eq := fun h => hne (Std.LawfulEqOrd.eq_of_compare h).symm
  induction entries with
  | nil => simp [insert, find?, hl]
  | cons q rest ih =>
    obtain ⟨k', a'⟩ := q
    simp only [insert]
    split
    · simp [find?, hl]
    · next h =>
      obtain rfl := Std.LawfulEqOrd.eq_of_compare h
      simp [find?, hl]
    · simp [find?, ih]

theorem find?_eq_some_iff {k : κ} {a : α} {entries : List (κ × α)}
    (h : entries.Pairwise (fun p q => compare p.1 q.1 = .lt)) :
    find? k entries = some a ↔ (k, a) ∈ entries := by
  induction entries with
  | nil => simp [find?]
  | cons q rest ih =>
    obtain ⟨k', a'⟩ := q
    obtain ⟨hq, hrest⟩ := List.pairwise_cons.mp h
    simp only [find?]
    split
    · next hk =>
      obtain rfl := Std.LawfulEqOrd.eq_of_compare hk
      refine ⟨fun h => by simp_all, fun h => ?_⟩
      rcases List.mem_cons.mp h with h | h
      · simp_all
      · have := hq _ h
        simp at this
    · next hk =>
      have hne : ¬(k = k' ∧ a = a') := fun h => hk (h.1 ▸ Std.ReflCmp.compare_self)
      simp [ih hrest, hne]

end Lawful

theorem insert_ascending [Std.TransOrd κ] [Std.LawfulEqOrd κ] {k : κ} {a : α} {entries : List (κ × α)}
    (h : entries.Pairwise (fun p q => compare p.1 q.1 = .lt)) :
    (insert k a entries).Pairwise (fun p q => compare p.1 q.1 = .lt) := by
  induction entries with
  | nil => simp [insert]
  | cons q rest ih =>
    obtain ⟨k', a'⟩ := q
    obtain ⟨hq, hrest⟩ := List.pairwise_cons.mp h
    simp only [insert]
    split
    · next hk =>
      refine List.pairwise_cons.mpr ⟨fun p hp => ?_, h⟩
      rcases List.mem_cons.mp hp with rfl | hp
      · exact hk
      · exact Std.TransCmp.lt_trans hk (hq p hp)
    · next hk =>
      obtain rfl := Std.LawfulEqOrd.eq_of_compare hk
      exact List.pairwise_cons.mpr ⟨hq, hrest⟩
    · next hk =>
      refine List.pairwise_cons.mpr ⟨fun p hp => ?_, ih hrest⟩
      rcases mem_insert hp with rfl | hp
      · exact Std.OrientedCmp.gt_iff_lt.mp hk
      · exact hq p hp

/-- Ascending lists with the same look-ups are equal. -/
theorem ext [Std.TransOrd κ] [Std.LawfulEqOrd κ] {xs ys : List (κ × α)}
    (hx : xs.Pairwise (fun p q => compare p.1 q.1 = .lt))
    (hy : ys.Pairwise (fun p q => compare p.1 q.1 = .lt))
    (h : ∀ k, find? k xs = find? k ys) : xs = ys := by
  induction xs generalizing ys with
  | nil =>
    cases ys with
    | nil => rfl
    | cons q ys => simpa [find?] using h q.1
  | cons p xs ih =>
    obtain ⟨k, a⟩ := p
    cases ys with
    | nil => simpa [find?] using h k
    | cons q ys =>
      obtain ⟨l, b⟩ := q
      obtain ⟨hp, hx⟩ := List.pairwise_cons.mp hx
      obtain ⟨hq, hys⟩ := List.pairwise_cons.mp hy
      have hk : compare k l = .eq := by
        cases hkl : compare k l with
        | eq => rfl
        | lt =>
          have hnone : find? k ((l, b) :: ys) = none := find?_eq_none_of_lt fun p hm => by
            rcases List.mem_cons.mp hm with rfl | hm
            · exact hkl
            · exact Std.TransCmp.lt_trans hkl (hq p hm)
          have hk := (h k).trans hnone
          simp [find?] at hk
        | gt =>
          have hlk := Std.OrientedCmp.gt_iff_lt.mp hkl
          have hnone : find? l ((k, a) :: xs) = none := find?_eq_none_of_lt fun p hm => by
            rcases List.mem_cons.mp hm with rfl | hm
            · exact hlk
            · exact Std.TransCmp.lt_trans hlk (hp p hm)
          have hl := (h l).symm.trans hnone
          simp [find?] at hl
      obtain rfl := Std.LawfulEqOrd.eq_of_compare hk
      have hab : a = b := by simpa [find?] using h k
      subst hab
      congr 1
      refine ih hx hys fun l => ?_
      by_cases hl : compare l k = .eq
      · obtain rfl := Std.LawfulEqOrd.eq_of_compare hl
        rw [find?_eq_none_of_lt fun p hm => hp p hm, find?_eq_none_of_lt fun p hm => hq p hm]
      · simpa [find?, hl] using h l

end Entries

namespace OrdMap

instance [DecidableEq κ] [DecidableEq α] : DecidableEq (OrdMap κ α) := fun a b =>
  decidable_of_iff (a.entries = b.entries) (by cases a; cases b; simp)

def empty : OrdMap κ α := ⟨[], .nil⟩

instance : EmptyCollection (OrdMap κ α) := ⟨empty⟩

instance : Inhabited (OrdMap κ α) := ⟨empty⟩

def get? (m : OrdMap κ α) (k : κ) : Option α := Entries.find? k m.entries

def contains (m : OrdMap κ α) (k : κ) : Bool := (m.get? k).isSome

def keys (m : OrdMap κ α) : List κ := m.entries.map Prod.fst

def values (m : OrdMap κ α) : List α := m.entries.map Prod.snd

def size (m : OrdMap κ α) : Nat := m.entries.length

def isEmpty (m : OrdMap κ α) : Bool := m.entries.isEmpty

/-- Removes the entries whose key or value fails the test. -/
def filter (m : OrdMap κ α) (keep : κ → α → Bool) : OrdMap κ α where
  entries := m.entries.filter fun p => keep p.1 p.2
  ascending := m.ascending.filter _

def erase (m : OrdMap κ α) (k : κ) : OrdMap κ α := m.filter fun k' _ => compare k k' != .eq

/-- Changes the values and keeps the keys. -/
def mapValues {β : Type} (m : OrdMap κ α) (f : κ → α → β) : OrdMap κ β where
  entries := m.entries.map fun p => (p.1, f p.1 p.2)
  ascending := List.pairwise_map.mpr m.ascending

/-- Changes the value at `k`, if there is one. -/
def modify (m : OrdMap κ α) (k : κ) (f : α → α) : OrdMap κ α :=
  m.mapValues fun k' a => if compare k k' = .eq then f a else a

/-- The first entry, in key order, that passes the test. -/
def firstWhere? (m : OrdMap κ α) (p : κ → α → Bool) : Option (κ × α) :=
  m.entries.find? fun e => p e.1 e.2

variable [Std.TransOrd κ] [Std.LawfulEqOrd κ]

def insert (m : OrdMap κ α) (k : κ) (a : α) : OrdMap κ α :=
  ⟨Entries.insert k a m.entries, Entries.insert_ascending m.ascending⟩

/-- Overwrites `m` with every entry of `other`. -/
def merge (m other : OrdMap κ α) : OrdMap κ α :=
  other.entries.foldl (fun acc p => acc.insert p.1 p.2) m

/-- Later pairs overwrite earlier ones. -/
def ofList (pairs : List (κ × α)) : OrdMap κ α :=
  pairs.foldl (fun acc p => acc.insert p.1 p.2) empty

omit [Std.TransOrd κ] in
theorem get?_eq_some_iff {m : OrdMap κ α} {k : κ} {a : α} :
    m.get? k = some a ↔ (k, a) ∈ m.entries :=
  Entries.find?_eq_some_iff m.ascending

omit [Std.TransOrd κ] [Std.LawfulEqOrd κ] in
@[simp] theorem get?_empty (k : κ) : (empty : OrdMap κ α).get? k = none := rfl

@[simp] theorem get?_insert_self (m : OrdMap κ α) (k : κ) (a : α) :
    (m.insert k a).get? k = some a :=
  Entries.find?_insert_self k a m.entries

theorem get?_insert_of_ne (m : OrdMap κ α) {k l : κ} (a : α) (h : k ≠ l) :
    (m.insert k a).get? l = m.get? l :=
  Entries.find?_insert_of_ne h a m.entries

theorem ext {a b : OrdMap κ α} (h : ∀ k, a.get? k = b.get? k) : a = b := by
  have := Entries.ext a.ascending b.ascending h
  cases a
  cases b
  simpa using this

theorem get?_insert (m : OrdMap κ α) (k l : κ) (a : α) :
    (m.insert k a).get? l = if compare k l = .eq then some a else m.get? l := by
  split
  · next h =>
    obtain rfl := Std.LawfulEqOrd.eq_of_compare h
    exact get?_insert_self m k a
  · next h => exact get?_insert_of_ne m a fun e => h (e ▸ Std.ReflCmp.compare_self)

theorem foldl_insert_get? (pairs : List (κ × α)) (m : OrdMap κ α) (k : κ)
    (h : pairs.Pairwise (fun p q => compare p.1 q.1 = .lt)) :
    (pairs.foldl (fun acc p => acc.insert p.1 p.2) m).get? k
      = (Entries.find? k pairs <|> m.get? k) := by
  induction pairs generalizing m with
  | nil => rfl
  | cons q rest ih =>
    obtain ⟨l, a⟩ := q
    obtain ⟨hq, hrest⟩ := List.pairwise_cons.mp h
    rw [List.foldl_cons, ih _ hrest]
    by_cases hk : compare k l = .eq
    · obtain rfl := Std.LawfulEqOrd.eq_of_compare hk
      simp [Entries.find?, Entries.find?_eq_none_of_lt fun p hp => hq p hp]
    · have hne : l ≠ k := fun e => hk (e ▸ Std.ReflCmp.compare_self)
      simp [Entries.find?, hk, get?_insert_of_ne m a hne]

theorem get?_merge (m other : OrdMap κ α) (k : κ) :
    (m.merge other).get? k = (other.get? k <|> m.get? k) :=
  foldl_insert_get? other.entries m k other.ascending

end OrdMap

end WidgetSync
