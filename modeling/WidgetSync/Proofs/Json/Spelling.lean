import WidgetSync.Proofs.Json.Token

/-! The texts of a JSON value without doubles. The compact one and the indented one are among them, and the compact one
holds no control character. -/
namespace WidgetSync.Json

open Reader (isBlank)

mutual

/-- No number within is a double. -/
def Exact : Json → Prop
  | .null | .bool _ | .num (.int _ _) | .str _ => True
  | .num (.double _) => False
  | .arr items => ExactItems items
  | .obj members => ExactMembers members
termination_by structural j => j

def ExactItems : List Json → Prop
  | [] => True
  | j :: rest => j.Exact ∧ ExactItems rest
termination_by structural j => j

def ExactMembers : List (String × Json) → Prop
  | [] => True
  | (_, j) :: rest => j.Exact ∧ ExactMembers rest
termination_by structural j => j

end

/-- Nothing but blanks. -/
def Gap (cs : List Char) : Prop := ∀ c ∈ cs, isBlank c = true

theorem gap_nil : Gap [] := List.forall_mem_nil _

mutual

/-- The text spells the value, with or without blanks between its parts. -/
inductive Spells : Json → List Char → Prop where
  | null : Spells .null ['n', 'u', 'l', 'l']
  | bool (b : Bool) : Spells (.bool b) (Writer.bool b)
  | int (i : Int) (h : -0x8000000000000000 ≤ i ∧ i < 0x10000000000000000) : Spells (.num (.int i h)) (Text.ofInt i)
  | str (s : String) : Spells (.str s) (Writer.string s)
  | noItems : Spells (.arr []) ['[', ']']
  | items {items : List Json} {text : List Char} : SpellsItems items text → Spells (.arr items) ('[' :: text)
  | noMembers : Spells (.obj []) ['\x7b', '\x7d']
  | members {members : List (String × Json)} {text : List Char} :
      SpellsMembers members text → Spells (.obj members) ('\x7b' :: text)

/-- The text spells the items, at least one, and the bracket behind them. -/
inductive SpellsItems : List Json → List Char → Prop where
  | last {item : Json} {before text after : List Char} :
      Gap before → Spells item text → Gap after → SpellsItems [item] (before ++ (text ++ (after ++ [']'])))
  | more {item : Json} {items : List Json} {before text after rest : List Char} :
      Gap before → Spells item text → Gap after → SpellsItems items rest →
      SpellsItems (item :: items) (before ++ (text ++ (after ++ ',' :: rest)))

/-- The text spells the members, at least one, and the brace behind them. -/
inductive SpellsMembers : List (String × Json) → List Char → Prop where
  | last {key : String} {value : Json} {before middle text after : List Char} :
      Gap before → Gap middle → Spells value text → Gap after →
      SpellsMembers [(key, value)] (before ++ (Writer.string key ++ ':' :: (middle ++ (text ++ (after ++ ['\x7d'])))))
  | more {key : String} {value : Json} {members : List (String × Json)}
      {before middle text after rest : List Char} :
      Gap before → Gap middle → Spells value text → Gap after → SpellsMembers members rest →
      SpellsMembers ((key, value) :: members)
        (before ++ (Writer.string key ++ ':' :: (middle ++ (text ++ (after ++ ',' :: rest)))))

end

namespace Writer

mutual

/-- The compact text of a value without doubles is one of its texts. -/
theorem spells_value : (j : Json) → j.Exact → Spells j (value j)
  | .null, _ => .null
  | .bool b, _ => .bool b
  | .num (.int i h), _ => .int i h
  | .str s, _ => .str s
  | .arr [], _ => .noItems
  | .arr (item :: items), h => .items (spells_moreItems items h.2 (spells_value item h.1))
  | .obj [], _ => .noMembers
  | .obj ((key, v) :: members), h => .members (spells_moreMembers members h.2 key (spells_value v h.1))
termination_by structural j => j

theorem spells_moreItems : (items : List Json) → ExactItems items → {first : Json} → {text : List Char} →
    Spells first text → SpellsItems (first :: items) (text ++ moreItems items)
  | [], _, _, _, hf => .last gap_nil hf gap_nil
  | item :: items, h, _, _, hf => .more gap_nil hf gap_nil (spells_moreItems items h.2 (spells_value item h.1))
termination_by structural items => items

theorem spells_moreMembers : (members : List (String × Json)) → ExactMembers members → (key : String) →
    {first : Json} → {text : List Char} → Spells first text →
    SpellsMembers ((key, first) :: members) (string key ++ ':' :: (text ++ moreMembers members))
  | [], _, _, _, _, hf => .last gap_nil gap_nil hf gap_nil
  | (k, v) :: members, h, _, _, _, hf =>
    .more gap_nil gap_nil hf gap_nil (spells_moreMembers members h.2 k (spells_value v h.1))
termination_by structural members => members

end

theorem gap_newLine (level : Nat) : Gap (newLine level) := by
  refine List.forall_mem_cons.mpr ⟨rfl, fun c hc => ?_⟩
  rw [List.eq_of_mem_replicate hc]
  rfl

theorem gap_blank : Gap [' '] := List.forall_mem_singleton.mpr rfl

mutual

/-- The indented text of a value without doubles is one of its texts, at whatever level it stands. -/
theorem spells_prettyValue (level : Nat) : (j : Json) → j.Exact → Spells j (prettyValue level j)
  | .null, _ => .null
  | .bool b, _ => .bool b
  | .num (.int i h), _ => .int i h
  | .str s, _ => .str s
  | .arr [], _ => .noItems
  | .arr (item :: items), h =>
    .items (spells_morePrettyItems level items h.2 (spells_prettyValue (level + 1) item h.1))
  | .obj [], _ => .noMembers
  | .obj ((key, v) :: members), h =>
    .members (spells_morePrettyMembers level members h.2 key (spells_prettyValue (level + 1) v h.1))
termination_by structural j => j

theorem spells_morePrettyItems (level : Nat) : (items : List Json) → ExactItems items → {first : Json} →
    {text : List Char} → Spells first text →
    SpellsItems (first :: items) (newLine (level + 1) ++ text ++ morePrettyItems level items)
  | [], _, _, _, hf => by
    rw [List.append_assoc]
    exact .last (gap_newLine (level + 1)) hf (gap_newLine level)
  | item :: items, h, _, _, hf => by
    rw [List.append_assoc]
    exact .more (gap_newLine (level + 1)) hf gap_nil
      (spells_morePrettyItems level items h.2 (spells_prettyValue (level + 1) item h.1))
termination_by structural items => items

theorem spells_morePrettyMembers (level : Nat) : (members : List (String × Json)) → ExactMembers members →
    (key : String) → {first : Json} → {text : List Char} → Spells first text →
    SpellsMembers ((key, first) :: members)
      (newLine (level + 1) ++ string key ++ ':' :: ' ' :: text ++ morePrettyMembers level members)
  | [], _, _, _, _, hf => by
    rw [List.append_assoc, List.append_assoc]
    exact .last (gap_newLine (level + 1)) gap_blank hf (gap_newLine level)
  | (k, v) :: members, h, _, _, _, hf => by
    rw [List.append_assoc, List.append_assoc]
    exact .more (gap_newLine (level + 1)) gap_blank hf gap_nil
      (spells_morePrettyMembers level members h.2 k (spells_prettyValue (level + 1) v h.1))
termination_by structural members => members

end

open List (forall_mem_cons forall_mem_append)

theorem le_of_mem_member (key : String) {text more : List Char} (ht : ∀ c ∈ text, ' ' ≤ c)
    (hm : ∀ c ∈ more, ' ' ≤ c) : ∀ c ∈ string key ++ ':' :: (text ++ more), ' ' ≤ c := by
  have hcolon : ' ' ≤ ':' := by decide
  have hvalue := forall_mem_cons.mpr ⟨hcolon, forall_mem_append.mpr ⟨ht, hm⟩⟩
  exact forall_mem_append.mpr ⟨fun _ hc => le_of_mem_string hc, hvalue⟩

mutual

/-- The compact text of a value without doubles holds no control character. -/
theorem le_of_mem_value : (j : Json) → j.Exact → ∀ c ∈ value j, ' ' ≤ c
  | .null, _ => le_of_all (by decide)
  | .bool b, _ => le_of_all (by cases b <;> decide)
  | .num (.int _ _), _ => fun _ hc => le_of_mem_ofInt hc
  | .str _, _ => fun _ hc => le_of_mem_string hc
  | .arr [], _ => le_of_all (by decide)
  | .arr (item :: items), h => by
    have hitems := forall_mem_append.mpr ⟨le_of_mem_value item h.1, le_of_mem_moreItems items h.2⟩
    exact forall_mem_cons.mpr ⟨by decide, hitems⟩
  | .obj [], _ => le_of_all (by decide)
  | .obj ((key, v) :: members), h => by
    have hmembers := le_of_mem_member key (le_of_mem_value v h.1) (le_of_mem_moreMembers members h.2)
    exact forall_mem_cons.mpr ⟨by decide, hmembers⟩
termination_by structural j => j

theorem le_of_mem_moreItems : (items : List Json) → ExactItems items → ∀ c ∈ moreItems items, ' ' ≤ c
  | [], _ => le_of_all (by decide)
  | item :: items, h => by
    have hitems := forall_mem_append.mpr ⟨le_of_mem_value item h.1, le_of_mem_moreItems items h.2⟩
    exact forall_mem_cons.mpr ⟨by decide, hitems⟩
termination_by structural items => items

theorem le_of_mem_moreMembers : (members : List (String × Json)) → ExactMembers members →
    ∀ c ∈ moreMembers members, ' ' ≤ c
  | [], _ => le_of_all (by decide)
  | (key, v) :: members, h => by
    have hmembers := le_of_mem_member key (le_of_mem_value v h.1) (le_of_mem_moreMembers members h.2)
    exact forall_mem_cons.mpr ⟨by decide, hmembers⟩
termination_by structural members => members

end

end Writer

theorem toList_compact (j : Json) : j.compact.toList = Writer.value j := String.toList_ofList

theorem toList_pretty (j : Json) : j.pretty.toList = Writer.prettyValue 0 j := String.toList_ofList

end WidgetSync.Json
