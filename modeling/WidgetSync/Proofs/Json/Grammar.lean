import WidgetSync.Proofs.Json.Spelling

/-! The grammar of JSON: which texts a value has. A number and a string have several, and there may be blanks between
the parts of an array or an object. What the writer writes is among the texts, with or without indentation. -/
namespace WidgetSync.Json

open Reader (Quotes)

mutual

/-- The texts of a value, with whatever blanks between their parts. -/
inductive HasText : Json → List Char → Prop where
  | null : HasText .null ['n', 'u', 'l', 'l']
  | bool (b : Bool) : HasText (.bool b) (Writer.bool b)
  | num {l : Literal} {n : Number} {text : List Char} (h : l.HasText text) (hn : l.toNumber? = some n) :
      HasText (.num n) text
  | str {s : String} {text : List Char} (h : Quotes text s.toList) : HasText (.str s) ('"' :: (text ++ ['"']))
  | noItems {gap : List Char} (hg : Gap gap) : HasText (.arr []) ('[' :: (gap ++ [']']))
  | items {items : List Json} {text : List Char} (h : HasItems items text) : HasText (.arr items) ('[' :: text)
  | noMembers {gap : List Char} (hg : Gap gap) : HasText (.obj []) ('\x7b' :: (gap ++ ['\x7d']))
  | members {members : List (String × Json)} {text : List Char} (h : HasMembers members text) :
      HasText (.obj members) ('\x7b' :: text)

/-- The texts of items, at least one, and the bracket behind them. -/
inductive HasItems : List Json → List Char → Prop where
  | last {item : Json} {before text after : List Char} (hb : Gap before) (h : HasText item text) (ha : Gap after) :
      HasItems [item] (before ++ (text ++ (after ++ [']'])))
  | more {item : Json} {items : List Json} {before text after rest : List Char} (hb : Gap before)
      (h : HasText item text) (ha : Gap after) (hr : HasItems items rest) :
      HasItems (item :: items) (before ++ (text ++ (after ++ ',' :: rest)))

/-- The texts of members, at least one, and the brace behind them. -/
inductive HasMembers : List (String × Json) → List Char → Prop where
  | last {key : String} {value : Json} {before name gap middle text after : List Char} (hb : Gap before)
      (hk : Quotes name key.toList) (hg : Gap gap) (hm : Gap middle) (h : HasText value text) (ha : Gap after) :
      HasMembers [(key, value)]
        (before ++ '"' :: (name ++ '"' :: (gap ++ ':' :: (middle ++ (text ++ (after ++ ['\x7d']))))))
  | more {key : String} {value : Json} {members : List (String × Json)}
      {before name gap middle text after rest : List Char} (hb : Gap before) (hk : Quotes name key.toList)
      (hg : Gap gap) (hm : Gap middle) (h : HasText value text) (ha : Gap after) (hr : HasMembers members rest) :
      HasMembers ((key, value) :: members)
        (before ++ '"' :: (name ++ '"' :: (gap ++ ':' :: (middle ++ (text ++ (after ++ ',' :: rest))))))

end

/-- The characters are a text of the value within blanks, and the value is not nested too deep. -/
def IsText (j : Json) (cs : List Char) : Prop :=
  j.depth ≤ 127 ∧ ∃ before text after, Gap before ∧ Gap after ∧ cs = before ++ (text ++ after) ∧ HasText j text

theorem quotes_string (s : String) : Quotes (s.toList.flatMap Writer.escape) s.toList :=
  Writer.quotes_flatMap_escape s.toList

mutual

/-- How a value without doubles is spelled is one of its texts. -/
theorem Spells.hasText : (j : Json) → {text : List Char} → Spells j text → HasText j text
  | .null, _, .null => .null
  | .bool b, _, .bool _ => .bool b
  | .num (.int i h), _, .int _ _ => by
    obtain ⟨l, hl, hn⟩ := Literal.hasText_ofInt i h
    exact .num hl hn
  | .str s, _, .str _ => .str (quotes_string s)
  | .arr [], _, .noItems => .noItems gap_nil
  | .arr items, _, .items h => .items (SpellsItems.hasItems items h)
  | .obj [], _, .noMembers => .noMembers gap_nil
  | .obj members, _, .members h => .members (SpellsMembers.hasMembers members h)
termination_by structural j => j

theorem SpellsItems.hasItems : (items : List Json) → {text : List Char} → SpellsItems items text → HasItems items text
  | [item], _, .last hb h ha => .last hb (Spells.hasText item h) ha
  | item :: items, _, .more hb h ha hr => .more hb (Spells.hasText item h) ha (SpellsItems.hasItems items hr)
termination_by structural items => items

theorem SpellsMembers.hasMembers : (members : List (String × Json)) → {text : List Char} →
    SpellsMembers members text → HasMembers members text
  | [(key, value)], _, .last hb hm h ha => by
    rw [Writer.string, List.cons_append, List.append_assoc]
    exact .last hb (quotes_string key) gap_nil hm (Spells.hasText value h) ha
  | (key, value) :: members, _, .more hb hm h ha hr => by
    rw [Writer.string, List.cons_append, List.append_assoc]
    exact .more hb (quotes_string key) gap_nil hm (Spells.hasText value h) ha (SpellsMembers.hasMembers members hr)
termination_by structural members => members

end

end WidgetSync.Json
