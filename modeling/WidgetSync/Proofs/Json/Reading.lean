import WidgetSync.Proofs.Json.Grammar

/-! The reader takes exactly the texts of the grammar, with blanks around them, of values that are not nested too deep.
Each step of it takes a character, so that it never runs out of steps. -/
namespace WidgetSync.Json

open Reader (isBlank skipBlank value? items? members? number? string? Quotes)
open Literal (Ends)

namespace Reader

theorem isBlank_of_isDigit {c : Char} (h : c.isDigit = true) : isBlank c = false := by
  refine Bool.eq_false_iff.mpr fun hb => ?_
  simp only [isBlank, Bool.or_eq_true, decide_eq_true_eq] at hb
  rcases hb with ((rfl | rfl) | rfl) | rfl <;> contradiction

theorem skipBlank_append {gap : List Char} (hg : Gap gap) (cs : List Char) : skipBlank (gap ++ cs) = skipBlank cs :=
  List.dropWhile_append_of_pos hg

theorem skipBlank_cons {c : Char} (h : isBlank c = false) (cs : List Char) : skipBlank (c :: cs) = c :: cs :=
  List.dropWhile_cons_of_neg (Bool.eq_false_iff.mp h)

theorem skipBlank_idem (cs : List Char) : skipBlank (skipBlank cs) = skipBlank cs := by
  induction cs with
  | nil => rfl
  | cons c cs ih =>
    cases hc : isBlank c with
    | true =>
      have hskip : skipBlank (c :: cs) = skipBlank cs := List.dropWhile_cons_of_pos hc
      rw [hskip, ih]
    | false => rw [skipBlank_cons hc, skipBlank_cons hc]

theorem value?_skipBlank (depth fuel : Nat) (cs : List Char) :
    value? depth fuel (skipBlank cs) = value? depth fuel cs := by
  cases fuel with
  | zero => rfl
  | succ fuel => rw [value?, value?, skipBlank_idem]

theorem items?_skipBlank (depth fuel : Nat) (cs : List Char) :
    items? depth fuel (skipBlank cs) = items? depth fuel cs := by
  cases fuel with
  | zero => rfl
  | succ fuel => rw [items?, items?, value?_skipBlank]

theorem members?_skipBlank (depth fuel : Nat) (cs : List Char) :
    members? depth fuel (skipBlank cs) = members? depth fuel cs := by
  cases fuel with
  | zero => rfl
  | succ fuel => rw [members?, members?, skipBlank_idem]

theorem skipBlank_split (cs : List Char) : ∃ gap, Gap gap ∧ cs = gap ++ skipBlank cs :=
  ⟨cs.takeWhile isBlank, fun _ hc => List.mem_takeWhile_imp hc, List.takeWhile_append_dropWhile.symm⟩

/-! ### Texts of the grammar are read -/

variable {depth fuel : Nat} {cs rest more : List Char}

theorem value?_of_string? {s : String} (hs : skipBlank cs = '"' :: rest) (hstring : string? [] rest = some (s, more)) :
    value? depth (fuel + 1) cs = some (.str s, more) := by
  simp only [value?, hs, hstring, Option.map_some]

/-- What starts with a sign or a digit is read as a number. -/
theorem value?_of_number? {c : Char} {n : Number} (hs : skipBlank cs = c :: rest) (hc : c = '-' ∨ c.isDigit = true)
    (hn : number? (c :: rest) = some (n, more)) : value? depth (fuel + 1) cs = some (.num n, more) := by
  have hne : ∀ d, d.isDigit = false → d ≠ '-' → c ≠ d := by
    rintro d hd hminus rfl
    rcases hc with hc | hc
    · exact hminus hc
    · exact absurd hc (Bool.eq_false_iff.mp hd)
  rw [value?, hs]
  split
  · next h => exact absurd (List.cons.inj h).1 (hne 'n' rfl (by decide))
  · next h => exact absurd (List.cons.inj h).1 (hne 't' rfl (by decide))
  · next h => exact absurd (List.cons.inj h).1 (hne 'f' rfl (by decide))
  · next h => exact absurd (List.cons.inj h).1 (hne '"' rfl (by decide))
  · next h => exact absurd (List.cons.inj h).1 (hne '[' rfl (by decide))
  · next h => exact absurd (List.cons.inj h).1 (hne '\x7b' rfl (by decide))
  · rw [hn]; rfl

theorem value?_noItems (hs : skipBlank cs = '[' :: rest) (hd : 0 < depth) (hclose : skipBlank rest = ']' :: more) :
    value? depth (fuel + 1) cs = some (.arr [], more) := by
  simp only [value?, hs, if_neg (Nat.ne_of_gt hd), hclose]

theorem value?_noMembers (hs : skipBlank cs = '\x7b' :: rest) (hd : 0 < depth)
    (hclose : skipBlank rest = '\x7d' :: more) : value? depth (fuel + 1) cs = some (.obj [], more) := by
  simp only [value?, hs, if_neg (Nat.ne_of_gt hd), hclose]

theorem value?_of_items? {items : List Json} (hs : skipBlank cs = '[' :: rest) (hd : 0 < depth)
    (hopen : ∀ more, skipBlank rest ≠ ']' :: more) (hi : items? (depth - 1) fuel rest = some (items, more)) :
    value? depth (fuel + 1) cs = some (.arr items, more) := by
  simp only [value?, hs, if_neg (Nat.ne_of_gt hd), items?_skipBlank, hi, Option.map_some]

theorem value?_of_members? {members : List (String × Json)} (hs : skipBlank cs = '\x7b' :: rest) (hd : 0 < depth)
    (hopen : ∀ more, skipBlank rest ≠ '\x7d' :: more) (hm : members? (depth - 1) fuel rest = some (members, more)) :
    value? depth (fuel + 1) cs = some (.obj members, more) := by
  simp only [value?, hs, if_neg (Nat.ne_of_gt hd), members?_skipBlank, hm, Option.map_some]

theorem items?_last {item : Json} (hi : value? depth fuel cs = some (item, rest)) (hr : skipBlank rest = ']' :: more) :
    items? depth (fuel + 1) cs = some ([item], more) := by
  simp only [items?, hi, hr]

theorem items?_more {item : Json} {items : List Json} (hi : value? depth fuel cs = some (item, rest))
    {rest' : List Char} (hr : skipBlank rest = ',' :: rest') (hm : items? depth fuel rest' = some (items, more)) :
    items? depth (fuel + 1) cs = some (item :: items, more) := by
  simp only [items?, hi, hr, hm, Option.map_some]

section Member

variable {key : String} {value : Json} {afterKey valueText : List Char}

theorem members?_last (hs : skipBlank cs = '"' :: rest) (hk : string? [] rest = some (key, afterKey))
    (hc : skipBlank afterKey = ':' :: valueText) {afterValue : List Char}
    (hv : value? depth fuel valueText = some (value, afterValue)) (hr : skipBlank afterValue = '\x7d' :: more) :
    members? depth (fuel + 1) cs = some ([(key, value)], more) := by
  simp only [members?, hs, hk, hc, hv, hr]

theorem members?_more (hs : skipBlank cs = '"' :: rest) (hk : string? [] rest = some (key, afterKey))
    (hc : skipBlank afterKey = ':' :: valueText) {afterValue : List Char}
    (hv : value? depth fuel valueText = some (value, afterValue)) {others : List Char}
    (hr : skipBlank afterValue = ',' :: others) {members : List (String × Json)}
    (hm : members? depth fuel others = some (members, more)) :
    members? depth (fuel + 1) cs = some ((key, value) :: members, more) := by
  simp only [members?, hs, hk, hc, hv, hr, hm, Option.map_some]

end Member

theorem ends_separator {c : Char} (h : c ∈ [',', ']', '\x7d']) (rest : List Char) : Ends (c :: rest) := by
  simp only [List.mem_cons, List.not_mem_nil, or_false] at h
  rcases h with rfl | rfl | rfl
  all_goals exact Literal.ends_cons (by decide) rest

theorem ends_append {gap rest : List Char} (hg : Gap gap) (hr : Ends rest) : Ends (gap ++ rest) := by
  cases gap with
  | nil => exact hr
  | cons d gap =>
    have hd : isBlank d = true := hg d List.mem_cons_self
    refine Literal.ends_cons ⟨?_, ?_, ?_, ?_⟩ _
    · refine Bool.eq_false_iff.mpr fun hdigit => ?_
      rw [isBlank_of_isDigit hdigit] at hd
      contradiction
    all_goals rintro rfl; contradiction

/-- A number ends before blanks and a separator. -/
theorem ends_gap {gap : List Char} (hg : Gap gap) (c : Char) (h : c ∈ [',', ']', '\x7d']) (rest : List Char) :
    Ends (gap ++ c :: rest) :=
  ends_append hg (ends_separator h rest)

end Reader

/-- No value starts with a blank or a closing bracket. -/
theorem HasText.head {j : Json} {text : List Char} (h : HasText j text) :
    ∃ c rest, text = c :: rest ∧ isBlank c = false ∧ c ≠ ']' := by
  cases h with
  | num hl =>
    obtain ⟨c, rest, rfl, hc⟩ := hl.head
    refine ⟨c, rest, rfl, ?_⟩
    rcases hc with rfl | hc
    · decide
    · refine ⟨Reader.isBlank_of_isDigit hc, ?_⟩
      rintro rfl
      contradiction
  | bool b => cases b <;> exact ⟨_, _, rfl, by decide, by decide⟩
  | _ => exact ⟨_, _, rfl, by decide, by decide⟩

namespace Reader

theorem skipBlank_before {gap text : List Char} (hg : Gap gap) {j : Json} (h : HasText j text) (rest : List Char) :
    skipBlank (gap ++ (text ++ rest)) = text ++ rest := by
  obtain ⟨c, cs, rfl, hc, _⟩ := h.head
  rw [skipBlank_append hg, List.cons_append, skipBlank_cons hc]

/-- Blanks before a character that is none. -/
theorem skipBlank_gap {gap : List Char} (hg : Gap gap) {c : Char} (hc : isBlank c = false) (rest : List Char) :
    skipBlank (gap ++ c :: rest) = c :: rest := by
  rw [skipBlank_append hg, skipBlank_cons hc]

theorem skipBlank_items {items : List Json} {text : List Char} (h : HasItems items text) (rest more : List Char) :
    skipBlank (text ++ rest) ≠ ']' :: more := by
  intro hskip
  cases h with
  | last hb hi ha =>
    obtain ⟨c, cs, rfl, _, hc⟩ := hi.head
    rw [List.append_assoc, List.append_assoc, skipBlank_before hb hi] at hskip
    exact hc (List.cons.inj hskip).1
  | more hb hi ha hm =>
    obtain ⟨c, cs, rfl, _, hc⟩ := hi.head
    rw [List.append_assoc, List.append_assoc, skipBlank_before hb hi] at hskip
    exact hc (List.cons.inj hskip).1

theorem skipBlank_members {members : List (String × Json)} {text : List Char} (h : HasMembers members text)
    (rest more : List Char) : skipBlank (text ++ rest) ≠ '\x7d' :: more := by
  intro hskip
  cases h with
  | last hb =>
    rw [List.append_assoc, skipBlank_append hb] at hskip
    exact absurd (List.cons.inj hskip).1 (by decide)
  | more hb =>
    rw [List.append_assoc, skipBlank_append hb] at hskip
    exact absurd (List.cons.inj hskip).1 (by decide)

theorem string?_eq {s : String} {text : List Char} (h : Quotes text s.toList) (rest : List Char) :
    string? [] (text ++ '"' :: rest) = some (s, rest) := by
  rw [string?_append h, List.reverse_nil, List.nil_append, String.ofList_toList]

-- The recursion follows the value, and its text is taken apart at each constructor. As every step of the reader takes
-- a character, as much fuel as the text is long is enough.
mutual

/-- Every text of a value is read as the value, whatever follows it. -/
theorem value?_append : (j : Json) → {text : List Char} → HasText j text → {depth fuel : Nat} →
    j.depth ≤ depth → text.length ≤ fuel → {gap rest : List Char} → Gap gap → Ends rest →
    value? depth fuel (gap ++ (text ++ rest)) = some (j, rest)
  | j, _, h, _, 0, _, hf, _, _, _, _ => by
    obtain ⟨c, cs, rfl, _⟩ := h.head
    contradiction
  | .null, _, h, _, _ + 1, _, _, _, rest, hb, _ => by
    have hs := skipBlank_before hb h rest
    cases h
    rw [value?, hs]
    rfl
  | .bool b, _, h, _, _ + 1, _, _, _, rest, hb, _ => by
    have hs := skipBlank_before hb h rest
    cases h
    rw [value?, hs]
    cases b <;> rfl
  | .num n, _, h, _, _ + 1, _, _, _, rest, hb, hr => by
    have hs := skipBlank_before hb h rest
    cases h with
    | num hl hn =>
      have hnumber := number?_append hl hn hr
      obtain ⟨c, cs, rfl, hfirst⟩ := hl.head
      exact value?_of_number? hs hfirst hnumber
  | .str s, _, h, _, _ + 1, _, _, gap, rest, hb, _ => by
    have hs := skipBlank_before hb h rest
    cases h with
    | str hq =>
      rw [List.cons_append, List.append_assoc] at hs ⊢
      exact value?_of_string? hs (string?_eq hq rest)
  | .arr items, _, h, depth, fuel + 1, hd, hf, _, rest, hb, _ => by
    have hs := skipBlank_before hb h rest
    have hdepth : itemsDepth items + 1 ≤ depth := hd
    cases h with
    | noItems hg =>
      rw [List.cons_append, List.append_assoc] at hs ⊢
      exact value?_noItems hs (Nat.zero_lt_of_lt hdepth) (skipBlank_gap hg rfl rest)
    | items hi =>
      have hread := items?_append items hi (Nat.le_sub_of_add_le hdepth) (Nat.le_of_succ_le_succ hf) rest
      exact value?_of_items? hs (Nat.zero_lt_of_lt hdepth) (skipBlank_items hi rest) hread
  | .obj members, _, h, depth, fuel + 1, hd, hf, _, rest, hb, _ => by
    have hs := skipBlank_before hb h rest
    have hdepth : membersDepth members + 1 ≤ depth := hd
    cases h with
    | noMembers hg =>
      rw [List.cons_append, List.append_assoc] at hs ⊢
      exact value?_noMembers hs (Nat.zero_lt_of_lt hdepth) (skipBlank_gap hg rfl rest)
    | members hm =>
      have hread := members?_append members hm (Nat.le_sub_of_add_le hdepth) (Nat.le_of_succ_le_succ hf) rest
      exact value?_of_members? hs (Nat.zero_lt_of_lt hdepth) (skipBlank_members hm rest) hread
termination_by structural j => j

theorem items?_append : (items : List Json) → {text : List Char} → HasItems items text → {depth fuel : Nat} →
    itemsDepth items ≤ depth → text.length ≤ fuel → (rest : List Char) →
    items? depth fuel (text ++ rest) = some (items, rest)
  | [], _, h, _, _, _, _, _ => nomatch h
  | item :: items, _, h, depth, 0, _, hf, _ => by
    cases h <;> simp at hf
  | item :: items, _, h, depth, fuel + 1, hd, hf, rest => by
    obtain ⟨hfirst, hothers⟩ := Nat.max_le.mp hd
    cases h with
    | @last _ before text after hb hi ha =>
      have hlength : text.length ≤ fuel := by simp at hf; omega
      have hitem := value?_append item hi hfirst hlength hb (ends_gap ha ']' (by decide) rest)
      simpa using items?_last hitem (skipBlank_append ha _)
    | @more _ _ before text after others hb hi ha hmore =>
      have hlength : text.length ≤ fuel ∧ others.length ≤ fuel := by simp at hf; omega
      have hitem := value?_append item hi hfirst hlength.1 hb (ends_gap ha ',' (by decide) (others ++ rest))
      have hread := items?_append items hmore hothers hlength.2 rest
      simpa using items?_more hitem (skipBlank_append ha _) hread
termination_by structural items => items

theorem members?_append : (members : List (String × Json)) → {text : List Char} → HasMembers members text →
    {depth fuel : Nat} → membersDepth members ≤ depth → text.length ≤ fuel → (rest : List Char) →
    members? depth fuel (text ++ rest) = some (members, rest)
  | [], _, h, _, _, _, _, _ => nomatch h
  | (key, value) :: members, _, h, depth, 0, _, hf, _ => by
    cases h <;> simp at hf
  | (key, value) :: members, _, h, depth, fuel + 1, hd, hf, rest => by
    obtain ⟨hfirst, hothers⟩ := Nat.max_le.mp hd
    cases h with
    | @last _ _ before name gap middle text after hb hk hg hm hv ha =>
      have hlength : text.length ≤ fuel := by simp at hf; omega
      have hvalue := value?_append value hv hfirst hlength hm (ends_gap ha '\x7d' (by decide) rest)
      have hread := members?_last (skipBlank_gap hb rfl _) (string?_eq hk _) (skipBlank_gap hg rfl _) hvalue
        (skipBlank_append ha _)
      simpa using hread
    | @more _ _ _ before name gap middle text after others hb hk hg hm hv ha hmore =>
      have hlength : text.length ≤ fuel ∧ others.length ≤ fuel := by simp at hf; omega
      have hvalue := value?_append value hv hfirst hlength.1 hm (ends_gap ha ',' (by decide) (others ++ rest))
      have hothers := members?_append members hmore hothers hlength.2 rest
      have hread := members?_more (skipBlank_gap hb rfl _) (string?_eq hk _) (skipBlank_gap hg rfl _) hvalue
        (skipBlank_append ha _) hothers
      simpa using hread
termination_by structural members => members

end

/-! ### What is read is a text of the grammar -/

theorem quotes_of_string? {cs rest : List Char} {s : String} (h : string? [] cs = some (s, rest)) :
    ∃ text, cs = text ++ '"' :: rest ∧ Quotes text s.toList := by
  obtain ⟨text, chars, hcs, hq, rfl⟩ := of_string? h
  rw [List.reverse_nil, List.nil_append, String.toList_ofList]
  exact ⟨text, hcs, hq⟩

-- The recursion follows the fuel, as the reader does.
mutual

/-- What is read as a value, after blanks, is one of its texts. -/
theorem of_value? : (fuel : Nat) → {depth : Nat} → {cs rest : List Char} → {j : Json} →
    value? depth fuel cs = some (j, rest) → ∃ text, skipBlank cs = text ++ rest ∧ HasText j text ∧ j.depth ≤ depth
  | 0, _, _, _, _, h => nomatch h
  | fuel + 1, depth, cs, rest, j, h => by
    rw [value?] at h
    split at h
    · next hs =>
      obtain ⟨rfl, rfl⟩ := Prod.mk.inj (Option.some.inj h)
      exact ⟨_, hs, .null, Nat.zero_le _⟩
    · next hs =>
      obtain ⟨rfl, rfl⟩ := Prod.mk.inj (Option.some.inj h)
      exact ⟨_, hs, .bool true, Nat.zero_le _⟩
    · next hs =>
      obtain ⟨rfl, rfl⟩ := Prod.mk.inj (Option.some.inj h)
      exact ⟨_, hs, .bool false, Nat.zero_le _⟩
    · next quoted hs =>
      obtain ⟨⟨s, _⟩, hstring, heq⟩ := Option.map_eq_some_iff.mp h
      obtain ⟨rfl, rfl⟩ := Prod.mk.inj heq
      obtain ⟨text, rfl, hq⟩ := quotes_of_string? hstring
      exact ⟨_, by rw [hs]; simp, .str hq, Nat.zero_le _⟩
    · next opened hs =>
      split at h
      · contradiction
      · next hd =>
        have hpos : 0 < depth := Nat.pos_of_ne_zero hd
        split at h
        · next hclose =>
          obtain ⟨rfl, rfl⟩ := Prod.mk.inj (Option.some.inj h)
          obtain ⟨gap, hg, hopened⟩ := skipBlank_split opened
          exact ⟨_, by rw [hs, hopened, hclose]; simp, .noItems hg, hpos⟩
        · obtain ⟨⟨items, _⟩, hitems, heq⟩ := Option.map_eq_some_iff.mp h
          obtain ⟨rfl, rfl⟩ := Prod.mk.inj heq
          rw [items?_skipBlank] at hitems
          obtain ⟨text, rfl, ht, hdepth⟩ := of_items? fuel hitems
          exact ⟨_, hs, .items ht, Nat.add_le_of_le_sub hpos hdepth⟩
    · next opened hs =>
      split at h
      · contradiction
      · next hd =>
        have hpos : 0 < depth := Nat.pos_of_ne_zero hd
        split at h
        · next hclose =>
          obtain ⟨rfl, rfl⟩ := Prod.mk.inj (Option.some.inj h)
          obtain ⟨gap, hg, hopened⟩ := skipBlank_split opened
          exact ⟨_, by rw [hs, hopened, hclose]; simp, .noMembers hg, hpos⟩
        · obtain ⟨⟨members, _⟩, hmembers, heq⟩ := Option.map_eq_some_iff.mp h
          obtain ⟨rfl, rfl⟩ := Prod.mk.inj heq
          rw [members?_skipBlank] at hmembers
          obtain ⟨text, rfl, ht, hdepth⟩ := of_members? fuel hmembers
          exact ⟨_, hs, .members ht, Nat.add_le_of_le_sub hpos hdepth⟩
    · obtain ⟨⟨n, _⟩, hnumber, heq⟩ := Option.map_eq_some_iff.mp h
      obtain ⟨rfl, rfl⟩ := Prod.mk.inj heq
      obtain ⟨l, text, hs, hl, hn⟩ := of_number? hnumber
      exact ⟨text, hs, .num hl hn, Nat.zero_le _⟩
termination_by structural fuel => fuel

theorem of_items? : (fuel : Nat) → {depth : Nat} → {cs rest : List Char} → {items : List Json} →
    items? depth fuel cs = some (items, rest) →
    ∃ text, cs = text ++ rest ∧ HasItems items text ∧ itemsDepth items ≤ depth
  | 0, _, _, _, _, h => nomatch h
  | fuel + 1, depth, cs, rest, items, h => by
    rw [items?] at h
    split at h
    · contradiction
    · next item afterItem hitem =>
      obtain ⟨text, hs, ht, hdepth⟩ := of_value? fuel hitem
      obtain ⟨before, hb, hcs⟩ := skipBlank_split cs
      obtain ⟨after, ha, hafter⟩ := skipBlank_split afterItem
      rw [hs, hafter] at hcs
      split at h
      · next hclose =>
        obtain ⟨rfl, rfl⟩ := Prod.mk.inj (Option.some.inj h)
        exact ⟨_, by rw [hcs, hclose]; simp, .last hb ht ha, Nat.max_le.mpr ⟨hdepth, Nat.zero_le _⟩⟩
      · next others hcomma =>
        obtain ⟨⟨items, _⟩, hothers, heq⟩ := Option.map_eq_some_iff.mp h
        obtain ⟨rfl, rfl⟩ := Prod.mk.inj heq
        obtain ⟨more, rfl, hmore, hdepths⟩ := of_items? fuel hothers
        exact ⟨_, by rw [hcs, hcomma]; simp, .more hb ht ha hmore, Nat.max_le.mpr ⟨hdepth, hdepths⟩⟩
      · contradiction
termination_by structural fuel => fuel

theorem of_members? : (fuel : Nat) → {depth : Nat} → {cs rest : List Char} → {members : List (String × Json)} →
    members? depth fuel cs = some (members, rest) →
    ∃ text, cs = text ++ rest ∧ HasMembers members text ∧ membersDepth members ≤ depth
  | 0, _, _, _, _, h => nomatch h
  | fuel + 1, depth, cs, rest, members, h => by
    rw [members?] at h
    split at h
    · next hquote =>
      split at h
      · contradiction
      · next key afterKey hkey =>
        obtain ⟨name, rfl, hk⟩ := quotes_of_string? hkey
        split at h
        · next afterColon hcolon =>
          split at h
          · contradiction
          · next value afterValue hvalue =>
            obtain ⟨text, hs, ht, hdepth⟩ := of_value? fuel hvalue
            -- The member takes four gaps: before its key, before and after the colon, and after its value.
            obtain ⟨before, hb, hcs⟩ := skipBlank_split cs
            obtain ⟨gap, hg, hafterKey⟩ := skipBlank_split afterKey
            obtain ⟨middle, hm, hafterColon⟩ := skipBlank_split afterColon
            obtain ⟨after, ha, hafterValue⟩ := skipBlank_split afterValue
            rw [hquote, hafterKey, hcolon, hafterColon, hs, hafterValue] at hcs
            split at h
            · next hclose =>
              obtain ⟨rfl, rfl⟩ := Prod.mk.inj (Option.some.inj h)
              exact ⟨_, by rw [hcs, hclose]; simp, .last hb hk hg hm ht ha, Nat.max_le.mpr ⟨hdepth, Nat.zero_le _⟩⟩
            · next others hcomma =>
              obtain ⟨⟨members, _⟩, hothers, heq⟩ := Option.map_eq_some_iff.mp h
              obtain ⟨rfl, rfl⟩ := Prod.mk.inj heq
              obtain ⟨more, rfl, hmore, hdepths⟩ := of_members? fuel hothers
              exact ⟨_, by rw [hcs, hcomma]; simp, .more hb hk hg hm ht ha hmore, Nat.max_le.mpr ⟨hdepth, hdepths⟩⟩
            · contradiction
        · contradiction
    · contradiction
termination_by structural fuel => fuel

end

end Reader

/-- The reader takes the texts of a value, and no others. -/
theorem readChars?_eq_some_iff {cs : List Char} {j : Json} : readChars? cs = some j ↔ j.IsText cs := by
  constructor
  · intro h
    rw [readChars?] at h
    split at h
    · next value after hvalue =>
      obtain ⟨hdone, heq⟩ := Option.ite_none_right_eq_some.mp h
      obtain rfl := Option.some.inj heq
      obtain ⟨text, hs, ht, hd⟩ := Reader.of_value? _ hvalue
      obtain ⟨before, hb, hcs⟩ := Reader.skipBlank_split cs
      obtain ⟨gap, hg, hafter⟩ := Reader.skipBlank_split after
      rw [List.isEmpty_iff.mp hdone, List.append_nil] at hafter
      exact ⟨hd, before, text, after, hb, hafter ▸ hg, hs ▸ hcs, ht⟩
    · contradiction
  · rintro ⟨hd, before, text, after, hb, ha, rfl, ht⟩
    have hends : Ends after := List.append_nil after ▸ Reader.ends_append ha Literal.ends_nil
    have hfuel : text.length ≤ Reader.fuelFor (before ++ (text ++ after)) := by
      simp only [Reader.fuelFor, List.length_append]
      omega
    have hvalue := Reader.value?_append j ht hd hfuel hb hends
    have hdone : Reader.isDone after = true := by
      rw [Reader.isDone, ← List.append_nil after, Reader.skipBlank_append ha]
      rfl
    simp only [readChars?, maxDepth, hvalue, hdone, if_true]

/-- A text of a value within blanks is read as the value. -/
theorem readChars?_of_spells {j : Json} {before text after : List Char} (h : Spells j text) (hd : j.depth ≤ maxDepth)
    (hb : Gap before) (ha : Gap after) : readChars? (before ++ (text ++ after)) = some j :=
  readChars?_eq_some_iff.mpr ⟨hd, before, text, after, hb, ha, rfl, h.hasText j⟩

/-- Compact text is read back as the value, behind blanks and before blanks. -/
theorem readChars?_value {j : Json} (he : j.Exact) (hd : j.depth ≤ maxDepth) {before after : List Char}
    (hb : Gap before) (ha : Gap after) : readChars? (before ++ (Writer.value j ++ after)) = some j :=
  readChars?_of_spells (Writer.spells_value j he) hd hb ha

end WidgetSync.Json
