import WidgetSync.Session
import WidgetSync.Proofs.Text.Trim
import WidgetSync.Proofs.Text.Utf8

/-! Reading a session line by line: where its lines end, in characters and in bytes. -/
namespace WidgetSync

namespace Session

section Lines

variable {α : Type} {isLineFeed : α → Bool} {line : List α}

/-- What has no line feed in it belongs to the line that has begun. -/
theorem lines_append (hl : ∀ c ∈ line, isLineFeed c = false) (acc rest : List α) :
    lines isLineFeed acc (line ++ rest) = lines isLineFeed (line.reverse ++ acc) rest := by
  induction line generalizing acc with
  | nil => rfl
  | cons d line ih =>
    have hd : isLineFeed d = false := hl d List.mem_cons_self
    have hline := ih (fun e he => hl e (List.mem_cons_of_mem d he)) (d :: acc)
    simp only [List.cons_append, lines, hd, Bool.false_eq_true, if_false, hline, List.reverse_cons, List.append_assoc,
      List.nil_append]

/-- A line goes on to the first line feed. -/
theorem lines_append_cons (hl : ∀ c ∈ line, isLineFeed c = false) {c : α} (hc : isLineFeed c = true) (rest : List α) :
    lines isLineFeed [] (line ++ c :: rest) = (line ++ [c]) :: lines isLineFeed [] rest := by
  rw [lines_append hl, List.append_nil, lines, if_pos hc, List.reverse_cons, List.reverse_reverse]

/-- What is ended line by line is split into these lines, and what follows is split on its own. -/
theorem lines_flatMap {texts : List (List α)} (ht : ∀ text ∈ texts, ∀ c ∈ text, isLineFeed c = false) {c : α}
    (hc : isLineFeed c = true) (rest : List α) :
    lines isLineFeed [] (texts.flatMap (· ++ [c]) ++ rest) = texts.map (· ++ [c]) ++ lines isLineFeed [] rest := by
  induction texts with
  | nil => rfl
  | cons text texts ih =>
    have htext := lines_append_cons (ht text List.mem_cons_self) hc (texts.flatMap (· ++ [c]) ++ rest)
    have htexts := ih fun t h => ht t (List.mem_cons_of_mem text h)
    rw [List.flatMap_cons, List.append_assoc, List.append_assoc, List.singleton_append, htext, htexts]
    rfl

theorem lines_nil {acc : List α} (hne : acc ≠ []) : lines isLineFeed acc [] = [acc.reverse] :=
  if_neg fun hempty => hne (List.isEmpty_iff.mp hempty)

/-- A text without line feeds is a line, unless it is empty. -/
theorem lines_of_notMem (hl : ∀ c ∈ line, isLineFeed c = false) (hne : line ≠ []) :
    lines isLineFeed [] line = [line] := by
  have hline := lines_append hl [] []
  have hreverse : line.reverse ≠ [] := List.reverse_ne_nil_iff.mpr hne
  rwa [List.append_nil, List.append_nil, lines_nil hreverse, List.reverse_reverse] at hline

end Lines

/-- A session of lines that are text has the events of its lines. -/
theorem ofLines_ok (texts : List (List Char)) : ofLines (texts.map .ok) = ⟨texts.filterMap event?, none⟩ := by
  induction texts with
  | nil => rfl
  | cons text texts ih =>
    rw [List.map_cons, ofLines, ih]
    cases h : event? text <;> simp [h]

open Text.Utf8 (encode)

/-- The lines of the bytes are the bytes of the lines. -/
theorem lines_encode (acc cs : List Char) :
    lines (· = 10) (encode acc.reverse).reverse (encode cs) = (lines (· = '\n') acc cs).map encode := by
  induction cs generalizing acc with
  | nil =>
    cases acc with
    | nil => rfl
    | cons d acc =>
      have hne : (encode (d :: acc).reverse).reverse ≠ [] := by simp [Text.Utf8.encode_ne_nil]
      have hline : lines (· = 10) (encode (d :: acc).reverse).reverse [] = _ := lines_nil hne
      rw [List.reverse_reverse] at hline
      exact hline
  | cons c cs ih =>
    by_cases hc : c = '\n'
    · subst hc
      have hfeed : encode (acc.reverse ++ ['\n']) = encode acc.reverse ++ [10] := Text.Utf8.encode_append _ _
      have hbytes : lines (· = 10) (encode acc.reverse).reverse (encode ('\n' :: cs))
          = (10 :: (encode acc.reverse).reverse).reverse :: lines (· = 10) [] (encode cs) := rfl
      have hchars : lines (· = '\n') acc ('\n' :: cs) = ('\n' :: acc).reverse :: lines (· = '\n') [] cs := rfl
      rw [hbytes, hchars, List.map_cons, List.reverse_cons, List.reverse_cons, List.reverse_reverse, hfeed]
      exact congrArg _ (ih [])
    · have hline : ∀ b ∈ String.utf8EncodeChar c, decide (b = 10) = false := by
        refine fun b hb => decide_eq_false ?_
        rintro rfl
        exact hc (Text.Utf8.lineFeed_mem_utf8EncodeChar hb)
      have hacc : (encode (c :: acc).reverse).reverse
          = (String.utf8EncodeChar c).reverse ++ (encode acc.reverse).reverse := by
        rw [List.reverse_cons, Text.Utf8.encode_append, List.reverse_append, Text.Utf8.encode_singleton]
      have hchars : lines (· = '\n') acc (c :: cs) = lines (· = '\n') (c :: acc) cs := if_neg (by simpa using hc)
      rw [Text.Utf8.encode_cons, lines_append hline, ← hacc, ih, hchars]

/-- What the bytes of a text hold: the events on its lines. -/
theorem ofBytes_encode (cs : List Char) : ofBytes (encode cs) = ⟨(lines (· = '\n') [] cs).filterMap event?, none⟩ := by
  have hlines : lines (· = 10) [] (encode cs) = (lines (· = '\n') [] cs).map encode := lines_encode [] cs
  have hdecode : (fun line => Text.Utf8.decode (encode line)) = Except.ok := funext Text.Utf8.decode_encode
  rw [ofBytes, hlines, List.map_map, ← ofLines_ok]
  exact congrArg (fun f => ofLines ((lines (· = '\n') [] cs).map f)) hdecode

end Session

end WidgetSync
