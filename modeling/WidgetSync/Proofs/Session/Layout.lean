import Mathlib.Data.List.Basic
import Mathlib.Data.List.Induction
import Mathlib.Logic.Relation
import WidgetSync.Program
import WidgetSync.Proofs.Session.Lines
import WidgetSync.Proofs.Text.Validity

/-! Sessions are read line by line: what is sent is what the lines send, one after the other, and it makes no difference
how a session is laid out, or what follows a line that is no text. -/
namespace WidgetSync

namespace Session

open Text (isBlank trim)

/-- A line that holds no event, for one of the three reasons. -/
inductive Void (line : List Char) : Prop
  | blank (h : ∀ c ∈ line, isBlank c = true)
  | comment {text : List Char} (h : line = '#' :: text)
  | undecodable (h : Json.readChars? (trim line) >>= SessionEvent.ofJson? = none)

/-- Where a line starts: behind this text. -/
def StartsLine (before : List Char) : Prop := before = [] ∨ ∃ text, before = text ++ ['\n']

/-- Where a line ends: before this text. -/
def EndsLine (after : List Char) : Prop := after = [] ∨ ∃ text, after = '\n' :: text

/-- Blanks that stay on their line. -/
def IsPadding (blanks : List Char) : Prop := ∀ c ∈ blanks, isBlank c = true ∧ c ≠ '\n'

/-- One change to the layout of a session. -/
inductive Reformats : List Char → List Char → Prop
  | insert {before void : List Char} (after : List Char) (hb : StartsLine before) (hv : Void void) (hl : '\n' ∉ void) :
      Reformats (before ++ after) (before ++ (void ++ '\n' :: after))
  | padLeft {before blanks : List Char} (after : List Char) (hb : StartsLine before) (hp : IsPadding blanks) :
      Reformats (before ++ after) (before ++ (blanks ++ after))
  | padRight {blanks after : List Char} (before : List Char) (ha : EndsLine after) (hp : IsPadding blanks) :
      Reformats (before ++ after) (before ++ (blanks ++ after))
  | carriageReturn (before after : List Char) : Reformats (before ++ '\n' :: after) (before ++ '\r' :: '\n' :: after)
  | dropFinal (text : List Char) : Reformats (text ++ ['\n']) text

/-- The same session, up to its layout. -/
def SameUpToLayout : List Char → List Char → Prop := Relation.EqvGen Reformats

/-- Blank lines and comments are no JSON texts, so that a line holds what its text decodes to. -/
theorem event?_eq (line : List Char) : event? line = (Json.readChars? (trim line) >>= SessionEvent.ofJson?) := by
  have hblank : Json.readChars? [] = none := rfl
  have hcomment (text : List Char) : Json.readChars? ('#' :: text) = none := rfl
  rw [event?]
  split
  · next htrim => rw [htrim, hblank, Option.bind_eq_bind, Option.bind_none]
  · next text htrim => rw [htrim, hcomment, Option.bind_eq_bind, Option.bind_none]
  · rfl

theorem event?_of_trim {line other : List Char} (h : trim line = trim other) : event? line = event? other := by
  rw [event?, event?, h]

theorem event?_padded {before after line : List Char} (hb : ∀ c ∈ before, isBlank c = true)
    (ha : ∀ c ∈ after, isBlank c = true) : event? (before ++ (line ++ after)) = event? line :=
  event?_of_trim (Text.trim_padded hb ha line)

theorem Void.event? {line : List Char} (h : Void line) : event? line = none := by
  cases h with
  | blank h => rw [Session.event?, Text.trim_of_blank h]
  | @comment text h =>
    obtain ⟨rest, htrim⟩ := Text.trim_cons (c := '#') (by decide) text
    simp only [Session.event?, h, htrim]
  | undecodable h => rw [event?_eq, h]

theorem IsPadding.blank {blanks : List Char} (h : IsPadding blanks) : ∀ c ∈ blanks, isBlank c = true :=
  fun c hc => (h c hc).1

theorem IsPadding.notMem {blanks : List Char} (h : IsPadding blanks) : '\n' ∉ blanks := fun hm => (h _ hm).2 rfl

/-- The events on the lines of a text. -/
def eventsOf (text : List Char) : List SessionEvent := (text.splitOn '\n').filterMap event?

section Events

variable {line before after : List Char}

theorem eventsOf_append_cons (before after : List Char) :
    eventsOf (before ++ '\n' :: after) = eventsOf before ++ eventsOf after := by
  rw [eventsOf, List.splitOn_append_cons_self, List.filterMap_append]
  rfl

theorem eventsOf_of_notMem (hl : '\n' ∉ line) : eventsOf line = (event? line).toList := by
  rw [eventsOf, List.splitOn_eq_singleton hl]
  cases h : event? line <;> simp [h]

theorem eventsOf_append_of_startsLine (hb : StartsLine before) (after : List Char) :
    eventsOf (before ++ after) = eventsOf before ++ eventsOf after := by
  rcases hb with rfl | ⟨text, rfl⟩
  · rfl
  · have hempty : eventsOf [] = [] := rfl
    rw [List.append_assoc, List.singleton_append, eventsOf_append_cons, eventsOf_append_cons, hempty, List.append_nil]

theorem eventsOf_append_of_endsLine (ha : EndsLine after) (before : List Char) :
    eventsOf (before ++ after) = eventsOf before ++ eventsOf after := by
  have hempty : eventsOf [] = [] := rfl
  rcases ha with rfl | ⟨text, rfl⟩
  · rw [hempty, List.append_nil, List.append_nil]
  · have hfeed : eventsOf ('\n' :: text) = eventsOf text := eventsOf_append_cons [] text
    rw [eventsOf_append_cons, hfeed]

theorem exists_firstLine (text : List Char) : ∃ line after, '\n' ∉ line ∧ EndsLine after ∧ text = line ++ after := by
  induction text with
  | nil => exact ⟨[], [], List.not_mem_nil, .inl rfl, rfl⟩
  | cons c text ih =>
    by_cases hc : c = '\n'
    · exact ⟨[], c :: text, List.not_mem_nil, .inr ⟨text, by rw [hc]⟩, rfl⟩
    · obtain ⟨line, after, hl, ha, rfl⟩ := ih
      exact ⟨c :: line, after, List.not_mem_cons_of_ne_of_not_mem (Ne.symm hc) hl, ha, rfl⟩

theorem exists_lastLine (text : List Char) :
    ∃ before line, StartsLine before ∧ '\n' ∉ line ∧ text = before ++ line := by
  induction text using List.reverseRecOn with
  | nil => exact ⟨[], [], .inl rfl, List.not_mem_nil, rfl⟩
  | append_singleton text c ih =>
    by_cases hc : c = '\n'
    · exact ⟨text ++ [c], [], .inr ⟨text, by rw [hc]⟩, List.not_mem_nil, (List.append_nil _).symm⟩
    · obtain ⟨before, line, hb, hl, rfl⟩ := ih
      have hline : '\n' ∉ line ++ [c] := by
        simp only [List.mem_append, List.mem_singleton, not_or]
        exact ⟨hl, Ne.symm hc⟩
      exact ⟨before, line ++ [c], hb, hline, List.append_assoc _ _ _⟩

theorem eventsOf_padLeft {blanks : List Char} (hp : IsPadding blanks) (text : List Char) :
    eventsOf (blanks ++ text) = eventsOf text := by
  -- Blanks in front of a text pad its first line, and no other.
  obtain ⟨line, after, hl, ha, rfl⟩ := exists_firstLine text
  have hpadded : '\n' ∉ blanks ++ line := fun hm => (List.mem_append.mp hm).elim hp.notMem hl
  have hevent : event? (blanks ++ line) = event? line := by
    have hpad : event? (blanks ++ (line ++ [])) = event? line := event?_padded hp.blank (List.forall_mem_nil _)
    rwa [List.append_nil] at hpad
  rw [← List.append_assoc, eventsOf_append_of_endsLine ha, eventsOf_append_of_endsLine ha, eventsOf_of_notMem hl,
    eventsOf_of_notMem hpadded, hevent]

theorem eventsOf_padRight {blanks : List Char} (hp : IsPadding blanks) (text : List Char) :
    eventsOf (text ++ blanks) = eventsOf text := by
  obtain ⟨before, line, hb, hl, rfl⟩ := exists_lastLine text
  have hpadded : '\n' ∉ line ++ blanks := fun hm => (List.mem_append.mp hm).elim hl hp.notMem
  have hevent : event? (line ++ blanks) = event? line := event?_padded (List.forall_mem_nil _) hp.blank
  rw [List.append_assoc, eventsOf_append_of_startsLine hb, eventsOf_append_of_startsLine hb, eventsOf_of_notMem hl,
    eventsOf_of_notMem hpadded, hevent]

end Events

/-- A change to the layout keeps the events. -/
theorem Reformats.eventsOf {text other : List Char} (h : Reformats text other) : eventsOf other = eventsOf text := by
  cases h with
  | @insert before void after hb hv hl =>
    have hvoid : Session.eventsOf void = [] := by rw [eventsOf_of_notMem hl, hv.event?]; rfl
    rw [eventsOf_append_of_startsLine hb, eventsOf_append_of_startsLine hb, eventsOf_append_cons, hvoid,
      List.nil_append]
  | @padLeft before blanks after hb hp =>
    rw [eventsOf_append_of_startsLine hb, eventsOf_append_of_startsLine hb, eventsOf_padLeft hp]
  | @padRight blanks after before ha hp =>
    rw [← List.append_assoc, eventsOf_append_of_endsLine ha, eventsOf_append_of_endsLine ha, eventsOf_padRight hp]
  | carriageReturn before after =>
    -- A carriage return is a blank behind the line that it ends.
    have hreturn : IsPadding ['\r'] := by
      intro c hc
      rw [List.mem_singleton.mp hc]
      decide
    have hline : before ++ '\r' :: '\n' :: after = (before ++ ['\r']) ++ '\n' :: after := by simp
    rw [hline, eventsOf_append_cons, eventsOf_append_cons, eventsOf_padRight hreturn]
  | dropFinal =>
    have hempty : Session.eventsOf [] = [] := rfl
    rw [eventsOf_append_cons, hempty, List.append_nil]

theorem SameUpToLayout.eventsOf {text other : List Char} (h : SameUpToLayout text other) :
    Session.eventsOf other = Session.eventsOf text := by
  induction h with
  | rel text other h => exact h.eventsOf
  | refl text => rfl
  | symm text other _ ih => exact ih.symm
  | trans text mid other _ _ ih ih' => exact ih'.trans ih

/-- A comment, a blank line and nonsense around an event that is padded. -/
example : eventsOf "# begin\r\n\n \x7b\"type\":\"comm_close\",\"comm_id\":\"c\"\x7d\t\r\nend".toList
    = [.commClose ⟨"c"⟩] := by
  decide +kernel

/-- A line feed at its end is nothing to a line. -/
theorem event?_lineFeed (line : List Char) : event? (line ++ ['\n']) = event? line :=
  event?_padded (List.forall_mem_nil _) (List.all_eq_true.mp (by decide))

theorem filterMap_lines (acc text : List Char) :
    (lines (· = '\n') acc text).filterMap event? = (List.splitOnPPrepend (· == '\n') text acc).filterMap event? := by
  have hempty : event? [] = none := rfl
  -- Both walk the text with the line so far. They differ in the line feeds that lines keep, and in an empty last line.
  induction text generalizing acc with
  | nil =>
    rw [List.splitOnPPrepend_nil]
    cases acc with
    | nil => rw [List.reverse_nil, List.filterMap_cons_none hempty]; rfl
    | cons c acc => rw [lines_nil (List.cons_ne_nil c acc)]
  | cons c text ih =>
    by_cases hc : c = '\n'
    · subst hc
      have hlines : lines (· = '\n') acc ('\n' :: text) = (acc.reverse ++ ['\n']) :: lines (· = '\n') [] text := by
        rw [lines, if_pos (decide_eq_true rfl), List.reverse_cons]
      have hsplit : List.splitOnPPrepend (· == '\n') ('\n' :: text) acc
          = acc.reverse :: List.splitOnPPrepend (· == '\n') text [] :=
        List.splitOnPPrepend_cons_pos (beq_self_eq_true '\n')
      rw [hlines, hsplit, List.filterMap_cons, List.filterMap_cons, ih, event?_lineFeed]
    · have hlines : lines (· = '\n') acc (c :: text) = lines (· = '\n') (c :: acc) text := if_neg (by simpa using hc)
      rw [hlines, List.splitOnPPrepend_cons_neg (by simpa using hc), ih]

open Text.Utf8 (encode)

/-- The bytes of a text hold the events on its lines, and no fault. -/
theorem ofBytes_text (text : List Char) : ofBytes (encode text) = ⟨eventsOf text, none⟩ := by
  rw [ofBytes_encode, filterMap_lines, List.splitOnPPrepend_nil_right]
  rfl

section Faults

variable {α : Type} [DecidableEq α] {a : α} {xs line : List α} {rest : List (List α)}

/-- The first part of a list that is split, and what follows it. -/
theorem of_splitOn_eq_cons (h : xs.splitOn a = line :: rest) :
    a ∉ line ∧ (xs = line ∧ rest = [] ∨ ∃ ys, xs = line ++ a :: ys ∧ ys.splitOn a = rest) := by
  by_cases ha : a ∈ xs
  · obtain ⟨front, back, rfl, hfront⟩ := List.eq_append_cons_of_mem ha
    rw [List.splitOn_append_cons_self_of_not_mem hfront] at h
    obtain ⟨rfl, hrest⟩ := List.cons.inj h
    exact ⟨hfront, .inr ⟨back, rfl, hrest⟩⟩
  · rw [List.splitOn_eq_singleton ha] at h
    obtain ⟨rfl, hrest⟩ := List.cons.inj h
    exact ⟨ha, .inl ⟨rfl, hrest.symm⟩⟩

theorem lineFeed_free (ha : a ∉ line) : ∀ x ∈ line, decide (x = a) = false :=
  fun _ hx => decide_eq_false fun he => ha (he ▸ hx)

/-- The first line of a list, whether it is ended or not. -/
theorem lines_of_splitOn_eq_cons (h : xs.splitOn a = line :: rest) (hne : line ≠ []) : ∃ ending more,
    (ending = [] ∨ ending = [a]) ∧ lines (· = a) [] xs = (line ++ ending) :: more := by
  obtain ⟨ha, ⟨rfl, -⟩ | ⟨ys, rfl, -⟩⟩ := of_splitOn_eq_cons h
  · refine ⟨[], [], .inl rfl, ?_⟩
    rw [lines_of_notMem (lineFeed_free ha) hne, List.append_nil]
  · exact ⟨[a], _, .inr rfl, lines_append_cons (lineFeed_free ha) (decide_eq_true rfl) ys⟩

end Faults

/-- Bytes that are no text are none with a line feed behind them, either. -/
theorem not_text_lineFeed {bad : List UInt8} (h : ∀ text, bad ≠ encode text) (text : List Char) :
    bad ++ [10] ≠ encode text := by
  intro htext
  -- The byte of a line feed is in no other character, so the text would end in one, and the rest of it be the bytes.
  cases text using List.reverseRecOn with
  | nil => exact absurd htext (List.append_ne_nil_of_right_ne_nil bad (List.cons_ne_nil 10 []))
  | append_singleton text c =>
    rw [Text.Utf8.encode_append, Text.Utf8.encode_singleton] at htext
    have hlast : (encode text ++ String.utf8EncodeChar c).getLast? = some 10 := by rw [← htext, List.getLast?_concat]
    rw [List.getLast?_append_of_ne_nil _ String.utf8EncodeChar_ne_nil] at hlast
    obtain rfl := Text.Utf8.lineFeed_mem_utf8EncodeChar (List.mem_of_getLast? hlast)
    exact h text (List.append_cancel_right htext)

/-- The lines before the first that is no text are read, and no more. -/
theorem ofBytes_fault {bytes bad : List UInt8} {texts : List (List Char)} {rest : List (List UInt8)}
    (hlines : bytes.splitOn 10 = texts.map encode ++ bad :: rest) (hbad : ∀ text, bad ≠ encode text) :
    ∃ fault, ofBytes bytes = ⟨texts.filterMap event?, some fault⟩ := by
  -- On the lines before the faulty one, each of which is read and leaves the others to be read.
  induction texts generalizing bytes with
  | nil =>
    obtain ⟨ending, more, hending, hfirst⟩ := lines_of_splitOn_eq_cons hlines (hbad [])
    have hnot : ∀ text, bad ++ ending ≠ encode text := by
      rcases hending with rfl | rfl
      · rwa [List.append_nil]
      · exact not_text_lineFeed hbad
    obtain ⟨fault, hfault⟩ := Text.Utf8.decode_eq_error hnot
    refine ⟨fault, ?_⟩
    rw [ofBytes, hfirst, List.map_cons, hfault]
    rfl
  | cons text texts ih =>
    obtain ⟨hfeed, ⟨-, hnone⟩ | ⟨ys, rfl, hys⟩⟩ := of_splitOn_eq_cons hlines
    · exact absurd hnone (List.append_ne_nil_of_right_ne_nil _ (List.cons_ne_nil bad rest))
    · obtain ⟨fault, hrest⟩ := ih hys
      have hline : Text.Utf8.decode (encode text ++ [10]) = .ok (text ++ ['\n']) :=
        Text.Utf8.decode_eq_ok_iff.mpr (Text.Utf8.encode_append text ['\n']).symm
      refine ⟨fault, ?_⟩
      rw [ofBytes] at hrest ⊢
      rw [lines_append_cons (lineFeed_free hfeed) (decide_eq_true rfl), List.map_cons, hline, ofLines, hrest,
        event?_lineFeed]
      cases h : event? text <;> simp [h]

end Session

namespace Connection

/-- What a line does: what the event does that its text decodes to, if it does. -/
def takeLine (c : Connection) (line : List Char) : Connection × List Frame :=
  match Json.readChars? (Text.trim line) >>= SessionEvent.ofJson? with
  | none => (c, [])
  | some event => c.process event

/-- The connection after lines. -/
def afterLines (c : Connection) : List (List Char) → Connection
  | [] => c
  | line :: rest => (c.takeLine line).1.afterLines rest

/-- What each of the lines sends. -/
def sentByLines (c : Connection) : List (List Char) → List (List Frame)
  | [] => []
  | line :: rest => (c.takeLine line).2 :: (c.takeLine line).1.sentByLines rest

theorem takeLine_eq (c : Connection) (line : List Char) :
    c.takeLine line = match Session.event? line with | none => (c, []) | some event => c.process event := by
  rw [takeLine, Session.event?_eq]

/-- The events of lines are applied line by line. -/
theorem run_filterMap (c : Connection) (lines : List (List Char)) :
    c.run (lines.filterMap Session.event?) = (c.afterLines lines, (c.sentByLines lines).flatten) := by
  induction lines generalizing c with
  | nil => rfl
  | cons line rest ih =>
    rw [afterLines, sentByLines, takeLine_eq, List.flatten_cons]
    cases h : Session.event? line with
    | none => rw [List.filterMap_cons_none h, ih]; rfl
    | some event => simp only [List.filterMap_cons_some h, run, ih]

end Connection

namespace Session

open Text (trim)
open Text.Utf8 (encode)

/-- Lists of bytes are the bytes of texts, up to the first that is not. -/
theorem texts_or_fault (parts : List (List UInt8)) : (∃ texts : List (List Char), parts = texts.map encode) ∨
    ∃ (texts : List (List Char)) (bad : List UInt8) (rest : List (List UInt8)),
      parts = texts.map encode ++ bad :: rest ∧ ∀ text, bad ≠ encode text := by
  induction parts with
  | nil => exact .inl ⟨[], rfl⟩
  | cons part parts ih =>
    by_cases hpart : ∃ text, part = encode text
    · obtain ⟨text, rfl⟩ := hpart
      rcases ih with ⟨texts, rfl⟩ | ⟨texts, bad, rest, rfl, hbad⟩
      · exact .inl ⟨text :: texts, rfl⟩
      · exact .inr ⟨text :: texts, bad, rest, rfl, hbad⟩
    · exact .inr ⟨[], part, parts, rfl, fun text htext => hpart ⟨text, htext⟩⟩

/-- The bytes of joined lines. -/
theorem intercalate_encode (texts : List (List Char)) :
    [10].intercalate (texts.map encode) = encode (['\n'].intercalate texts) := by
  induction texts with
  | nil => rw [List.map_nil, List.intercalate_nil, List.intercalate_nil]; rfl
  | cons text texts ih =>
    cases texts with
    | nil => rw [List.map_singleton, List.intercalate_singleton, List.intercalate_singleton]
    | cons next texts =>
      have hfeed : encode ['\n'] = [10] := rfl
      rw [List.intercalate_cons_cons, Text.Utf8.encode_append, Text.Utf8.encode_append, hfeed, ← ih, List.map_cons,
        List.map_cons, List.intercalate_cons_cons]

/-- The connection that the program starts with. -/
def start (o : CommandLine.Options) (s : Settings) : Connection :=
  (Connection.new s.throttle).install (.withCells o.cellCount)

/-- The bytes are played as these lines, one after the other, and whether that is all of them. -/
structure PlayedAs (o : CommandLine.Options) (s : Settings) (bytes : List UInt8) (lines : List (List Char))
    (whole : Bool) : Prop where
  fault : (ofBytes bytes).fault.isNone = whole
  run : (start o s).run (ofBytes bytes).events
    = ((start o s).afterLines lines, ((start o s).sentByLines lines).flatten)
  play : Invocation.play o s bytes =
    let output := String.join (((start o s).sentByLines lines).flatten.map Invocation.frameLine)
    let page := if o.render then ((start o s).afterLines lines).manager.elim "" Manager.render else ""
    if whole then ⟨0, output ++ page⟩ else ⟨1, output⟩

theorem playedAs_of_eq {o : CommandLine.Options} {s : Settings} {bytes : List UInt8} {lines : List (List Char)}
    {fault : Option Text.Utf8.Fault} (h : ofBytes bytes = ⟨lines.filterMap event?, fault⟩) :
    PlayedAs o s bytes lines fault.isNone := by
  have hrun : (start o s).run (lines.filterMap event?) = _ := Connection.run_filterMap (start o s) lines
  refine ⟨by rw [h], by rw [h]; exact hrun, ?_⟩
  simp only [Invocation.play, h]
  rw [← start, hrun]
  cases fault <;> rfl

/-- Reading is line-local, for every throttle and number of cells. A line does what the event does that it decodes to,
and nothing if it is void. What is sent is what the lines send, in their order; the layout makes no difference; and a
line that is no text ends the reading with a fault, after the lines before it. -/
theorem reading_is_line_local (o : CommandLine.Options) (s : Settings) :
    (∀ (c : Connection) (line : List Char) (event : SessionEvent),
      Json.readChars? (trim line) >>= SessionEvent.ofJson? = some event → c.takeLine line = c.process event) ∧
    (∀ (c : Connection) (line : List Char), Void line → c.takeLine line = (c, [])) ∧
    (∀ text, PlayedAs o s (encode text) (text.splitOn '\n') true) ∧
    (∀ text other, SameUpToLayout text other →
      (start o s).run (ofBytes (encode other)).events = (start o s).run (ofBytes (encode text)).events ∧
      Invocation.play o s (encode other) = Invocation.play o s (encode text)) ∧
    (∀ (bytes bad : List UInt8) (texts : List (List Char)) (rest : List (List UInt8)),
      bytes.splitOn 10 = texts.map encode ++ bad :: rest → (∀ text, bad ≠ encode text) →
      PlayedAs o s bytes texts false) ∧
    ∀ bytes : List UInt8, (∃ text, bytes = encode text) ∨
      ∃ (texts : List (List Char)) (bad : List UInt8) (rest : List (List UInt8)),
        bytes.splitOn 10 = texts.map encode ++ bad :: rest ∧ ∀ text, bad ≠ encode text := by
  refine ⟨fun c line event h => ?_, fun c line h => ?_, fun text => playedAs_of_eq (ofBytes_text text),
    fun text other h => ?_, ?_, fun bytes => ?_⟩
  · rw [Connection.takeLine, h]
  · rw [Connection.takeLine_eq, h.event?]
  · have hsame : ofBytes (encode other) = ofBytes (encode text) := by rw [ofBytes_text, ofBytes_text, h.eventsOf]
    refine ⟨by rw [hsame], ?_⟩
    simp only [Invocation.play, hsame]
  · intro bytes bad texts rest hlines hbad
    obtain ⟨fault, hread⟩ := ofBytes_fault hlines hbad
    exact playedAs_of_eq hread
  · refine (texts_or_fault (bytes.splitOn 10)).imp_left ?_
    rintro ⟨texts, htexts⟩
    refine ⟨['\n'].intercalate texts, ?_⟩
    calc bytes = [10].intercalate (bytes.splitOn 10) := (List.intercalate_splitOn 10).symm
      _ = encode (['\n'].intercalate texts) := by rw [htexts, intercalate_encode]

end Session

end WidgetSync
