import WidgetSync.Program
import WidgetSync.Proofs.Session.Lines
import WidgetSync.Proofs.Wire.Format

/-! Sessions and outputs are read back from their text, one message a line. -/
namespace WidgetSync

namespace Json.Writer

theorem moreMembers_append (members : List (String × Json)) : ∃ front, moreMembers members = front ++ ['\x7d'] := by
  induction members with
  | nil => exact ⟨[], rfl⟩
  | cons p rest ih =>
    obtain ⟨front, hfront⟩ := ih
    refine ⟨',' :: (string p.1 ++ ':' :: (value p.2 ++ front)), ?_⟩
    rw [moreMembers, hfront]
    simp

/-- The text of an object stands between braces. -/
theorem value_obj (members : List (String × Json)) :
    ∃ inner, value (.obj members) = '\x7b' :: (inner ++ ['\x7d']) := by
  cases members with
  | nil => exact ⟨[], rfl⟩
  | cons p rest =>
    obtain ⟨front, hfront⟩ := moreMembers_append rest
    refine ⟨string p.1 ++ ':' :: (value p.2 ++ front), ?_⟩
    rw [value, hfront]
    simp

end Json.Writer

theorem SessionEvent.toJson_eq_obj (event : SessionEvent) : ∃ members, event.toJson = .obj members := by
  cases event <;> exact ⟨_, rfl⟩

namespace Format

variable {α : Type} (f : Format α)

/-- A message as a line. -/
def line (a : α) : String := f.text a ++ "\n"

/-- Messages as text, one a line. -/
def textLines (messages : List α) : String := String.join (messages.map f.line)

variable {f} {a : α} {messages : List α}

theorem toList_line (a : α) : (f.line a).toList = (f.text a).toList ++ ['\n'] := String.toList_append

theorem Portable.noLineFeed (h : f.Portable a) : ∀ c ∈ (f.text a).toList, decide (c = '\n') = false := by
  refine fun c hc => decide_eq_false ?_
  rintro rfl
  exact h.readBack.oneLine.1 hc

/-- The lines are those that were written, and what stands behind them has lines of its own. -/
theorem lines_append (h : ∀ a ∈ messages, f.Portable a) (rest : List Char) :
    Session.lines (· = '\n') [] ((f.textLines messages).toList ++ rest)
      = (messages.map fun a => (f.line a).toList) ++ Session.lines (· = '\n') [] rest := by
  have htexts : (f.textLines messages).toList = (messages.map fun a => (f.text a).toList).flatMap (· ++ ['\n']) := by
    simp [textLines, toList_line, String.toList_join, List.flatMap_map]
  have hlines : ∀ text ∈ messages.map (fun a => (f.text a).toList), ∀ c ∈ text, decide (c = '\n') = false := by
    intro text htext c hc
    obtain ⟨a, ha, rfl⟩ := List.mem_map.mp htext
    exact (h a ha).noLineFeed c hc
  rw [htexts, Session.lines_flatMap hlines (decide_eq_true rfl), List.map_map]
  congr 1
  exact List.map_congr_left fun a _ => (toList_line a).symm

theorem lines_textLines (h : ∀ a ∈ messages, f.Portable a) :
    Session.lines (· = '\n') [] (f.textLines messages).toList = messages.map fun a => (f.line a).toList := by
  have hlines := lines_append h []
  rwa [List.append_nil, Session.lines, if_pos List.isEmpty_nil, List.append_nil] at hlines

/-- Each line of the text is read as its message. -/
theorem read?_lines (h : ∀ a ∈ messages, f.Portable a) :
    (Session.lines (· = '\n') [] (f.textLines messages).toList).map (fun line => f.read? (String.ofList line))
      = messages.map some := by
  have hfeed : ∀ c ∈ ['\n'], Json.Reader.isBlank c = true := List.all_eq_true.mp (by decide)
  have hline : ∀ a ∈ messages, f.read? (String.ofList (f.line a).toList) = some a := by
    intro a ha
    rw [toList_line]
    exact read?_append (h a ha) hfeed
  rw [lines_textLines h, List.map_map]
  exact List.map_congr_left hline

end Format

namespace Session

/-- An event is read from its text, whatever blanks stand around it. -/
theorem event?_text {event : SessionEvent} (h : SessionEvent.format.Portable event) {before after : List Char}
    (hb : ∀ c ∈ before, Text.isBlank c = true) (ha : ∀ c ∈ after, Text.isBlank c = true) :
    event? (before ++ ((SessionEvent.format.text event).toList ++ after)) = some event := by
  obtain ⟨members, hmembers⟩ := event.toJson_eq_obj
  obtain ⟨inner, hinner⟩ := Json.Writer.value_obj members
  have htext : (SessionEvent.format.text event).toList = '\x7b' :: (inner ++ ['\x7d']) := by
    rw [Format.text, Json.toList_compact, ← hinner, ← hmembers]
    rfl
  have htrim : Text.trim (before ++ ((SessionEvent.format.text event).toList ++ after))
      = '\x7b' :: (inner ++ ['\x7d']) := by
    rw [htext]
    apply Text.trim_append hb ha (List.cons_ne_nil _ _)
    · rintro c ⟨⟩
      decide
    · rw [← List.cons_append, List.getLast?_concat]
      rintro c ⟨⟩
      decide
  have hread : Json.readChars? ('\x7b' :: (inner ++ ['\x7d'])) >>= SessionEvent.ofJson? = some event := by
    rw [← htext]
    exact h.readBack.read
  rw [event?, htrim]
  exact hread

theorem filterMap_event?_lines {events : List SessionEvent}
    (h : ∀ event ∈ events, SessionEvent.format.Portable event) :
    (events.map fun event => (SessionEvent.format.line event).toList).filterMap event? = events := by
  induction events with
  | nil => rfl
  | cons event events ih =>
    have hfeed : ∀ c ∈ ['\n'], Text.isBlank c = true := List.all_eq_true.mp (by decide)
    have hfirst := event?_text (h event List.mem_cons_self) (List.forall_mem_nil _) hfeed
    rw [List.nil_append, ← Format.toList_line] at hfirst
    have hrest := ih fun e he => h e (List.mem_cons_of_mem event he)
    rw [List.map_cons, List.filterMap_cons_some hfirst, hrest]

variable {events : List SessionEvent} (h : ∀ event ∈ events, SessionEvent.format.Portable event)

include h

/-- A session is read back from its lines. -/
theorem ofBytes_textLines : ofBytes (SessionEvent.format.textLines events).toUTF8.toList = ⟨events, none⟩ := by
  rw [Text.Utf8.toList_toUTF8, ofBytes_encode, Format.lines_textLines h, filterMap_event?_lines h]

/-- The last event needs no line feed. -/
theorem ofBytes_textLines_append {last : SessionEvent} (hlast : SessionEvent.format.Portable last) :
    ofBytes (SessionEvent.format.textLines events ++ SessionEvent.format.text last).toUTF8.toList
      = ⟨events ++ [last], none⟩ := by
  have hevent := event?_text hlast (List.forall_mem_nil _) (List.forall_mem_nil _)
  rw [List.nil_append, List.append_nil] at hevent
  have hne : (SessionEvent.format.text last).toList ≠ [] := by
    intro hempty
    rw [hempty] at hevent
    contradiction
  have hline := lines_of_notMem hlast.noLineFeed hne
  rw [Text.Utf8.toList_toUTF8, ofBytes_encode, String.toList_append, Format.lines_append h, List.filterMap_append,
    filterMap_event?_lines h, hline, List.filterMap_cons_some hevent, List.filterMap_nil]

end Session

namespace Wire

/-- Every message that a machine of 64 bits can have, without doubles and not nested too deeply, is read back from its
text, which is one line; so is every session from its lines, and every output from its. -/
theorem formats_round_trip :
    (∀ event, SessionEvent.format.Portable event → SessionEvent.format.ReadBack event)
    ∧ (∀ message, ModelMessage.format.Portable message → ModelMessage.format.ReadBack message)
    ∧ (∀ message, SyncMessage.format.Portable message → SyncMessage.format.ReadBack message)
    ∧ (∀ frame, Frame.format.Portable frame → Frame.format.ReadBack frame)
    ∧ (∀ events : List SessionEvent, (∀ event ∈ events, SessionEvent.format.Portable event) →
        Session.ofBytes (SessionEvent.format.textLines events).toUTF8.toList = ⟨events, none⟩
        ∧ ∀ last, SessionEvent.format.Portable last →
          Session.ofBytes (SessionEvent.format.textLines events ++ SessionEvent.format.text last).toUTF8.toList
            = ⟨events ++ [last], none⟩)
    ∧ (∀ frames : List Frame, (∀ frame ∈ frames, Frame.format.Portable frame) →
        (Session.lines (· = '\n') [] (String.join (frames.map Invocation.frameLine)).toList).map
          (fun line => Frame.format.read? (String.ofList line)) = frames.map some) := by
  refine ⟨fun _ => Format.Portable.readBack, fun _ => Format.Portable.readBack, fun _ => Format.Portable.readBack,
    fun _ => Format.Portable.readBack, fun events h => ⟨Session.ofBytes_textLines h, ?_⟩, fun _ => Format.read?_lines⟩
  exact fun last => Session.ofBytes_textLines_append h

open List (forall_mem_cons forall_mem_singleton)

/-- The largest index, the numbers at both ends of the 64-bit ranges, and a text with a line break, a quote and
characters of two to four bytes. -/
theorem extremes_read_back :
    let data : Value := .ofJson (.obj [("k\n\"é", .arr [.null, .num (.int (-0x8000000000000000) (by decide)), .obj [],
      .num (.int 0xFFFFFFFFFFFFFFFF (by decide)), .str "\x00→𝄞"])])
    let events : List SessionEvent := [.execute 0xFFFFFFFFFFFFFFFF "m1", .commMessage ⟨⟨"c1"⟩, data, some "m1"⟩,
      .ui ⟨7⟩ (.slide Int64.minValue)]
    let frames : List Frame := [.message ⟨"c1"⟩ (.custom data) ⟨some (.cell 0)⟩, .close ⟨"c1"⟩]
    Session.ofBytes (SessionEvent.format.textLines events).toUTF8.toList = ⟨events, none⟩
    ∧ ModelMessage.format.ReadBack (.display "Box" (some ⟨"c1"⟩) (some 0xFFFFFFFFFFFFFFFF))
    ∧ SyncMessage.format.ReadBack (.custom data)
    ∧ (Session.lines (· = '\n') [] (String.join (frames.map Invocation.frameLine)).toList).map
        (fun line => Frame.format.read? (String.ofList line)) = frames.map some := by
  intro data events frames
  have hword : ∀ n ∈ [0, 7, 0xFFFFFFFFFFFFFFFF], n < 0x10000000000000000 := by decide
  have hdata : data.json.Exact := ⟨⟨trivial, trivial, trivial, trivial, trivial, trivial⟩, trivial⟩
  have hevents : ∀ event ∈ events, SessionEvent.format.Portable event := by
    have hexecute : SessionEvent.format.Portable (.execute 0xFFFFFFFFFFFFFFFF "m1") :=
      ⟨hword _ (by decide), trivial, by decide⟩
    have hmessage : SessionEvent.format.Portable (.commMessage ⟨⟨"c1"⟩, data, some "m1"⟩) :=
      ⟨trivial, hdata, by decide⟩
    have hslide : SessionEvent.format.Portable (.ui ⟨7⟩ (.slide Int64.minValue)) :=
      ⟨hword 7 (by decide), trivial, by decide⟩
    exact forall_mem_cons.mpr ⟨hexecute, forall_mem_cons.mpr ⟨hmessage, forall_mem_singleton.mpr hslide⟩⟩
  have hframes : ∀ frame ∈ frames, Frame.format.Portable frame := by
    have hsized : ∀ key ∈ some (GroupKey.cell 0), key.Sized := by
      rintro _ ⟨⟩
      exact hword 0 (by decide)
    have hmessage : Frame.format.Portable (.message ⟨"c1"⟩ (.custom data) ⟨some (.cell 0)⟩) :=
      ⟨hsized, hdata, by decide⟩
    have hclose : Frame.format.Portable (.close ⟨"c1"⟩) := ⟨trivial, trivial, by decide⟩
    exact forall_mem_cons.mpr ⟨hmessage, forall_mem_singleton.mpr hclose⟩
  have hdisplay : ModelMessage.format.Portable (.display "Box" (some ⟨"c1"⟩) (some 0xFFFFFFFFFFFFFFFF)) := by
    refine ⟨?_, trivial, by decide⟩
    rintro _ ⟨⟩
    exact hword _ (by decide)
  have hcustom : SyncMessage.format.Portable (.custom data) := ⟨trivial, hdata, by decide⟩
  obtain ⟨-, hmodel, hsync, -, hsessions, houtputs⟩ := formats_round_trip
  exact ⟨(hsessions events hevents).1, hmodel _ hdisplay, hsync _ hcustom, houtputs frames hframes⟩

end Wire

end WidgetSync
