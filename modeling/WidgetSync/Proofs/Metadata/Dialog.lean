import WidgetSync.Metadata
import WidgetSync.Proofs.Json.Reading

/-! A metadata dialog from when it is opened until it is cancelled, if it is. It can be used on after a save, failed or
not, so that its text, its warning and what it asks of the keyboard depend on all that was done before. -/
namespace WidgetSync

/-- What is done in a dialog. -/
inductive DialogStep where
  | edit (text : String)
  | save

/-- The text that a step puts into the dialog. -/
def DialogStep.edited? : DialogStep → Option String
  | .edit text => some text
  | .save => none

namespace MetadataEditor

/-- The dialog after a step, and the outcome of the save if the step is one. -/
def step (e : MetadataEditor) : DialogStep → MetadataEditor × List (Option Value)
  | .edit text => (e.setText text, [])
  | .save => (e.save.1, [e.save.2])

/-- The dialog after the steps, and the outcomes of all saves. -/
def run (e : MetadataEditor) : List DialogStep → MetadataEditor × List (Option Value)
  | [] => (e, [])
  | s :: rest =>
    let (e, outcomes) := e.step s
    let (e, more) := e.run rest
    (e, outcomes ++ more)

theorem run_cons (e : MetadataEditor) (s : DialogStep) (rest : List DialogStep) :
    e.run (s :: rest) = (((e.step s).1.run rest).1, (e.step s).2 ++ ((e.step s).1.run rest).2) := rfl

/-- The value that a text denotes, if it is JSON. -/
def parsed? (text : String) : Option Value := (Json.read? text).map .ofJson

/-- The text in a dialog that was opened on `text`: what was edited last. -/
def textAfter (text : String) (steps : List DialogStep) : String :=
  (steps.filterMap DialogStep.edited?).getLast?.getD text

/-- The texts that are saved in a dialog that was opened on `text`, one for each save. -/
def savedTexts (text : String) : List DialogStep → List String
  | [] => []
  | .edit text :: rest => savedTexts text rest
  | .save :: rest => text :: savedTexts text rest

/-- What a dialog asks of the keyboard to give it back so many times. -/
def handedBack (times : Nat) : List KeyboardCall := (List.replicate times [.enable, .commandMode]).flatten

theorem handedBack_add (m n : Nat) : handedBack (m + n) = handedBack m ++ handedBack n := by
  rw [handedBack, ← List.replicate_append_replicate, List.flatten_append]
  rfl

theorem parsed?_eq_some_iff {text : String} {v : Value} :
    parsed? text = some v ↔ ∃ document : Json, document.IsText text.toList ∧ .ofJson document = v := by
  rw [parsed?, Option.map_eq_some_iff]
  simp only [Json.read?, Json.readChars?_eq_some_iff]

/-! ### One save -/

theorem save_outcome (e : MetadataEditor) : e.save.2 = parsed? e.text := by
  rw [save, parsed?]
  cases Json.read? e.text <;> rfl

theorem save_keyboard (e : MetadataEditor) :
    e.save.1.keyboard = e.keyboard ++ handedBack (if e.save.2.isSome then 1 else 0) := by
  rw [save]
  cases Json.read? e.text with
  | none => exact (List.append_nil e.keyboard).symm
  | some metadata => rfl

theorem save_text (e : MetadataEditor) : e.save.1.text = e.text := by
  rw [save]
  cases Json.read? e.text <;> rfl

theorem save_isWarning (e : MetadataEditor) : e.save.1.isWarning = e.save.2.isNone := by
  rw [save]
  cases Json.read? e.text <;> rfl

/-! ### All steps -/

theorem textAfter_edit (text edited : String) (rest : List DialogStep) :
    textAfter text (.edit edited :: rest) = textAfter edited rest := by
  have hcons : (DialogStep.edit edited :: rest).filterMap DialogStep.edited? =
      edited :: rest.filterMap DialogStep.edited? := rfl
  rw [textAfter, hcons, List.getLast?_cons, Option.getD_some, textAfter]

theorem run_text (e : MetadataEditor) (steps : List DialogStep) : (e.run steps).1.text = textAfter e.text steps := by
  induction steps generalizing e with
  | nil => rfl
  | cons s rest ih =>
    rw [run_cons, ih]
    cases s with
    | edit text => exact (textAfter_edit e.text text rest).symm
    | save =>
      show textAfter e.save.1.text rest = textAfter e.text rest
      rw [save_text]

theorem run_outcomes (e : MetadataEditor) (steps : List DialogStep) :
    (e.run steps).2 = (savedTexts e.text steps).map parsed? := by
  induction steps generalizing e with
  | nil => rfl
  | cons s rest ih =>
    rw [run_cons, ih]
    cases s with
    | edit text => rfl
    | save =>
      show e.save.2 :: (savedTexts e.save.1.text rest).map parsed? = _
      rw [save_outcome, save_text, savedTexts, List.map_cons]

theorem run_keyboard (e : MetadataEditor) (steps : List DialogStep) :
    (e.run steps).1.keyboard = e.keyboard ++ handedBack ((e.run steps).2.countP Option.isSome) := by
  induction steps generalizing e with
  | nil => exact (List.append_nil e.keyboard).symm
  | cons s rest ih =>
    rw [run_cons, ih]
    cases s with
    | edit text => rfl
    | save =>
      show e.save.1.keyboard ++ _ = e.keyboard ++ handedBack ((e.save.2 :: (e.save.1.run rest).2).countP Option.isSome)
      rw [save_keyboard, List.countP_cons, Nat.add_comm, handedBack_add, List.append_assoc]
      rfl

/-- A warning tells of the last save; edits leave it as it is. -/
theorem run_isWarning (e : MetadataEditor) (steps : List DialogStep) :
    (e.run steps).1.isWarning = ((e.run steps).2.getLast?.map Option.isNone).getD e.isWarning := by
  induction steps generalizing e with
  | nil => rfl
  | cons s rest ih =>
    rw [run_cons, ih]
    cases s with
    | edit text => rfl
    | save =>
      show ((e.save.1.run rest).2.getLast?.map Option.isNone).getD e.save.1.isWarning =
        ((e.save.2 :: (e.save.1.run rest).2).getLast?.map Option.isNone).getD e.isWarning
      rw [List.getLast?_cons, save_isWarning]
      cases (e.save.1.run rest).2.getLast? <;> rfl

/-- A dialog takes the keyboard when it is opened and gives it back at each save that succeeds and when it is cancelled;
it asks nothing else of it. A save succeeds if and only if the text is JSON, and returns what the text denotes. The
warning is there if there was a save and the last one failed. A save that fails leaves the text and the keyboard alone,
and to save any text that is JSON succeeds then and takes the warning away. -/
theorem dialog_protocol (name : String) (metadata : Option Value) (steps : List DialogStep) :
    let opened := start name metadata
    let e := (opened.run steps).1
    let outcomes := (opened.run steps).2
    e.text = textAfter opened.text steps ∧
      outcomes = (savedTexts opened.text steps).map parsed? ∧ e.save.2 = parsed? e.text ∧
      (∀ text v, parsed? text = some v ↔ ∃ document : Json, document.IsText text.toList ∧ .ofJson document = v) ∧
      e.keyboard = .disable :: handedBack (outcomes.countP Option.isSome) ∧
      e.cancel.keyboard = .disable :: handedBack (outcomes.countP Option.isSome + 1) ∧
      (e.warning?.isSome = true ↔ outcomes.getLast? = some none) ∧
      (e.save.2 = none → e.save.1.text = e.text ∧ e.save.1.keyboard = e.keyboard ∧
        ∀ fixed v, parsed? fixed = some v →
          (e.save.1.setText fixed).save.2 = some v ∧ (e.save.1.setText fixed).save.1.warning? = none) := by
  intro opened e outcomes
  have hkeyboard : e.keyboard = .disable :: handedBack (outcomes.countP Option.isSome) := opened.run_keyboard steps
  refine ⟨opened.run_text steps, opened.run_outcomes steps, e.save_outcome, fun _ _ => parsed?_eq_some_iff, hkeyboard,
    ?_, ?_, fun hfailed => ?_⟩
  · rw [handedBack_add, ← List.cons_append, ← hkeyboard]
    rfl
  · have hwarning : e.isWarning = (outcomes.getLast?.map Option.isNone).getD false := opened.run_isWarning steps
    have hsome : e.warning?.isSome = e.isWarning := by
      rw [warning?]
      cases e.isWarning <;> rfl
    rw [hsome, hwarning]
    rcases outcomes.getLast? with _ | _ | _ <;> simp
  · refine ⟨e.save_text, ?_, fun fixed v hv => ?_⟩
    · rw [save_keyboard, hfailed]
      exact List.append_nil e.keyboard
    · have hsaved : (e.save.1.setText fixed).save.2 = some v := (save_outcome _).trans hv
      refine ⟨hsaved, ?_⟩
      rw [warning?, save_isWarning, hsaved]
      rfl

end MetadataEditor

end WidgetSync
