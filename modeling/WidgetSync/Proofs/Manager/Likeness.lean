import WidgetSync.Element.Html
import WidgetSync.Proofs.Manager.Origin
import WidgetSync.Proofs.View.Likeness

/-! Views of one kind on one model look alike, whenever they were displayed and whatever the user did to which of them,
but for what the model once had and has no longer. Nothing takes a style off a view again, nor tells it to be as visible
as it was at first, and the view that the user acts on is not restyled until something else draws it anew. -/
namespace WidgetSync

namespace View

variable {v v' : View} {model model' last : Model} {acted : Prop}

theorem Tended.of_same (h : v.Tended acted model) (hv : v.SameLook v') (hm : model.SameState model') :
    v'.Tended acted model' := by
  refine ⟨?_, fun visible hvisible => ?_, fun path styles property value => ?_⟩
  · rw [hv.styleTarget, hv.kind, h.styleTarget]
  · rw [hm.attributes] at hvisible
    rw [hv.isVisible, h.visible visible hvisible]
  · rw [hv.element, hv.kind, hm.attributes, hm.css]
    exact h.styled path styles property value

/-- In every sequel a view has what its model says, as long as a click counts as acting on it. -/
theorem Tended.sequel {op : Operation} {id : ViewId} (h : v.Tended acted model) (hready : v.Ready)
    (hsequel : v.Sequel op id model v' model') (hclick : op = .ui id .click → acted) : v'.Tended acted model' := by
  cases hsequel with
  | kept look state => exact h.of_same look state
  | updated brings => exact tended_refresh hready h.styleTarget _ _
  | followed value attributes css => exact tended_refresh hready h.styleTarget _ _
  | acted ui attributes css => exact h.handleEvent (fun hevent => hclick (hevent ▸ ui)) attributes css

theorem Pristine.of_same (h : v.Pristine last) (hv : v.SameLook v') : v'.Pristine last := by
  refine ⟨fun hnone => hv.isVisible.trans (h.visible hnone), fun path styles property => ?_⟩
  rw [hv.element, hv.kind]
  exact h.styled path styles property

end View

namespace Manager

variable {m : Manager} {last : Model}

/-- The operations of a session. -/
def operations (events : List SessionEvent) : List Operation := events.map SessionEvent.operation

/-- No event of a session is a change that a view makes of its own accord. -/
theorem operation_ne_change (event : SessionEvent) (view : ViewId) (changes : Attributes) :
    event.operation ≠ .change view changes := by
  intro he
  cases event <;> exact nomatch he

theorem change_notMem_operations (events : List SessionEvent) (view : ViewId) (changes : Attributes) :
    .change view changes ∉ operations events := by
  intro hmem
  obtain ⟨event, _, he⟩ := List.mem_map.mp hmem
  exact operation_ne_change event view changes he

theorem ui_of_operation {event : SessionEvent} {id : ViewId} {action : UiEvent}
    (h : event.operation = .ui id action) : event = .ui id action := by
  cases event with
  | ui view done =>
    obtain ⟨rfl, rfl⟩ := Operation.ui.inj h
    rfl
  | _ => exact nomatch h

/-! ### Clicks -/

/-- The user has clicked a live view, and no event since has drawn it anew. -/
def ClickedLately (m : Manager) (events : List SessionEvent) (id : ViewId) : Prop :=
  ∃ earlier later, events = earlier ++ .ui id .click :: later ∧ (m.run (operations earlier)).1.views.get? id ≠ none ∧
    ∀ between event rest, later = between ++ event :: rest →
      ¬(m.run (operations (earlier ++ .ui id .click :: between))).1.Redraws event.operation id

theorem clickedLately_click {events : List SessionEvent} {id : ViewId}
    (h : (m.run (operations events)).1.views.get? id ≠ none) : m.ClickedLately (events ++ [.ui id .click]) id := by
  refine ⟨events, [], rfl, h, fun between event rest he => ?_⟩
  exact absurd he.symm (List.append_ne_nil_of_right_ne_nil between (List.cons_ne_nil event rest))

theorem ClickedLately.concat {events : List SessionEvent} {id : ViewId} (h : m.ClickedLately events id)
    {event : SessionEvent} (hkept : ¬(m.run (operations events)).1.Redraws event.operation id) :
    m.ClickedLately (events ++ [event]) id := by
  obtain ⟨earlier, later, rfl, hlive, hlater⟩ := h
  refine ⟨earlier, later ++ [event], List.append_assoc _ _ _, hlive, fun between next rest he => ?_⟩
  -- The next event is the last of all, or it came before.
  cases rest using List.reverseRecOn with
  | nil =>
    obtain ⟨rfl, hnext⟩ := List.append_inj' he rfl
    obtain rfl := List.head_eq_of_cons_eq hnext
    exact hkept
  | append_singleton rest last =>
    rw [← List.cons_append, ← List.append_assoc] at he
    exact hlater between next rest (List.append_inj' he rfl).1

/-- A manager on which a session can go on. -/
structure InSession (m : Manager) : Prop where
  consistent : m.Consistent
  inOrder : m.InOrder
  pictured : m.Pictured [] fun _ => False

theorem withDefaults_inSession (notebook : Notebook) (throttle : Nat) : (withDefaults notebook throttle).InSession where
  consistent := (new_consistent notebook throttle).step .registerDefaults
  inOrder := (new_consistent notebook throttle).inOrder_step (new_inOrder notebook throttle) .registerDefaults
  pictured := (new_consistent notebook throttle).pictured_step (new_pictured notebook throttle _) .registerDefaults
    fun _ _ he => nomatch he

theorem InSession.run (h : m.InSession) (events : List SessionEvent) : (m.run (operations events)).1.InSession where
  consistent := h.consistent.run _
  inOrder := h.consistent.inOrder_run h.inOrder _
  pictured := h.consistent.pictured_run h.pictured fun view changes hmem =>
    change_notMem_operations events view changes hmem

/-- One event on, every view has what its model says. What is drawn anew has all of it. -/
theorem InSession.tended_step (h : m.InSession) (event : SessionEvent) {clicked clicked' : ViewId → Prop}
    (hclick : ∀ id, event = .ui id .click → m.views.get? id ≠ none → clicked' id)
    (hkept : ∀ id, clicked id → ¬m.Redraws event.operation id → clicked' id)
    (hm : m.Holds fun id v model => v.Tended (clicked id) model) :
    (m.step event.operation).manager.Holds fun id v model => v.Tended (clicked' id) model := by
  intro id slot' model' hs' hm'
  cases h.consistent.traced h.inOrder (operation_ne_change event) id slot' model' hs' hm' with
  | displayed kind comm group drawn =>
    rw [drawn]
    exact View.tended_refresh (View.new_ready kind comm group) (View.new_styleTarget kind comm group) _ model'
  | @earlier slot model live owner sequel =>
    have hready := h.pictured.ready id slot live
    have htended := hm id slot model live owner
    by_cases hdrawn : m.Redraws event.operation id
    · rw [h.consistent.refreshed hdrawn live hs' hm']
      exact View.tended_refresh hready htended.styleTarget _ model'
    · refine (htended.mono fun hid => hkept id hid hdrawn).sequel hready sequel fun hui => ?_
      refine hclick id (ui_of_operation hui) ?_
      rw [live]
      exact Option.some_ne_none slot

/-- Every view has what its model says, whatever comes in. -/
theorem InSession.tended (h : m.InSession) (hm : m.Holds fun _ v model => v.Tended False model)
    (events : List SessionEvent) :
    (m.run (operations events)).1.Holds fun id v model => v.Tended (m.ClickedLately events id) model := by
  induction events using List.reverseRecOn with
  | nil => exact fun id slot model hs hown => (hm id slot model hs hown).mono False.elim
  | append_singleton events event ih =>
    rw [operations, List.map_append, run_append]
    exact (h.run events).tended_step event (fun id hui hlive => hui ▸ clickedLately_click hlive)
      (fun id hid hkept => hid.concat hkept) ih

/-- The model of a comm has withdrawn nothing of what it overrode in the states that some events go through. -/
def WithdrewNothing (m : Manager) (events : List SessionEvent) (comm : CommId) (last : Model) : Prop :=
  ∀ before later, events = before ++ later → ∀ earlier,
    (m.run (operations before)).1.models.get? comm = some earlier → last.Supersedes earlier

/-- Views that are displayed while nothing is withdrawn have nothing of the past. -/
theorem InSession.pristine (h : m.InSession) {events : List SessionEvent} {comm : CommId}
    (hl : m.WithdrewNothing events comm last) (hm : m.Holds fun _ v _ => v.styleTarget = v.kind.styleTarget?) :
    (m.run (operations events)).1.Holds fun id v _ => v.styleTarget = v.kind.styleTarget? ∧
      (v.model = comm → m.views.get? id = none →
        (v.kind = .toggleButton → ∀ property, ¬last.css.MarksActive property) → v.Pristine last) := by
  have hQ : ∀ before later, operations events = before ++ later → ∀ c model,
      (m.run before).1.models.get? c = some model → c = comm → last.Supersedes model := by
    rintro before later he c model hmodel rfl
    obtain ⟨first, rest, rfl, rfl, -⟩ := List.map_eq_append_iff.mp he
    exact hl first rest rfl model hmodel
  refine h.consistent.holds_run h.inOrder h.pictured (change_notMem_operations events) hQ ?_ ?_ ?_
  · intro id kind c group model hsuper
    have hready := View.new_ready kind c group
    have htarget := View.new_styleTarget kind c group
    refine ⟨by rw [View.styleTarget_refresh, View.kind_refresh, htarget], fun hc _ hplain => ?_⟩
    rw [(View.refresh_keeps _ model).1] at hc
    rw [View.kind_refresh] at hplain
    exact (View.pristine_new last kind c group).refresh hready htarget (hsuper hc) hplain
  · rintro op id v model v' model' hshows hsequel hsuper ⟨htarget, hpristine⟩
    have howner := hsequel.owner
    have hrefresh {drawn : Model} (hsuper : v.model = comm → last.Supersedes drawn) :
        (v.refresh drawn).styleTarget = (v.refresh drawn).kind.styleTarget? ∧
          ((v.refresh drawn).model = comm → m.views.get? id = none →
            ((v.refresh drawn).kind = .toggleButton → ∀ property, ¬last.css.MarksActive property) →
            (v.refresh drawn).Pristine last) := by
      rw [View.styleTarget_refresh, View.kind_refresh, (v.refresh_keeps drawn).1]
      exact ⟨htarget, fun hc hid hplain => (hpristine hc hid hplain).refresh hshows.ready htarget (hsuper hc) hplain⟩
    cases hsequel with
    | kept look state =>
      refine ⟨by rw [look.styleTarget, look.kind, htarget], fun hc hid hplain => ?_⟩
      exact (hpristine (howner ▸ hc) hid (look.kind ▸ hplain)).of_same look
    | updated brings => exact hrefresh hsuper
    | followed value attributes css => exact hrefresh hsuper
    | acted ui attributes css =>
      refine ⟨?_, fun hc hid hplain => ?_⟩
      · rw [View.kind_handleEvent, (v.handleEvent_styles _ model).2.1, htarget]
      · rw [howner] at hc
        rw [View.kind_handleEvent] at hplain
        exact (hpristine hc hid hplain).handleEvent _ model
  · intro id slot model hs hown
    refine ⟨hm id slot model hs hown, fun _ hnone => ?_⟩
    rw [hs] at hnone
    contradiction

/-! ### Two views -/

/-- Any two live views of one kind on one model, after any session. Inline styles apart they are the same, and both are
as visible as the model says, if it says so. Both have all styles that a view has that is displayed now, but for styles
of active buttons on toggle buttons that were clicked and have not been drawn anew since. And if both were displayed
after some of the events, and nothing that the model overrode then was withdrawn, they are the same altogether. -/
theorem views_of_a_model_look_alike (notebook : Notebook) (throttle : Nat) (past recent : List SessionEvent)
    (i j : ViewId) (si sj : Slot) (model : Model) :
    let start := withDefaults notebook throttle
    let before := (start.run (operations past)).1
    let m := (before.run (operations recent)).1
    m.views.get? i = some si → m.views.get? j = some sj → si.view.kind = sj.view.kind → si.view.model = sj.view.model →
      m.models.get? si.view.model = some model →
      si.view.element.unstyled = sj.view.element.unstyled ∧
      (∀ visible, model.attributes.getBool? "visible" = some visible →
        si.view.element.face.isHidden = !visible ∧ sj.view.element.face.isHidden = !visible) ∧
      si.view.UpToDate (start.ClickedLately (past ++ recent) i) model ∧
      sj.view.UpToDate (start.ClickedLately (past ++ recent) j) model ∧
      (before.views.get? i = none → before.views.get? j = none → before.WithdrewNothing recent si.view.model model →
        (si.view.kind = .toggleButton → ∀ property, ¬model.css.MarksActive property) →
        si.view.element = sj.view.element) := by
  intro start before m hi hj hkind hmodel hm
  have hstart : start.InSession := withDefaults_inSession notebook throttle
  have hbefore : before.InSession := hstart.run past
  have hsession : m.InSession := hbefore.run recent
  -- At first there are no views at all.
  have hblank : start.Holds fun _ v model => v.Tended False model := by
    intro id slot _ hs
    have hnone : start.views = ∅ := (new notebook throttle).registerDefaults_around.views
    rw [hnone] at hs
    contradiction
  have htended : before.Holds fun id v model => v.Tended (start.ClickedLately past id) model :=
    hstart.tended hblank past
  have htended' : m.Holds fun id v model => v.Tended (start.ClickedLately (past ++ recent) id) model := by
    have hrun : (start.run (operations (past ++ recent))).1 = m := by
      rw [operations, List.map_append, run_append]
      rfl
    exact hrun ▸ hstart.tended hblank (past ++ recent)
  have hmj : m.models.get? sj.view.model = some model := hmodel ▸ hm
  have hti := htended' i si model hi hm
  have htj := htended' j sj model hj hmj
  have hsi := hsession.pictured.current i si model hi List.not_mem_nil not_false hm
  have hsj := hsession.pictured.current j sj model hj List.not_mem_nil not_false hmj
  refine ⟨?_, fun visible hv => ⟨?_, ?_⟩, hti.upToDate hsi, htj.upToDate hsj, fun hni hnj hkept hplain => ?_⟩
  · rw [hsi.unstyled, hsj.unstyled, hkind]
  · rw [hsi.isHidden, hti.visible visible hv]
  · rw [hsj.isHidden, htj.visible visible hv]
  · have hpristine := hbefore.pristine hkept fun id slot model hs hown => (htended id slot model hs hown).styleTarget
    have hpi : si.view.Pristine model := (hpristine i si model hi hm).2 rfl hni hplain
    have hpj : sj.view.Pristine model := (hpristine j sj model hj hmj).2 hmodel.symm hnj (hkind ▸ hplain)
    have hvisible : si.view.isVisible = sj.view.isVisible := by
      cases hv : model.attributes.getBool? "visible" with
      | none => rw [hpi.visible hv, hpj.visible hv]
      | some visible => rw [hti.visible visible hv, htj.visible visible hv]
    -- Without styles both are what their kind draws; with them, both have the layer of the model on each part.
    have hbare : si.view.element.bare = sj.view.element.bare := by rw [hsi, hsj, hkind, hvisible]
    refine Element.ext_of_bare hbare fun path styles styles' hs hs' => ?_
    rw [hpi.stylesAt? hti hplain hs, hpj.stylesAt? htj (hkind ▸ hplain) hs', hkind]

/-- The backend tells a comm something. -/
def told (members : List (String × Json)) : SessionEvent := .commMessage ⟨⟨"c"⟩, .ofJson (.obj members), none⟩

def toldDisplay (name : String) : SessionEvent := told [("method", .str "display"), ("view_name", .str name)]

def toldState (members : List (String × Json)) : SessionEvent :=
  told [("method", .str "update"), ("state", .obj members)]

/-- Two checkboxes with a red box are displayed, one before and one after the user checks the first. -/
theorem red_checkboxes_look_alike :
    let past := [.commOpen ⟨⟨"c"⟩, "BoolWidgetModel"⟩,
      toldState [("_css", .obj [("input", .obj [("color", .str "red")])])]]
    let recent := [toldDisplay "CheckboxView", .ui ⟨1⟩ .click, toldDisplay "CheckboxView"]
    let m := ((withDefaults (.withCells 1) 3).run (operations past)).1.run (operations recent) |>.1
    ∃ si sj, m.views.get? ⟨1⟩ = some si ∧ m.views.get? ⟨2⟩ = some sj ∧ si.view.kind = .checkbox ∧
      si.view.element = sj.view.element := by
  intro past recent m
  have hlive (id : ViewId) (hid : id = ⟨1⟩ ∨ id = ⟨2⟩) :
      (m.views.get? id).map (fun slot => (slot.view.kind, slot.view.model)) = some (.checkbox, ⟨"c"⟩) := by
    rcases hid with rfl | rfl <;> decide +kernel
  obtain ⟨si, hi, hsi⟩ := Option.map_eq_some_iff.mp (hlive ⟨1⟩ (.inl rfl))
  obtain ⟨sj, hj, hsj⟩ := Option.map_eq_some_iff.mp (hlive ⟨2⟩ (.inr rfl))
  obtain ⟨hki, hmi⟩ := Prod.mk.inj hsi
  obtain ⟨hkj, hmj⟩ := Prod.mk.inj hsj
  let css : Css := .ofList [("input", .ofList [("color", .ofString "red")])]
  -- The styles are the same all along, and nothing is said of visibility.
  have hstates : ∀ n < 4, ((((withDefaults (.withCells 1) 3).run (operations past)).1.run
      (operations (recent.take n))).1.models.get? ⟨"c"⟩).map
      (fun model => (model.css, model.attributes.getBool? "visible")) = some (css, none) := by decide +kernel
  have hall : recent.take 3 = recent := rfl
  obtain ⟨model, hmodel, hstate⟩ := Option.map_eq_some_iff.mp (hstates 3 (by decide))
  obtain ⟨hcss, -⟩ := Prod.mk.inj hstate
  rw [hall, ← hmi] at hmodel
  have hkept :
      ((withDefaults (.withCells 1) 3).run (operations past)).1.WithdrewNothing recent si.view.model model := by
    intro first rest he earlier hearlier
    have hfirst : first = recent.take first.length := by rw [he, List.take_left]
    have hlength : first.length < 4 := by
      have hsum := congrArg List.length he
      rw [List.length_append] at hsum
      exact Nat.lt_succ_of_le (Nat.le.intro hsum.symm)
    have hsame := hstates first.length hlength
    rw [← hfirst, ← hmi, hearlier] at hsame
    obtain ⟨hsame, hnone⟩ := Prod.mk.inj (Option.some.inj hsame)
    refine ⟨fun selector property hsets => ?_, fun _ => hnone⟩
    rw [hcss]
    exact hsame ▸ hsets
  have hnew (id : ViewId) : ((withDefaults (.withCells 1) 3).run (operations past)).1.views.get? id = none := by
    have hnone : ((withDefaults (.withCells 1) 3).run (operations past)).1.views = ∅ := by decide +kernel
    rw [hnone]
    rfl
  have halike := views_of_a_model_look_alike (.withCells 1) 3 past recent ⟨1⟩ ⟨2⟩ si sj model hi hj
    (hki.trans hkj.symm) (hmi.trans hmj.symm) hmodel
  have hplain : si.view.kind = .toggleButton → ∀ property, ¬model.css.MarksActive property :=
    fun hk => nomatch hki.symm.trans hk
  exact ⟨si, sj, hi, hj, hki, halike.2.2.2.2 (hnew ⟨1⟩) (hnew ⟨2⟩) hkept hplain⟩

/-- Two views of one kind on one model whose own markup differs. -/
def TellsApart (m : Manager) (i j : ViewId) : Prop :=
  ∃ si, m.views.get? i = some si ∧ ∃ sj, m.views.get? j = some sj ∧ si.view.kind = sj.view.kind ∧
    si.view.model = sj.view.model ∧ si.view.element.htmlWith "" ≠ sj.view.element.htmlWith ""

/-- Of two checkboxes the first stays hidden when the model does not say any longer that it should be, or stays red when
the model is not red any longer, which a second one is not that is displayed then. And of two toggle buttons the one
that is clicked does not get the color of active buttons. -/
theorem views_told_apart :
    let opened : SessionEvent := .commOpen ⟨⟨"c"⟩, "BoolWidgetModel"⟩
    let after (events : List SessionEvent) := ((withDefaults (.withCells 1) 3).run (operations (opened :: events))).1
    (after [toldDisplay "CheckboxView", toldState [("visible", .bool false)], toldState [("visible", .null)],
      toldDisplay "CheckboxView"]).TellsApart ⟨1⟩ ⟨2⟩ ∧
    (after [toldDisplay "CheckboxView", toldState [("_css", .obj [("input", .obj [("color", .str "red")])])],
      toldState [("_css", .obj [])], toldDisplay "CheckboxView"]).TellsApart ⟨1⟩ ⟨2⟩ ∧
    (after [toldDisplay "ToggleButtonView", toldDisplay "ToggleButtonView",
      toldState [("_css", .obj [(".active", .obj [("color", .str "red")])])], .ui ⟨1⟩ .click]).TellsApart ⟨1⟩ ⟨2⟩ := by
  unfold TellsApart
  decide +kernel

end Manager

end WidgetSync
