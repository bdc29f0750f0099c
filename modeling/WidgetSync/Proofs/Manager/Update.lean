import WidgetSync.Proofs.Model.Freshness
import WidgetSync.Proofs.Manager.Effect

/-! Updates from the backend. The members of a state are taken one by one, the style overrides among them wherever
their key sorts, and a fault in these is told only after all else is in. Then the model's views are drawn anew, with
or without a fault, and nothing is sent. -/
namespace WidgetSync

namespace Css

/-- Overrides stand for a value that is an object of objects, with the same properties under the same selectors. -/
def Denotes (v : Value) (css : Css) : Prop :=
  ∃ members, v.asObject? = some members ∧
    ∀ selector, (members.get? selector).map Value.asObject? = (css.get? selector).map some

theorem Denotes.unique {v : Value} {css css' : Css} (h : Denotes v css) (h' : Denotes v css') : css = css' := by
  obtain ⟨members, hv, hcss⟩ := h
  obtain ⟨members', hv', hcss'⟩ := h'
  obtain rfl : members = members' := Option.some.inj (hv.symm.trans hv')
  refine OrdMap.ext fun selector => ?_
  have hsame : (css.get? selector).map some = (css'.get? selector).map some :=
    (hcss selector).symm.trans (hcss' selector)
  exact Option.map_injective (fun _ _ => Option.some.inj) hsame

/-- What is found is found under the selectors of the entries, and no entry is passed over. -/
theorem propertiesOf_ok {entries : List (String × Value)} {found : List (String × OrdMap String Value)}
    (h : propertiesOf entries = .ok found) :
    found.map Prod.fst = entries.map Prod.fst ∧ ∀ selector,
      (Entries.find? selector entries).map Value.asObject? = (Entries.find? selector found).map some := by
  induction entries generalizing found with
  | nil =>
    obtain rfl : [] = found := Except.ok.inj h
    exact ⟨rfl, fun _ => rfl⟩
  | cons entry rest ih =>
    obtain ⟨key, v⟩ := entry
    simp only [propertiesOf] at h
    split at h
    · contradiction
    · next properties hv =>
      cases hrest : propertiesOf rest with
      | error culprit =>
        rw [hrest] at h
        contradiction
      | ok others =>
        rw [hrest] at h
        obtain rfl : (key, properties) :: others = found := Except.ok.inj h
        obtain ⟨hkeys, hfind⟩ := ih hrest
        refine ⟨by rw [List.map_cons, List.map_cons, hkeys], fun selector => ?_⟩
        simp only [Entries.find?]
        split
        · rw [Option.map_some, Option.map_some, hv]
        · exact hfind selector

theorem propertiesOf_error {entries : List (String × Value)} {culprit : Value}
    (h : propertiesOf entries = .error culprit) : ∃ selector, (selector, culprit) ∈ entries ∧
      culprit.asObject? = none := by
  induction entries with
  | nil => contradiction
  | cons entry rest ih =>
    obtain ⟨key, v⟩ := entry
    simp only [propertiesOf] at h
    split at h
    · next hv =>
      obtain rfl : v = culprit := Except.error.inj h
      exact ⟨key, List.mem_cons_self, hv⟩
    · cases hrest : propertiesOf rest with
      | error other =>
        rw [hrest] at h
        obtain rfl : other = culprit := Except.error.inj h
        obtain ⟨selector, hmem, hnone⟩ := ih hrest
        exact ⟨selector, List.mem_cons_of_mem _ hmem, hnone⟩
      | ok others =>
        rw [hrest] at h
        contradiction

theorem denotes_of_ok {v : Value} {css : Css} (h : ofValue v = .ok css) : Denotes v css := by
  simp only [ofValue] at h
  split at h
  · contradiction
  · next members hv =>
    split at h
    · contradiction
    · next found hfound =>
      obtain rfl : OrdMap.ofList found = css := Except.ok.inj h
      obtain ⟨hkeys, hfind⟩ := propertiesOf_ok hfound
      have hascending : found.Pairwise fun p q => compare p.1 q.1 = .lt := by
        have hmembers : (members.entries.map Prod.fst).Pairwise fun k l => compare k l = .lt :=
          List.pairwise_map.mpr members.ascending
        rw [← hkeys] at hmembers
        exact List.pairwise_map.mp hmembers
      refine ⟨members, hv, fun selector => ?_⟩
      rw [OrdMap.ofList, OrdMap.foldl_insert_get? found OrdMap.empty selector hascending, OrdMap.get?_empty,
        Option.orElse_eq_orElse, Option.orElse_eq_or, Option.or_none]
      exact hfind selector

/-- A fault names the value, and then the value stands for no overrides. -/
theorem not_denotes_of_error {v : Value} {e : StateError} (h : ofValue v = .error e) :
    (∃ culprit, e = .malformedCss v culprit) ∧ ∀ css, ¬Denotes v css := by
  simp only [ofValue] at h
  split at h
  · next hv =>
    refine ⟨⟨v, (Except.error.inj h).symm⟩, fun css hd => ?_⟩
    obtain ⟨members, hmembers, _⟩ := hd
    exact absurd (hv.symm.trans hmembers) nofun
  · next members hv =>
    split at h
    · next culprit hculprit =>
      refine ⟨⟨culprit, (Except.error.inj h).symm⟩, fun css hd => ?_⟩
      obtain ⟨members', hmembers, hcss⟩ := hd
      obtain rfl : members = members' := Option.some.inj (hv.symm.trans hmembers)
      obtain ⟨selector, hmem, hnone⟩ := propertiesOf_error hculprit
      have hget : members.get? selector = some culprit := OrdMap.get?_eq_some_iff.mpr hmem
      have hsame := hcss selector
      rw [hget, Option.map_some, hnone] at hsame
      cases hs : css.get? selector <;> simp [hs] at hsame
    · contradiction

end Css

namespace Model

/-- One member of a state that is merged. Styles replace the old ones or are at fault, and all else is an attribute. -/
def takeMember (merged : Model × Except StateError Unit) (member : String × Value) :
    Model × Except StateError Unit :=
  if member.1 = cssKey then
    match Css.ofValue member.2 with
    | .ok css => ({ merged.1 with css }, .ok ())
    | .error e => (merged.1, .error e)
  else ({ merged.1 with attributes := merged.1.attributes.insert member.1 member.2 }, merged.2)

/-- Where the styles are not among the members, only attributes change. -/
theorem takeMembers_of_plain (m : Model) (told : Except StateError Unit) {members : List (String × Value)}
    (h : ∀ member ∈ members, member.1 ≠ cssKey) :
    members.foldl takeMember (m, told) =
      ({ m with attributes := members.foldl (fun acc p => acc.insert p.1 p.2) m.attributes }, told) := by
  induction members generalizing m with
  | nil => rfl
  | cons member rest ih =>
    have hne : member.1 ≠ cssKey := h member List.mem_cons_self
    rw [List.foldl_cons, List.foldl_cons, takeMember, if_neg hne]
    exact ih _ fun other ho => h other (List.mem_cons_of_mem _ ho)

/-- To take the members one by one, in the order of their keys, is to merge the state. -/
theorem mergeRemote_eq_foldl (m : Model) (state : Attributes) :
    m.mergeRemote state = state.entries.foldl takeMember (m, .ok ()) := by
  have hdistinct : state.entries.Pairwise fun p q => p.1 ≠ q.1 :=
    state.ascending.imp fun hlt => OrdMap.ne_of_compare_lt hlt
  have hkeep (p : String × Value) : (compare cssKey p.1 != .eq) = true ↔ p.1 ≠ cssKey := by
    rw [bne_iff_ne, ne_eq, Std.LawfulEqOrd.compare_eq_iff_eq, eq_comm]
  have hplain (entries : List (String × Value)) (h : ∀ p ∈ entries, p.1 ≠ cssKey) :
      entries.filter (fun p => compare cssKey p.1 != .eq) = entries :=
    List.filter_eq_self.mpr fun p hp => (hkeep p).mpr (h p hp)
  have herase : (state.erase cssKey).entries = state.entries.filter fun p => compare cssKey p.1 != .eq := rfl
  simp only [mergeRemote, OrdMap.merge, herase]
  cases hcss : state.get? cssKey with
  | none =>
    have hno : ∀ p ∈ state.entries, p.1 ≠ cssKey := by
      intro p hp he
      have hget : state.get? p.1 = some p.2 := OrdMap.get?_eq_some_iff.mpr hp
      rw [he, hcss] at hget
      contradiction
    rw [takeMembers_of_plain m _ hno, hplain _ hno]
    rfl
  | some v =>
    -- The styles stand between the members that sort before them and those that sort after.
    obtain ⟨before, after, hsplit⟩ := List.append_of_mem (OrdMap.get?_eq_some_iff.mp hcss)
    rw [hsplit] at hdistinct ⊢
    obtain ⟨_, hright, hacross⟩ := List.pairwise_append.mp hdistinct
    have hbefore : ∀ p ∈ before, p.1 ≠ cssKey := fun p hp => hacross p hp _ List.mem_cons_self
    have hafter : ∀ p ∈ after, p.1 ≠ cssKey := fun p hp =>
      ((List.pairwise_cons.mp hright).1 p hp).symm
    have hself : (compare cssKey cssKey != .eq) = false := by simp
    have hfilter : (before ++ (cssKey, v) :: after).filter (fun p => compare cssKey p.1 != .eq) =
        before ++ after := by
      rw [List.filter_append, hplain before hbefore, List.filter_cons, hself, hplain after hafter]
      rfl
    rw [hfilter, List.foldl_append, List.foldl_append, List.foldl_cons, takeMembers_of_plain m _ hbefore,
      takeMember, if_pos rfl, Option.map_some]
    cases hread : Css.ofValue v with
    | ok css =>
      simp only
      rw [takeMembers_of_plain _ _ hafter]
    | error e =>
      simp only
      rw [takeMembers_of_plain _ _ hafter]

/-- An update touches attributes and styles alone, and at its end it is over. -/
theorem applyRemote_eq (m : Model) (state : Attributes) :
    (m.applyRemote state).1 =
      { m with
        attributes := (m.applyRemote state).1.attributes
        css := (m.applyRemote state).1.css
        updating := false } := by
  simp only [applyRemote, mergeRemote]
  split <;> rfl

/-- What becomes of the styles, and what is answered: overrides that can be read replace the old ones, and all else
under the key is a fault that leaves these as they were. -/
theorem applyRemote_styles (m : Model) (state : Attributes) :
    (state.get? cssKey = none ∧ (m.applyRemote state).1.css = m.css ∧ (m.applyRemote state).2 = .ok ()) ∨
    (∃ v css, state.get? cssKey = some v ∧ Css.Denotes v css ∧
      (m.applyRemote state).1.css = css ∧ (m.applyRemote state).2 = .ok ()) ∨
    ∃ v culprit, state.get? cssKey = some v ∧ (∀ css, ¬Css.Denotes v css) ∧
      (m.applyRemote state).1.css = m.css ∧ (m.applyRemote state).2 = .error (.malformedCss v culprit) := by
  cases h : state.get? cssKey with
  | none =>
    left
    simp only [applyRemote, mergeRemote, h, Option.map_none, and_self]
  | some v =>
    right
    cases hread : Css.ofValue v with
    | ok css =>
      left
      refine ⟨v, css, rfl, Css.denotes_of_ok hread, ?_, ?_⟩ <;>
        simp only [applyRemote, mergeRemote, h, Option.map_some, hread]
    | error e =>
      right
      obtain ⟨⟨culprit, rfl⟩, hnot⟩ := Css.not_denotes_of_error hread
      refine ⟨v, culprit, rfl, hnot, ?_, ?_⟩ <;>
        simp only [applyRemote, mergeRemote, h, Option.map_some, hread]

end Model

namespace Manager

variable {m : Manager} {comm : CommId} {model : Model}

theorem step_update (hm : m.models.get? comm = some model) (state : Attributes) :
    (m.step (.update comm state)).reply =
      ((model.applyRemote state).2.mapError ManagerError.badState).map fun _ => .done := by
  simp only [step, Outcome.silent, update, hm]

/-- The views of the comm are drawn from the model that the update leaves, and all else is as before. -/
theorem Consistent.update_eq (h : m.Consistent) (hm : m.models.get? comm = some model) (state : Attributes) :
    (m.step (.update comm state)).manager =
      m.undergo comm ⟨(model.applyRemote state).1, fun _ v => v.refresh (model.applyRemote state).1⟩ := by
  have hask : (model.ask (.remote state)).1 = (model.applyRemote state).1 := by rw [Model.ask_remote]
  rw [(h.update_affects hm state).manager]
  refine undergo_congr hask fun id slot _ _ => ?_
  show slot.view.refresh (model.ask (.remote state)).1 = slot.view.refresh (model.applyRemote state).1
  rw [hask]

/-- In every state that operations reach from a new manager: an update of a live comm sends nothing. Its attributes
are overwritten by the state but for the style key, its styles by the overrides under that key if they are in order,
and a fault in these is the answer and stops nothing else. The comm's views, and no others, are drawn from what the
update leaves. -/
theorem update_applied_in_full (notebook : Notebook) (throttle : Nat) (ops : List Operation) (comm : CommId)
    (state : Attributes) :
    let m := ((new notebook throttle).run ops).1
    let outcome := m.step (.update comm state)
    ∀ model, m.models.get? comm = some model →
      let taken := state.entries.foldl Model.takeMember ({ model with updating := true }, .ok ())
      outcome.frames = [] ∧ ∃ merged, outcome.manager.models.get? comm = some merged ∧
      (∀ key, merged.attributes.get? key =
        if key = cssKey then model.attributes.get? key else (state.get? key <|> model.attributes.get? key)) ∧
      (∀ v css, state.get? cssKey = some v → Css.Denotes v css → merged.css = css) ∧
      ((∀ v css, state.get? cssKey = some v → ¬Css.Denotes v css) → merged.css = model.css) ∧
      ((∃ e, outcome.reply = .error e) ↔ ∃ v, state.get? cssKey = some v ∧ ∀ css, ¬Css.Denotes v css) ∧
      -- The members are taken one by one in the order of their keys, which is where the fault may arise.
      merged = { taken.1 with updating := false } ∧
      outcome.reply = (taken.2.mapError ManagerError.badState).map (fun _ => .done) ∧
      -- All else of the model, of the other models and views, and of the document is as before.
      merged = { model with attributes := merged.attributes, css := merged.css, updating := false } ∧
      (∀ id, outcome.manager.views.get? id = (m.views.get? id).map fun slot =>
        if slot.view.model = comm then { slot with view := slot.view.refresh merged } else slot) ∧
      (∀ other, other ≠ comm → outcome.manager.models.get? other = m.models.get? other) ∧
      outcome.manager = { m with models := outcome.manager.models, views := outcome.manager.views } := by
  intro m outcome model hm taken
  have h : m.Consistent := (new_consistent notebook throttle).run ops
  have heq : outcome.manager =
      m.undergo comm ⟨(model.applyRemote state).1, fun _ v => v.refresh (model.applyRemote state).1⟩ :=
    h.update_eq hm state
  have hreply : outcome.reply = ((model.applyRemote state).2.mapError ManagerError.badState).map fun _ => .done :=
    step_update hm state
  have hself : outcome.manager.models.get? comm = some (model.applyRemote state).1 := by
    rw [heq]
    show (m.models.insert comm (model.applyRemote state).1).get? comm = _
    rw [OrdMap.get?_insert_eq, if_pos rfl]
  have htaken : (model.applyRemote state).1 = { taken.1 with updating := false } ∧
      (model.applyRemote state).2 = taken.2 := by
    rw [Model.applyRemote, Model.mergeRemote_eq_foldl]
    exact ⟨rfl, rfl⟩
  refine ⟨rfl, (model.applyRemote state).1, hself, fun key => ?_, fun v css hv hcss => ?_, fun hno => ?_, ?_,
    htaken.1, ?_, model.applyRemote_eq state, fun id => ?_, fun other ho => ?_, ?_⟩
  · rw [Model.applyRemote_attributes, OrdMap.get?_merge, OrdMap.get?_erase]
    by_cases hk : cssKey = key
    · rw [if_pos hk, if_pos hk.symm]
      rfl
    · rw [if_neg hk, if_neg (Ne.symm hk)]
  · rcases model.applyRemote_styles state with ⟨hnone, _⟩ | ⟨v', css', hv', hcss', he, _⟩ | ⟨v', _, hv', hnot, _⟩
    · rw [hnone] at hv
      contradiction
    · obtain rfl : v' = v := Option.some.inj (hv'.symm.trans hv)
      exact he.trans (hcss'.unique hcss)
    · obtain rfl : v' = v := Option.some.inj (hv'.symm.trans hv)
      exact absurd hcss (hnot css)
  · rcases model.applyRemote_styles state with ⟨_, he, _⟩ | ⟨v, css, hv, hcss, _⟩ | ⟨_, _, _, _, he, _⟩
    · exact he
    · exact absurd hcss (hno v css hv)
    · exact he
  · rw [hreply]
    rcases model.applyRemote_styles state with
      ⟨hnone, _, hr⟩ | ⟨v, css, hv, hcss, _, hr⟩ | ⟨v, culprit, hv, hnot, _, hr⟩ <;> rw [hr]
    · constructor
      · rintro ⟨e, he⟩
        contradiction
      · rintro ⟨v, hv, _⟩
        rw [hnone] at hv
        contradiction
    · constructor
      · rintro ⟨e, he⟩
        contradiction
      · rintro ⟨v', hv', hnot⟩
        obtain rfl : v' = v := Option.some.inj (hv'.symm.trans hv)
        exact absurd hcss (hnot css)
    · exact ⟨fun _ => ⟨v, hv, hnot⟩, fun _ => ⟨_, rfl⟩⟩
  · rw [hreply, htaken.2]
  · rw [heq]
    exact get?_undergo_views m comm _ id
  · rw [heq]
    show (m.models.insert comm (model.applyRemote state).1).get? other = _
    rw [OrdMap.get?_insert_eq, if_neg (Ne.symm ho)]
  · rw [heq]
    rfl

/-- A checkbox takes the new value even with styles that are none, and the fault is told. -/
theorem checkbox_updated_despite_fault :
    let m := ((new (.withCells 1) 1).run [.registerDefaults, .openComm ⟨⟨"c"⟩, "BoolWidgetModel"⟩,
      .display ⟨"c"⟩ "CheckboxView" none (.cell 0)]).1
    let state : Attributes := .ofList [("_css", .ofBool true), ("value", .ofBool true)]
    let outcome := m.step (.update ⟨"c"⟩ state)
    ∃ model merged, m.models.get? ⟨"c"⟩ = some model ∧ outcome.manager.models.get? ⟨"c"⟩ = some merged ∧
      (∃ e, outcome.reply = .error e) ∧ merged.css = model.css ∧
      merged.attributes.get? "value" = some (.ofBool true) := by
  intro m state outcome
  obtain ⟨model, hm⟩ := Option.isSome_iff_exists.mp (show (m.models.get? ⟨"c"⟩).isSome = true by decide +kernel)
  have hstyles : state.get? cssKey = some (.ofBool true) := by decide +kernel
  have hnot : ∀ css, ¬Css.Denotes (.ofBool true) css := fun css ⟨_, hv, _⟩ => nomatch hv
  obtain ⟨_, merged, hmerged, hattributes, _, hcss, hfault, _⟩ := update_applied_in_full (.withCells 1) 1
    [.registerDefaults, .openComm ⟨⟨"c"⟩, "BoolWidgetModel"⟩, .display ⟨"c"⟩ "CheckboxView" none (.cell 0)]
    ⟨"c"⟩ state model hm
  refine ⟨model, merged, hm, hmerged, hfault.mpr ⟨_, hstyles, hnot⟩, hcss fun v css hv => ?_, ?_⟩
  · obtain rfl : .ofBool true = v := Option.some.inj (hstyles.symm.trans hv)
    exact hnot css
  · have hvalue : state.get? "value" = some (.ofBool true) := by decide +kernel
    rw [hattributes, if_neg (by decide), hvalue]
    rfl

end Manager

end WidgetSync
