import WidgetSync.Proofs.Model.Registration
import WidgetSync.Proofs.Arena.Pruning
import Mathlib.Data.List.Induction

/-! Views leave their models, one after the other. A model is dropped, and its comm closed, at the moment its
last view leaves; every other model only forgets the views that left. -/
namespace WidgetSync

/-- The comm of a live view. -/
def Arena.owner (views : Arena) (id : ViewId) : Option CommId := (views.get? id).map (·.view.model)

namespace Models

/-- A view leaves its model. -/
def depart (models : Models) (comm : CommId) (id : ViewId) : Models × List Frame :=
  match models.get? comm with
  | none => (models, [])
  | some model =>
    if (model.leave id).hasViews then (models.insert comm (model.leave id), [])
    else (models.erase comm, (model.leave id).closeComm.2)

variable (owner : ViewId → Option CommId)

/-- Views leave the models that own them. -/
def departures (models : Models) : List ViewId → Models × List Frame
  | [] => (models, [])
  | id :: rest =>
    let (models, frames) := (owner id).elim (models, []) fun comm => models.depart comm id
    let (models, more) := departures models rest
    (models, frames ++ more)

/-- The close of the model that owns a view, if the views that are gone are all that it had. -/
def lastCall (models : Models) (gone : List ViewId) (id : ViewId) : List Frame :=
  match owner id with
  | none => []
  | some comm =>
    match models.get? comm with
    | none => []
    | some model => if model.views ⊆ gone then [.close comm] else []

/-- The closes that a walk brings about, each at the last view of a model. -/
def closings (models : Models) (gone : List ViewId) : List ViewId → List Frame
  | [] => []
  | id :: rest =>
    models.lastCall owner (gone ++ [id]) id ++ closings models (gone ++ [id]) rest

/-- The views on a walk that one model owns. -/
def ownOn (comm : CommId) (walk : List ViewId) : List ViewId :=
  walk.filter fun x => owner x = some comm

/-- What the models list as their views is what they own, and every comm can still be closed. -/
structure Attended (models : Models) : Prop where
  tidy : ∀ comm model, models.get? comm = some model → model.Tidy
  opened : ∀ comm model, models.get? comm = some model → model.comm = .opened comm
  owns : ∀ comm model, models.get? comm = some model → ∀ x, owner x = some comm ↔ x ∈ model.views

variable {owner}

theorem mem_ownOn {comm : CommId} {walk : List ViewId} {x : ViewId} :
    x ∈ ownOn owner comm walk ↔ x ∈ walk ∧ owner x = some comm := by
  rw [ownOn, List.mem_filter, decide_eq_true_eq]

theorem ownOn_cons_of_pos {comm : CommId} {id : ViewId} (h : owner id = some comm)
    (walk : List ViewId) : ownOn owner comm (id :: walk) = id :: ownOn owner comm walk := by
  simp [ownOn, h]

theorem ownOn_cons_of_neg {comm : CommId} {id : ViewId} (h : owner id ≠ some comm)
    (walk : List ViewId) : ownOn owner comm (id :: walk) = ownOn owner comm walk := by
  simp [ownOn, h]

theorem departures_cons (models : Models) (id : ViewId) (rest : List ViewId) :
    departures owner models (id :: rest) =
      let first := (owner id).elim (models, []) fun comm => models.depart comm id
      ((departures owner first.1 rest).1, first.2 ++ (departures owner first.1 rest).2) := rfl

theorem departures_append (models : Models) (xs ys : List ViewId) :
    departures owner models (xs ++ ys) =
      ((departures owner (departures owner models xs).1 ys).1,
        (departures owner models xs).2 ++ (departures owner (departures owner models xs).1 ys).2) := by
  induction xs generalizing models with
  | nil => rfl
  | cons id rest ih => simp only [List.cons_append, departures_cons, ih, List.append_assoc]

theorem departures_congr {other : ViewId → Option CommId} {walk : List ViewId}
    (h : ∀ x ∈ walk, owner x = other x) (models : Models) :
    departures owner models walk = departures other models walk := by
  induction walk generalizing models with
  | nil => rfl
  | cons id rest ih =>
    have hid := h id List.mem_cons_self
    have hrest := ih fun x hx => h x (List.mem_cons_of_mem _ hx)
    simp only [departures_cons, hid, hrest]

/-- A view that is not among some makes no difference to whether those are on a walk. -/
theorem subset_iff_of_not_mem {views walk longer : List ViewId} {id : ViewId}
    (hl : ∀ x, x ∈ longer ↔ x = id ∨ x ∈ walk) (h : id ∉ views) : views ⊆ longer ↔ views ⊆ walk := by
  constructor
  · intro hsub x hx
    have hne : x ≠ id := fun he => h (he ▸ hx)
    exact ((hl x).mp (hsub hx)).resolve_left hne
  · intro hsub x hx
    exact (hl x).mpr (.inr (hsub hx))

/-! ### One model -/

variable {models : Models} {comm : CommId} {model : Model}

theorem get?_depart_of_ne {c : CommId} (h : c ≠ comm) (id : ViewId) :
    (models.depart c id).1.get? comm = models.get? comm := by
  rw [depart]
  split
  · rfl
  · split
    · rw [OrdMap.get?_insert_eq, if_neg h]
    · rw [OrdMap.get?_erase, if_neg h]

theorem depart_of_dead (h : models.get? comm = none) (id : ViewId) :
    models.depart comm id = (models, []) := by
  rw [depart, h]

theorem get?_depart_of_live (h : models.get? comm = some model) (id : ViewId) :
    (models.depart comm id).1.get? comm =
      if (model.leave id).hasViews then some (model.leave id) else none := by
  rw [depart, h]
  simp only
  split
  · rw [OrdMap.get?_insert_eq, if_pos rfl]
  · rw [OrdMap.get?_erase, if_pos rfl]

/-- A model that is dropped does not come back. -/
theorem get?_departures_of_dead (h : models.get? comm = none) (walk : List ViewId) :
    (departures owner models walk).1.get? comm = none := by
  induction walk generalizing models with
  | nil => exact h
  | cons id rest ih =>
    rw [departures_cons]
    apply ih
    cases ho : owner id with
    | none => exact h
    | some c =>
      by_cases hc : c = comm
      · subst hc
        simp only [Option.elim_some, depart_of_dead h]
        exact h
      · simp only [Option.elim_some, get?_depart_of_ne hc]
        exact h

/-- A model is gone after a walk if it had views and all of them are on it; else its views on the walk have
left it. -/
theorem get?_departures (hm : models.get? comm = some model) (ht : model.Tidy) {walk : List ViewId}
    (hn : walk.Nodup) (hown : ∀ x ∈ walk, owner x = some comm ↔ x ∈ model.views) :
    (departures owner models walk).1.get? comm =
      if model.views ≠ [] ∧ model.views ⊆ walk then none
      else some (model.leaveAll (ownOn owner comm walk)) := by
  -- The model changes on the way: it has lost the views of the walk so far.
  induction walk generalizing models model with
  | nil =>
    have hno : ¬(model.views ≠ [] ∧ model.views ⊆ []) := fun h => h.1 (List.subset_nil.mp h.2)
    rw [if_neg hno]
    exact hm
  | cons id rest ih =>
    obtain ⟨hid, hrest⟩ := List.nodup_cons.mp hn
    have hhead := hown id List.mem_cons_self
    have htail : ∀ x ∈ rest, owner x = some comm ↔ x ∈ model.views := by
      intro x hx
      exact hown x (List.mem_cons_of_mem _ hx)
    rw [departures_cons]
    simp only
    by_cases ho : owner id = some comm
    · -- The view is the model's own: either it was the last one, or the rest of the walk decides.
      have hmem : id ∈ model.views := hhead.mp ho
      have hleft : ∀ x, x ∈ (model.leave id).views ↔ x ∈ model.views ∧ x ≠ id :=
        fun x => Model.mem_views_leave ht.views_nodup
      have hget := get?_depart_of_live hm id
      rw [ho, Option.elim_some, ownOn_cons_of_pos ho]
      by_cases hv : (model.leave id).hasViews = true
      · rw [if_pos hv] at hget
        have hstep := ih hget (ht.leave id) hrest fun x hx => by
          have hne : x ≠ id := fun he => hid (he ▸ hx)
          rw [htail x hx, hleft]
          exact ⟨fun h => ⟨h, hne⟩, fun h => h.1⟩
        have hiff : ((model.leave id).views ≠ [] ∧ (model.leave id).views ⊆ rest) ↔
            (model.views ≠ [] ∧ model.views ⊆ id :: rest) := by
          constructor
          · rintro ⟨_, hsub⟩
            refine ⟨List.ne_nil_of_mem hmem, fun x hx => ?_⟩
            by_cases he : x = id
            · exact he ▸ List.mem_cons_self
            · exact List.mem_cons_of_mem _ (hsub ((hleft x).mpr ⟨hx, he⟩))
          · rintro ⟨_, hsub⟩
            refine ⟨(ht.leave id).hasViews_iff.mp hv, fun x hx => ?_⟩
            obtain ⟨hx, hne⟩ := (hleft x).mp hx
            exact (List.mem_cons.mp (hsub hx)).resolve_left hne
        simp only [hiff] at hstep
        exact hstep
      · -- No view is left, so that the model goes now and does not come back.
        rw [if_neg hv] at hget
        have hnil : (model.leave id).views = [] := Model.hasViews_eq_false (by simpa using hv)
        have hgone : model.views ≠ [] ∧ model.views ⊆ id :: rest := by
          refine ⟨List.ne_nil_of_mem hmem, fun x hx => ?_⟩
          by_contra hxn
          have hne : x ≠ id := fun he => hxn (he ▸ List.mem_cons_self)
          have hin : x ∈ (model.leave id).views := (hleft x).mpr ⟨hx, hne⟩
          rw [hnil] at hin
          exact absurd hin List.not_mem_nil
        rw [if_pos hgone]
        exact get?_departures_of_dead hget rest
    · -- Somebody else's view.
      have hmem : id ∉ model.views := fun h => ho (hhead.mpr h)
      have hsame : ((owner id).elim (models, []) fun comm => models.depart comm id).1.get? comm =
          some model := by
        cases hoid : owner id with
        | none => exact hm
        | some c =>
          have hne : c ≠ comm := fun he => ho (he ▸ hoid)
          exact (get?_depart_of_ne hne id).trans hm
      have hiff : model.views ⊆ id :: rest ↔ model.views ⊆ rest :=
        subset_iff_of_not_mem (fun x => List.mem_cons) hmem
      rw [ih hsame ht hrest htail, ownOn_cons_of_neg ho]
      simp only [hiff]

/-! ### The closes -/

theorem closings_append (models : Models) (gone xs ys : List ViewId) :
    closings owner models gone (xs ++ ys) =
      closings owner models gone xs ++ closings owner models (gone ++ xs) ys := by
  induction xs generalizing gone with
  | nil => simp [closings]
  | cons id rest ih =>
    have hrest := ih (gone ++ [id])
    simp only [List.cons_append, closings, hrest, List.append_assoc, List.nil_append]

theorem depart_frames (h : models.get? comm = some model) (id : ViewId) :
    (models.depart comm id).2 =
      if (model.leave id).hasViews then [] else (model.leave id).closeComm.2 := by
  rw [depart, h]
  simp only
  split <;> rfl

theorem lastCall_of_live {id : ViewId} (ho : owner id = some comm) (hm : models.get? comm = some model)
    (gone : List ViewId) :
    models.lastCall owner gone id = if model.views ⊆ gone then [.close comm] else [] := by
  simp only [lastCall, ho, hm]

/-- The view after those that are gone closes its comm if it is the last of its model. -/
theorem departures_last (ha : Attended owner models) {gone : List ViewId} {id : ViewId}
    (hgone : gone.Nodup) (hid : id ∉ gone) :
    (departures owner (departures owner models gone).1 [id]).2 =
      models.lastCall owner (gone ++ [id]) id := by
  simp only [departures, List.append_nil]
  cases ho : owner id with
  | none => simp [lastCall, ho]
  | some comm =>
    rw [Option.elim_some]
    cases hm : models.get? comm with
    | none =>
      rw [depart_of_dead (get?_departures_of_dead hm gone)]
      simp [lastCall, ho, hm]
    | some model =>
      -- Until now the model has lost its views among those that are gone, and not this one.
      have ht := ha.tidy comm model hm
      have howns := ha.owns comm model hm
      have hmem : id ∈ model.views := (howns id).mp ho
      have hkept := get?_departures hm ht hgone fun x _ => howns x
      rw [if_neg fun h => hid (h.2 hmem)] at hkept
      have hleft := ht.leaveAll (ownOn owner comm gone)
      have hviews : ((model.leaveAll (ownOn owner comm gone)).leave id).hasViews = true ↔
          ¬model.views ⊆ gone ++ [id] := by
        rw [(hleft.leave id).hasViews_iff, ne_eq, not_iff_not, List.eq_nil_iff_forall_not_mem]
        simp only [Model.mem_views_leave hleft.views_nodup, Model.mem_views_leaveAll ht, mem_ownOn]
        constructor
        · intro hno x hx
          by_contra hxn
          rw [List.mem_append, List.mem_singleton, not_or] at hxn
          exact hno x ⟨⟨hx, fun h => hxn.1 h.1⟩, hxn.2⟩
        · rintro hsub x ⟨⟨hx, hxn⟩, hne⟩
          rcases List.mem_append.mp (hsub hx) with hg | hg
          · exact hxn ⟨hg, (howns x).mpr hx⟩
          · exact hne (List.mem_singleton.mp hg)
      have hcomm : ((model.leaveAll (ownOn owner comm gone)).leave id).comm = .opened comm := by
        rw [(Model.leave_keeps _ id).2.1, (model.leaveAll_keeps _).2.1]
        exact ha.opened comm model hm
      rw [depart_frames hkept, lastCall_of_live ho hm]
      by_cases hsub : model.views ⊆ gone ++ [id]
      · rw [if_neg fun h => hviews.mp h hsub, if_pos hsub, Model.closeComm, hcomm]
        rfl
      · rw [if_pos (hviews.mpr hsub), if_neg hsub]

/-- A walk closes exactly the comms of the models whose views it exhausts, each at the last of them. -/
theorem departures_frames (ha : Attended owner models) {walk : List ViewId} (hn : walk.Nodup) :
    (departures owner models walk).2 = closings owner models [] walk := by
  induction walk using List.reverseRecOn with
  | nil => rfl
  | append_singleton gone id ih =>
    obtain ⟨hgone, _, hid⟩ := List.nodup_append.mp hn
    have hlast := departures_last ha hgone fun h => hid id h id (List.mem_singleton_self id) rfl
    rw [departures_append, closings_append, hlast, ih hgone]
    simp only [closings, List.nil_append, List.append_nil]

theorem mem_closings {walk gone : List ViewId} {f : Frame}
    (hf : f ∈ closings owner models gone walk) : ∃ comm, f = .close comm := by
  induction walk generalizing gone with
  | nil => exact absurd hf List.not_mem_nil
  | cons id rest ih =>
    rcases List.mem_append.mp hf with hf | hf
    · rw [lastCall] at hf
      split at hf
      · exact absurd hf List.not_mem_nil
      · next comm _ =>
        split at hf
        · exact absurd hf List.not_mem_nil
        · split at hf
          · exact ⟨comm, List.mem_singleton.mp hf⟩
          · exact absurd hf List.not_mem_nil
    · exact ih hf

theorem count_lastCall_of_ne {id : ViewId} (h : owner id ≠ some comm) (gone : List ViewId) :
    (models.lastCall owner gone id).count (.close comm) = 0 := by
  rw [lastCall]
  cases ho : owner id with
  | none => rfl
  | some c =>
    have hne : c ≠ comm := fun he => h (he ▸ ho)
    simp only
    split
    · rfl
    · split
      · simp [hne]
      · rfl

theorem closings_of_dead (h : models.get? comm = none) (walk gone : List ViewId) :
    (closings owner models gone walk).count (.close comm) = 0 := by
  induction walk generalizing gone with
  | nil => rfl
  | cons id rest ih =>
    have hlast : (models.lastCall owner (gone ++ [id]) id).count (.close comm) = 0 := by
      by_cases ho : owner id = some comm
      · simp [lastCall, ho, h]
      · exact count_lastCall_of_ne ho _
    rw [closings, List.count_append, hlast, ih]

/-- No comm is closed twice. -/
theorem count_closings (ha : Attended owner models) (hm : models.get? comm = some model)
    {walk : List ViewId} (hn : walk.Nodup) :
    (closings owner models [] walk).count (.close comm) =
      if model.views ≠ [] ∧ model.views ⊆ walk then 1 else 0 := by
  have howns := ha.owns comm model hm
  induction walk using List.reverseRecOn with
  | nil => rw [if_neg fun h => h.1 (List.subset_nil.mp h.2)]; rfl
  | append_singleton gone id ih =>
    obtain ⟨hgone, _, hsep⟩ := List.nodup_append.mp hn
    have hid : id ∉ gone := fun h => hsep id h id (List.mem_singleton_self id) rfl
    rw [closings_append, List.count_append, ih hgone]
    simp only [closings, List.append_nil, List.nil_append]
    by_cases ho : owner id = some comm
    · -- Before its own view goes the model is not exhausted.
      have hmem : id ∈ model.views := (howns id).mp ho
      have hne : model.views ≠ [] := List.ne_nil_of_mem hmem
      rw [if_neg fun h => hid (h.2 hmem), lastCall_of_live ho hm]
      by_cases hsub : model.views ⊆ gone ++ [id]
      · rw [if_pos hsub, if_pos ⟨hne, hsub⟩]
        simp
      · rw [if_neg hsub, if_neg fun h => hsub h.2]
        rfl
    · have hmem : id ∉ model.views := fun h => ho ((howns id).mpr h)
      have hiff : model.views ⊆ gone ++ [id] ↔ model.views ⊆ gone := by
        refine subset_iff_of_not_mem (fun x => ?_) hmem
        rw [List.mem_append, List.mem_singleton, or_comm]
      rw [count_lastCall_of_ne ho]
      simp only [hiff, Nat.add_zero]

end Models

end WidgetSync
