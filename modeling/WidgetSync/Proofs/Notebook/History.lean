import WidgetSync.Proofs.Notebook.Areas

/-! What a document tells of its past. Of all that is done to it, the executions that are accepted say how many cells
there are and which request each of them answers to, and together with the selections of cells that exist they say
which cell is selected. -/
namespace WidgetSync

/-- What can be done to a widget area. -/
inductive AreaChange where
  | append (view : ViewId)
  | remove (view : ViewId)
  | reveal
  deriving DecidableEq

def AreaChange.apply : AreaChange → WidgetArea → WidgetArea
  | .append view, area => area.append view
  | .remove view, area => area.remove view
  | .reveal, area => area.reveal

/-- What can be done to a document. -/
inductive NotebookOperation where
  | execute (index : Nat) (message : String)
  | select (index : Nat)
  | changeArea (group : GroupKey) (change : AreaChange)
  | appendOutput (index : Nat) (text : String)
  deriving DecidableEq

namespace NotebookOperation

/-- The cell that is executed, and the request for it. -/
def execution? : NotebookOperation → Option (Nat × String)
  | .execute index message => some (index, message)
  | .select _ | .changeArea _ _ | .appendOutput _ _ => none

/-- The cell that is selected. -/
def target? : NotebookOperation → Option Nat
  | .execute index _ | .select index => some index
  | .changeArea _ _ | .appendOutput _ _ => none

end NotebookOperation

namespace Notebook

variable {n n' : Notebook} {index : Nat} {message : String}

/-- Executions may be rejected, and only cells that exist are selected. -/
def accepts (n : Notebook) : NotebookOperation → Bool
  | .execute index message => (n.execute index message).isOk
  | .select index => index < n.count
  | .changeArea _ _ | .appendOutput _ _ => true

def step (n : Notebook) : NotebookOperation → Notebook
  | .execute index message =>
    match n.execute index message with
    | .ok n' => n'
    | .error _ => n
  | .select index => n.select index
  | .changeArea group change => n.modifyArea group change.apply
  | .appendOutput index text => n.appendOutput index text

def run (n : Notebook) (ops : List NotebookOperation) : Notebook := ops.foldl step n

/-- What goes down in history when an operation is tried: the operation, if it is accepted. -/
def record (n : Notebook) (op : NotebookOperation) : List NotebookOperation := if n.accepts op then [op] else []

/-- The operations that are accepted, each by the document as it is by then. -/
def history (n : Notebook) : List NotebookOperation → List NotebookOperation
  | [] => []
  | op :: rest => n.record op ++ (n.step op).history rest

/-- The executions among operations. -/
def executions (ops : List NotebookOperation) : List (Nat × String) := ops.filterMap NotebookOperation.execution?

/-- The cells that operations select. -/
def targets (ops : List NotebookOperation) : List Nat := ops.filterMap NotebookOperation.target?

/-- The request that executed a cell last. -/
def lastRequest? (executions : List (Nat × String)) (index : Nat) : Option String :=
  (executions.filter (·.1 = index)).getLast?.map (·.2)

/-- The request that a cell answers to, if there is such a cell. -/
def requestAt? (n : Notebook) (index : Nat) : Option String := n.cells[index]? >>= (·.lastMessage)

/-! ### One execution -/

theorem execute_eq_error (h : n.count + maxNewCells ≤ index) (message : String) :
    n.execute index message = .error ⟨index, n.count⟩ :=
  if_pos h

theorem execute_eq_ok (h : index < n.count + maxNewCells) (message : String) :
    n.execute index message = .ok
      { n with
        cells := (n.padded (index + 1)).modify index fun c => { c with lastMessage := some message }
        selected := some index } :=
  if_neg (Nat.not_le.mpr h)

theorem lt_of_execute (h : n.execute index message = .ok n') : index < n.count + maxNewCells := by
  by_contra hle
  rw [execute_eq_error (Nat.not_lt.mp hle)] at h
  contradiction

theorem selected_execute (h : n.execute index message = .ok n') : n'.selected = some index := by
  rw [execute_eq_ok (lt_of_execute h)] at h
  obtain rfl := Except.ok.inj h
  rfl

/-- Behind the cells that there are come empty ones. -/
theorem getElem?_padded (n : Notebook) (count i : Nat) :
    (n.padded count)[i]? = n.cells[i]?.or (if i < count then some .empty else none) := by
  rw [padded, List.getElem?_append, List.getElem?_replicate]
  split
  · next hi => rw [List.getElem?_eq_getElem hi, Option.some_or]
  · next hi =>
    have hnew : i - n.cells.length < count - n.count ↔ i < count := by
      show _ < count - n.cells.length ↔ _
      omega
    rw [List.getElem?_eq_none (Nat.not_lt.mp hi), Option.none_or]
    simp only [hnew]

theorem getElem?_cells_execute (h : n.execute index message = .ok n') (i : Nat) :
    n'.cells[i]? = (n.cells[i]?.or (if i < index + 1 then some .empty else none)).map fun c =>
      if index = i then { c with lastMessage := some message } else c := by
  rw [execute_eq_ok (lt_of_execute h)] at h
  obtain rfl := Except.ok.inj h
  rw [← getElem?_padded]
  exact List.getElem?_modify _ _ _ _

/-- Cells that there are keep their areas and outputs. -/
theorem kept_execute (h : n.execute index message = .ok n') {i : Nat} {c : Cell} (hc : n.cells[i]? = some c) :
    ∃ c', n'.cells[i]? = some c' ∧ c'.area = c.area ∧ c'.outputs = c.outputs := by
  rw [getElem?_cells_execute h, hc, Option.some_or, Option.map_some]
  refine ⟨_, rfl, ?_⟩
  split <;> exact ⟨rfl, rfl⟩

/-- Cells that are added are empty, the one that is executed but for its request. -/
theorem added_execute (h : n.execute index message = .ok n') {i : Nat} {c : Cell} (hi : n.count ≤ i)
    (hc : n'.cells[i]? = some c) : c = .empty ∨ i = index ∧ c = { Cell.empty with lastMessage := some message } := by
  rw [getElem?_cells_execute h, List.getElem?_eq_none hi, Option.none_or] at hc
  -- A cell that was not there comes from the padding.
  obtain ⟨added, hadded, rfl⟩ := Option.map_eq_some_iff.mp hc
  obtain ⟨_, hempty⟩ := Option.ite_none_right_eq_some.mp hadded
  obtain rfl := Option.some.inj hempty
  split
  · next he => exact .inr ⟨he.symm, rfl⟩
  · exact .inl rfl

theorem requestAt?_execute (h : n.execute index message = .ok n') (i : Nat) :
    n'.requestAt? i = if index = i then some message else n.requestAt? i := by
  rw [requestAt?, getElem?_cells_execute h, requestAt?]
  cases n.cells[i]? with
  | some c =>
    show (if index = i then { c with lastMessage := some message } else c).lastMessage = _
    split <;> rfl
  | none =>
    by_cases hi : index = i
    · simp [hi]
    · by_cases hlt : i < index + 1 <;> simp [hi, hlt, Cell.empty]

/-! ### Look-ups -/

theorem requestAt?_eq_some_iff {i : Nat} : n.requestAt? i = some message ↔
    ∃ h : i < n.cells.length, n.cells[i].lastMessage = some message := by
  rw [requestAt?]
  rcases Nat.lt_or_ge i n.cells.length with hi | hi
  · simp [hi]
  · simp [Nat.not_lt.mpr hi]

/-- A cell is found by its request, and of several the first. -/
theorem cellOfMessage?_eq_some_iff {i : Nat} : n.cellOfMessage? message = some i ↔
    n.requestAt? i = some message ∧ ∀ j < i, n.requestAt? j ≠ some message := by
  simp only [cellOfMessage?, List.findIdx?_eq_some_iff_getElem, ne_eq, requestAt?_eq_some_iff, decide_eq_true_eq,
    not_exists]
  constructor
  · rintro ⟨hi, hfound, hbefore⟩
    exact ⟨⟨hi, hfound⟩, fun j hj _ => hbefore j hj⟩
  · rintro ⟨⟨hi, hfound⟩, hbefore⟩
    exact ⟨hi, hfound, fun j hj => hbefore j hj (Nat.lt_trans hj hi)⟩

theorem cellOfMessage?_eq_none_iff : n.cellOfMessage? message = none ↔ ∀ i, n.requestAt? i ≠ some message := by
  simp only [cellOfMessage?, List.findIdx?_eq_none_iff, ne_eq, requestAt?_eq_some_iff, decide_eq_false_iff_not,
    not_exists]
  constructor
  · exact fun h i hi => h _ (List.getElem_mem hi)
  · intro h c hc
    obtain ⟨i, hi, rfl⟩ := List.getElem_of_mem hc
    exact h i hi

/-! ### One step -/

theorem step_of_ok (h : n.execute index message = .ok n') : n.step (.execute index message) = n' := by rw [step, h]

theorem step_of_error {e : CellOutOfRange} (h : n.execute index message = .error e) :
    n.step (.execute index message) = n := by rw [step, h]

theorem record_of_ok (h : n.execute index message = .ok n') :
    n.record (.execute index message) = [.execute index message] := by
  rw [record, accepts, h]
  rfl

theorem record_of_error {e : CellOutOfRange} (h : n.execute index message = .error e) :
    n.record (.execute index message) = [] := by
  rw [record, accepts, h]
  rfl

theorem record_select (n : Notebook) (index : Nat) :
    n.record (.select index) = if index < n.count then [.select index] else [] := by
  simp [record, accepts]

theorem select_of_lt (h : index < n.count) : n.select index = { n with selected := some index } := if_pos h

theorem select_of_le (h : n.count ≤ index) : n.select index = n := if_neg (Nat.not_lt.mpr h)

/-- What comes of an operation, by what goes down in history and what the document is then. -/
inductive Tried (n : Notebook) : NotebookOperation → List NotebookOperation → Notebook → Prop
  | rejected {op : NotebookOperation} : Tried n op [] n
  | executed {index : Nat} {message : String} {n' : Notebook} (h : n.execute index message = .ok n') :
      Tried n (.execute index message) [.execute index message] n'
  | selected {index : Nat} (h : index < n.count) :
      Tried n (.select index) [.select index] { n with selected := some index }
  | changedArea {group : GroupKey} {change : AreaChange} :
      Tried n (.changeArea group change) [.changeArea group change] (n.modifyArea group change.apply)
  | appendedOutput {index : Nat} {text : String} :
      Tried n (.appendOutput index text) [.appendOutput index text] (n.appendOutput index text)

theorem tried (n : Notebook) (op : NotebookOperation) : n.Tried op (n.record op) (n.step op) := by
  cases op with
  | execute index message =>
    cases hx : n.execute index message with
    | error e =>
      rw [step_of_error hx, record_of_error hx]
      exact .rejected
    | ok n' =>
      rw [step_of_ok hx, record_of_ok hx]
      exact .executed hx
  | select index =>
    rw [step, record_select]
    rcases Nat.lt_or_ge index n.count with hi | hi
    · rw [select_of_lt hi, if_pos hi]
      exact .selected hi
    · rw [select_of_le hi, if_neg (Nat.not_lt.mpr hi)]
      exact .rejected
  | changeArea group change => exact .changedArea
  | appendOutput index text => exact .appendedOutput

theorem getElem?_cells_appendOutput (n : Notebook) (index : Nat) (text : String) (i : Nat) :
    (n.appendOutput index text).cells[i]? = n.cells[i]?.map fun c => if index = i then c.appendOutput text else c :=
  List.getElem?_modify _ _ _ _

theorem count_appendOutput (n : Notebook) (index : Nat) (text : String) :
    (n.appendOutput index text).count = n.count :=
  List.length_modify _ _ _

/-- A change of a cell that is no execution leaves the request that it answers to. -/
theorem requestAt?_of_map {i : Nat} {f : Cell → Cell} (hf : ∀ c, (f c).lastMessage = c.lastMessage)
    (h : n'.cells[i]? = n.cells[i]?.map f) : n'.requestAt? i = n.requestAt? i := by
  rw [requestAt?, h, requestAt?]
  cases n.cells[i]? with
  | none => rfl
  | some c => exact hf c

namespace Tried

variable {op : NotebookOperation} {done : List NotebookOperation}

theorem count_eq (h : n.Tried op done n') : n'.count = ((executions done).map (·.1 + 1)).foldl max n.count := by
  cases h with
  | rejected => rfl
  | executed hx => exact count_execute hx
  | selected => rfl
  | changedArea => exact count_modifyArea _ _ _
  | appendedOutput => exact count_appendOutput _ _ _

theorem selected_eq (h : n.Tried op done n') : n'.selected = (targets done).getLast?.or n.selected := by
  cases h with
  | rejected => rfl
  | executed hx => exact selected_execute hx
  | selected => rfl
  | changedArea => exact selected_modifyArea _ _ _
  | appendedOutput => rfl

theorem requestAt?_eq (h : n.Tried op done n') (i : Nat) :
    n'.requestAt? i = (lastRequest? (executions done) i).or (n.requestAt? i) := by
  cases h with
  | rejected => rfl
  | executed hx =>
    rw [requestAt?_execute hx]
    simp only [executions, lastRequest?, List.filterMap_cons, NotebookOperation.execution?, List.filterMap_nil,
      List.filter_cons, List.filter_nil, decide_eq_true_eq]
    split <;> rfl
  | selected => rfl
  | changedArea =>
    refine requestAt?_of_map (fun c => ?_) (getElem?_cells_modifyArea _ _ _ i)
    split <;> rfl
  | appendedOutput =>
    refine requestAt?_of_map (fun c => ?_) (getElem?_cells_appendOutput _ _ _ i)
    split <;> rfl

end Tried

/-! ### All steps -/

/-- What each step makes of an observation, by what goes down in history, the whole run makes of it. -/
theorem run_of_step {β : Type} (see : Notebook → β) (effect : List NotebookOperation → β → β)
    (hnil : ∀ b, effect [] b = b)
    (happend : ∀ before after b, effect (before ++ after) b = effect after (effect before b))
    (hstep : ∀ {n op done n'}, Tried n op done n' → see n' = effect done (see n))
    (n : Notebook) (ops : List NotebookOperation) : see (n.run ops) = effect (n.history ops) (see n) := by
  induction ops generalizing n with
  | nil => exact (hnil _).symm
  | cons op rest ih =>
    -- The rest goes on from the document as the step leaves it, and so does its history.
    calc see (n.run (op :: rest)) = effect ((n.step op).history rest) (see (n.step op)) := ih (n.step op)
      _ = effect (n.history (op :: rest)) (see n) := by rw [hstep (n.tried op), ← happend]; rfl

/-- There are as many cells as there were, or as many as it takes for all that were executed. -/
theorem count_run (n : Notebook) (ops : List NotebookOperation) :
    (n.run ops).count = ((executions (n.history ops)).map (·.1 + 1)).foldl max n.count := by
  refine run_of_step count (fun ops b => ((executions ops).map (·.1 + 1)).foldl max b) (fun _ => rfl) ?_ Tried.count_eq
    n ops
  intro before after b
  simp only [executions, List.filterMap_append, List.map_append, List.foldl_append]

theorem selected_run (n : Notebook) (ops : List NotebookOperation) :
    (n.run ops).selected = (targets (n.history ops)).getLast?.or n.selected := by
  refine run_of_step selected (fun ops b => (targets ops).getLast?.or b) (fun _ => rfl) ?_ Tried.selected_eq n ops
  intro before after b
  simp only [targets, List.filterMap_append, List.getLast?_append, Option.or_assoc]

theorem requestAt?_run (n : Notebook) (ops : List NotebookOperation) (i : Nat) :
    (n.run ops).requestAt? i = (lastRequest? (executions (n.history ops)) i).or (n.requestAt? i) := by
  refine run_of_step (·.requestAt? i) (fun ops b => (lastRequest? (executions ops) i).or b) (fun _ => rfl) ?_
    (fun h => h.requestAt?_eq i) n ops
  intro before after b
  simp only [executions, lastRequest?, List.filterMap_append, List.filter_append, List.getLast?_append, Option.map_or,
    Option.or_assoc]

theorem count_le_run (n : Notebook) (ops : List NotebookOperation) : n.count ≤ (n.run ops).count := by
  rw [count_run, List.foldl_max]
  exact Nat.le_max_left _ _

/-- The cell that is selected exists. -/
def SelectsCell (n : Notebook) : Prop := ∀ index, n.selected = some index → index < n.count

theorem Tried.selectsCell {op : NotebookOperation} {done : List NotebookOperation} (h : n.Tried op done n')
    (hn : n.SelectsCell) : n'.SelectsCell := by
  intro index hs
  cases h with
  | rejected => exact hn index hs
  | executed hx =>
    -- Cells are added up to the one that is executed.
    obtain rfl := Option.some.inj ((selected_execute hx).symm.trans hs)
    rw [count_execute hx]
    exact Nat.le_max_right _ _
  | selected hi =>
    obtain rfl := Option.some.inj hs
    exact hi
  | changedArea =>
    rw [selected_modifyArea] at hs
    rw [count_modifyArea]
    exact hn index hs
  | appendedOutput =>
    rw [count_appendOutput]
    exact hn index hs

theorem SelectsCell.run (h : n.SelectsCell) (ops : List NotebookOperation) : (n.run ops).SelectsCell := by
  induction ops generalizing n with
  | nil => exact h
  | cons op rest ih => exact ih ((n.tried op).selectsCell h)

theorem count_withCells (cells : Nat) : (withCells cells).count = cells := List.length_replicate

theorem requestAt?_withCells (cells i : Nat) : (withCells cells).requestAt? i = none := by
  rw [requestAt?, withCells, List.getElem?_replicate]
  split <;> rfl

theorem selectsCell_withCells (cells : Nat) : (withCells cells).SelectsCell := by
  intro index hs
  obtain ⟨hpos, hzero⟩ := Option.ite_none_right_eq_some.mp hs
  obtain rfl := Option.some.inj hzero
  rwa [count_withCells]

/-- After whatever is done to a new document, its cells are as many as there were at first or as all that were executed
need, and never fewer later. An execution is rejected, and changes nothing, if the cell lies too far behind the last
one; else it leaves the areas and outputs of the cells that there are, and adds at most 64 cells, all empty. The cell
that is selected exists, and is the last one that was executed or selected. A request is found at the first of the cells
that it executed last. -/
theorem document_tells_history (cells : Nat) (ops : List NotebookOperation) :
    let n := (withCells cells).run ops
    let history := (withCells cells).history ops
    n.count = ((executions history).map (·.1 + 1)).foldl max cells ∧
      (∀ more, n.count ≤ (n.run more).count) ∧
      (∀ index message,
        (n.count + 64 ≤ index →
          n.execute index message = .error ⟨index, n.count⟩ ∧ n.step (.execute index message) = n) ∧
        (index < n.count + 64 → ∃ n' : Notebook,
          n.execute index message = .ok n' ∧ n.step (.execute index message) = n' ∧
          n'.detached = n.detached ∧ n'.count ≤ n.count + 64 ∧
          (∀ (i : Nat) (c : Cell), n.cells[i]? = some c →
            ∃ c' : Cell, n'.cells[i]? = some c' ∧ c'.area = c.area ∧ c'.outputs = c.outputs) ∧
          ∀ (i : Nat) (c : Cell), n'.cells[i]? = some c → n.count ≤ i →
            c = .empty ∨ i = index ∧ c = { Cell.empty with lastMessage := some message })) ∧
      (∀ index, n.selected = some index → index < n.count) ∧
      n.selected = (targets history).getLast?.or (if 0 < cells then some 0 else none) ∧
      ∀ message,
        (∀ i, n.cellOfMessage? message = some i ↔ lastRequest? (executions history) i = some message ∧
          ∀ j < i, lastRequest? (executions history) j ≠ some message) ∧
        (n.cellOfMessage? message = none ↔ ∀ i, lastRequest? (executions history) i ≠ some message) := by
  intro n history
  have hrequest (i : Nat) : n.requestAt? i = lastRequest? (executions history) i := by
    rw [requestAt?_run, requestAt?_withCells, Option.or_none]
  refine ⟨?_, n.count_le_run, fun index message => ⟨fun h => ?_, fun h => ?_⟩,
    (selectsCell_withCells cells).run ops, selected_run _ ops, fun message => ⟨fun i => ?_, ?_⟩⟩
  · rw [count_run, count_withCells]
  · exact ⟨execute_eq_error h message, step_of_error (execute_eq_error h message)⟩
  · have hx := execute_eq_ok h message
    refine ⟨_, hx, step_of_ok hx, congrArg Prod.snd (areas_execute hx), ?_, fun i c => kept_execute hx,
      fun i c hc hi => added_execute hx hi hc⟩
    rw [count_execute hx]
    exact Nat.max_le.mpr ⟨Nat.le_add_right _ _, h⟩
  · simp only [cellOfMessage?_eq_some_iff, hrequest]
  · simp only [cellOfMessage?_eq_none_iff, hrequest]

end Notebook

end WidgetSync
