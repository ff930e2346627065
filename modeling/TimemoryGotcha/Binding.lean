import TimemoryGotcha.Filter

/-!
# The binding table: `construct` and `revert`

`construct<N>(func, priority, tool)` fills slot `N` the first time it accepts a symbol: it
labels the slot, captures its arguments in the constructor closure, asks the backend to wrap
the symbol, and makes the slot active. A slot that is not ready afterwards is reverted at once.
`revert<N>()` deactivates a filled, active slot and resets its readiness. The remaining entry
points of this module only read or write readiness.

The `auto_toggle` on the calling thread's suppression flag that brackets `construct` and
`revert` restores the flag on exit; the storage hash registrations and the debug pointer are
bookkeeping outside the engine. None of these is modelled.
-/

namespace TimemoryGotcha

variable {Nt M : Nat}

/-- The readiness `revert<N>()` gives a slot labelled `toolId`. -/
def revertReady (e : Engine Nt M) (toolId : String) : Bool :=
  if toolId ∈ e.suppresses then false else e.defaultReady

/-- `gotcha::revert<N>()`: a filled, active slot is deactivated, sent priority `-1`, and readied
unless suppressed. Returns `filled`. -/
def revert (n : Fin Nt) (e : Engine Nt M) : Bool × Engine Nt M :=
  let d := e.data n
  if d.filled && d.isActive then
    let e := (e.modify n fun d ↦ { d with isActive := false }).request
      (.setPriority n d.toolId (-1))
    let e := e.modify n fun d ↦ { d with ready := revertReady e d.toolId }
    ((e.data n).filled, e)
  else (d.filled, e)

/-- The slot written by the fill block of `construct<N>`: label and identity, readiness,
suppression, and both closures. -/
def fillData (cfg : Config Nt) (e : Engine Nt M) (func : String) (priority : Int) (tool : String)
    (t : Fin M) (d : GotchaData M) : GotchaData M :=
  let d := { d with
    filled := true, priority := priority, toolId := toolLabel cfg.demangle func tool
    wrapId := func, ready := e.defaultReady }
  let d := if func ∈ e.suppresses then { d with suppression := some t, ready := false } else d
  { d with constructor := some (func, priority, tool), destructor := true }

/-- The fill block of `construct<N>`, ending with the backend `wrap` request. -/
def fill (cfg : Config Nt) (n : Fin Nt) (func : String) (priority : Int) (tool : String)
    (t : Fin M) (e : Engine Nt M) : Engine Nt M :=
  (e.modify n (fillData cfg e func priority tool t)).request
    (.wrap n func (toolLabel cfg.demangle func tool))

/-- The activation block of `construct<N>`: an inactive slot becomes active and its priority
is sent to the backend. -/
def activate (n : Fin Nt) (e : Engine Nt M) : Engine Nt M :=
  let d := e.data n
  if d.isActive then e
  else (e.modify n fun d ↦ { d with isActive := true }).request (.setPriority n d.toolId d.priority)

/-- `gotcha::construct<N>(func, priority, tool)`, called on thread `t`; `configure<N>` with one
symbol is the same call. Returns `filled`. -/
def construct (cfg : Config Nt) (n : Fin Nt) (func : String) (priority : Int) (tool : String)
    (t : Fin M) (e : Engine Nt M) : Bool × Engine Nt M :=
  if func = "" then (false, e)
  else if !e.permits cfg func then (false, e)
  else
    let e := if (e.data n).filled then e else fill cfg n func priority tool t e
    let e := activate n e
    let e := if (e.data n).ready then e else (revert n e).2
    ((e.data n).filled, e)

/-- `configure<N>(funcs, priority, tool)`: `construct` each symbol in turn until one is
accepted. -/
def configureList (cfg : Config Nt) (n : Fin Nt) (funcs : List String) (priority : Int)
    (tool : String) (t : Fin M) (e : Engine Nt M) : Engine Nt M :=
  match funcs with
  | [] => e
  | func :: rest =>
    let (ok, e) := construct cfg n func priority tool t e
    if ok then e else configureList cfg n rest priority tool t e

/-- The symbols the loop of `configure<N>(funcs, priority, tool)` passes to `construct<N>`, in
order: it stops after the first call that returns `true`. -/
def configureCalls (cfg : Config Nt) (n : Fin Nt) (funcs : List String) (priority : Int)
    (tool : String) (t : Fin M) (e : Engine Nt M) : List String :=
  match funcs with
  | [] => []
  | func :: rest =>
    func :: if (construct cfg n func priority tool t e).1 then []
      else configureCalls cfg n rest priority tool t (construct cfg n func priority tool t e).2

/-- `add_global_suppression(func)`: insert into the set of suppressed names. -/
def addGlobalSuppression (func : String) (e : Engine Nt M) : Engine Nt M :=
  { e with suppresses := if func ∈ e.suppresses then e.suppresses else func :: e.suppresses }

/-! ## Readiness -/

/-- `get_ready()`: each slot's `filled` and `ready`. -/
def getReady (e : Engine Nt M) : Fin Nt → Bool × Bool :=
  fun i ↦ ((e.data i).filled, (e.data i).ready)

/-- `set_ready(values)`: every filled slot takes its value; `set_ready(val)` is the constant
array. Returns `get_ready()`. -/
def setReady (values : Fin Nt → Bool) (e : Engine Nt M) :
    (Fin Nt → Bool × Bool) × Engine Nt M :=
  let e := e.mapData fun i d ↦ if d.filled then { d with ready := values i } else d
  (getReady e, e)

/-- `thread_init()`: every slot is ready exactly when it is filled and `default_ready` holds. -/
def threadInit (e : Engine Nt M) : Engine Nt M :=
  e.mapData fun _ d ↦ { d with ready := d.filled && e.defaultReady }

/-- The counts `get_info()` returns. -/
structure Info where
  ready : Nat
  filled : Nat
  active : Nat
  finalized : Nat
  suppressed : Nat
  deriving DecidableEq, Repr

/-- `get_info()`. The last count is of slots whose suppression flag is set up but currently
lowered, as the source computes it. -/
def getInfo (e : Engine Nt M) : Info :=
  let count (p : GotchaData M → Bool) := ((List.finRange Nt).filter fun i ↦ p (e.data i)).length
  { ready := count (·.ready), filled := count (·.filled), active := count (·.isActive),
    finalized := count (·.isFinalized)
    suppressed := count fun d ↦ match d.suppression with
      | some u => !e.suppression u
      | none => false }

/-! ## What one call does -/

section Spec

variable (cfg : Config Nt) (n m : Fin Nt) (func : String) (priority : Int) (tool : String)
  (t : Fin M) (e : Engine Nt M)

theorem revertReady_eq : revertReady e toolId = (decide (toolId ∉ e.suppresses) && e.defaultReady) := by
  unfold revertReady; split_ifs <;> simp_all

theorem revert_onlyTable : Engine.OnlyTable e (revert n e).2 := by
  dsimp only [revert]
  split_ifs
  · dsimp only
    exact ((Engine.OnlyTable.modify _ _ _).trans (Engine.OnlyTable.request _ _)).trans
      (Engine.OnlyTable.modify _ _ _)
  · rfl

theorem revert_fst : (revert n e).1 = (e.data n).filled := by
  dsimp only [revert]; split_ifs <;> simp

theorem revert_data : (revert n e).2.data m =
    if m = n ∧ (e.data n).filled ∧ (e.data n).isActive then
      { e.data n with isActive := false, ready := revertReady e (e.data n).toolId }
    else e.data m := by
  by_cases h : (e.data n).filled ∧ (e.data n).isActive
  · by_cases hm : m = n
    · subst hm; simp [revert, h, revertReady]
    · simp [revert, h, hm]
  · simp [revert, h]

theorem revert_requests : (revert n e).2.requests = e.requests ++
    if (e.data n).filled ∧ (e.data n).isActive then [.setPriority n (e.data n).toolId (-1)]
    else [] := by
  by_cases h : (e.data n).filled ∧ (e.data n).isActive <;> simp [revert, h]

theorem revert_of_inactive (h : ((e.data n).filled && (e.data n).isActive) = false) :
    revert n e = ((e.data n).filled, e) := by
  simp [revert, h]

/-- `revert<N>()` is idempotent: a second call changes nothing and returns what the first did. -/
theorem revert_idempotent : revert n (revert n e).2 = revert n e := by
  have hd := revert_data n n e
  simp only [and_self, true_and, if_true] at hd
  have hoff : (((revert n e).2.data n).filled && ((revert n e).2.data n).isActive) = false := by
    rw [hd]; split_ifs with h <;> simp_all
  rw [revert_of_inactive n _ hoff, hd]
  exact Prod.ext (by rw [revert_fst]; split_ifs <;> rfl) rfl

/-- `set_ready` reports the readiness it leaves; writing back `get_ready()` changes nothing, and
of two calls the second wins. -/
theorem setReady_round_trip (values values' : Fin Nt → Bool) :
    (∀ i, (setReady values e).1 i =
      ((e.data i).filled, if (e.data i).filled then values i else (e.data i).ready)) ∧
    (setReady (fun i ↦ (getReady e i).2) e).2 = e ∧
    (setReady values' (setReady values e).2).2 = (setReady values' e).2 := by
  refine ⟨fun i ↦ ?_, ?_, ?_⟩
  · by_cases h : (e.data i).filled <;> simp [setReady, getReady, h]
  · have hd : (fun i ↦ if (e.data i).filled then { e.data i with ready := (e.data i).ready }
        else e.data i) = e.data := funext fun i ↦ by split_ifs <;> rfl
    simp only [setReady, getReady, Engine.mapData, hd]
  · simp only [setReady, Engine.mapData]
    congr 1; funext i
    by_cases h : (e.data i).filled <;> simp [h]

theorem revert_wrapCount (k : Nat) : wrapCount k (revert n e).2.requests = wrapCount k e.requests := by
  rw [revert_requests]; split_ifs <;> simp

theorem activate_wrapCount (k : Nat) : wrapCount k (activate n e).requests = wrapCount k e.requests := by
  dsimp only [activate]; split_ifs <;> simp

theorem fill_wrapCount (k : Nat) : wrapCount k (fill cfg n func priority tool t e).requests =
    wrapCount k e.requests + if (n : Nat) = k then 1 else 0 := by
  simp [fill]

theorem activate_onlyTable : Engine.OnlyTable e (activate n e) := by
  dsimp only [activate]
  split_ifs
  · rfl
  · exact (Engine.OnlyTable.modify _ _ _).trans (Engine.OnlyTable.request _ _)

theorem activate_data : (activate n e).data m =
    if m = n then { e.data n with isActive := true } else e.data m := by
  by_cases hm : m = n
  · subst hm
    by_cases h : (e.data m).isActive
    · cases hd : e.data m; simp_all [activate]
    · simp [activate, h]
  · by_cases h : (e.data n).isActive <;> simp [activate, h, hm]

theorem fill_onlyTable : Engine.OnlyTable e (fill cfg n func priority tool t e) :=
  (Engine.OnlyTable.modify _ _ _).trans (Engine.OnlyTable.request _ _)

theorem fill_data : (fill cfg n func priority tool t e).data m =
    if m = n then fillData cfg e func priority tool t (e.data n) else e.data m := by
  simp [fill, Function.update_apply]

theorem construct_of_empty (h : func = "") : construct cfg n func priority tool t e = (false, e) := by
  simp [construct, h]

theorem construct_of_not_permits (h : e.permits cfg func = false) :
    construct cfg n func priority tool t e = (false, e) := by
  simp [construct, h]

theorem construct_of_rejected (h : ¬(func ≠ "" ∧ e.permits cfg func = true)) :
    construct cfg n func priority tool t e = (false, e) := by
  by_cases hf : func = ""
  · exact construct_of_empty cfg n func priority tool t e hf
  · exact construct_of_not_permits cfg n func priority tool t e (by simpa [hf] using h)

/-- An accepted `construct<N>`: the fill block on an empty slot, the activation block, and the
revert of a slot left not ready. -/
theorem construct_of_accepted (hf : func ≠ "") (hp : e.permits cfg func = true) :
    construct cfg n func priority tool t e =
      let e := activate n (if (e.data n).filled then e else fill cfg n func priority tool t e)
      let e := if (e.data n).ready then e else (revert n e).2
      ((e.data n).filled, e) := by
  dsimp only [construct]
  rw [if_neg hf, if_neg (by simp [hp])]

section Finish

/-! The end of an accepted `construct<N>`: activate, then revert unless ready. -/

variable (e' : Engine Nt M)

theorem finish_onlyTable : e'.OnlyTable
    (if ((activate n e').data n).ready then activate n e' else (revert n (activate n e')).2) := by
  split_ifs
  · exact activate_onlyTable n e'
  · exact (activate_onlyTable n e').trans (revert_onlyTable n _)

theorem finish_wrapCount (k : Nat) : wrapCount k
    (if ((activate n e').data n).ready then activate n e' else (revert n (activate n e')).2).requests =
      wrapCount k e'.requests := by
  split_ifs <;> simp only [revert_wrapCount, activate_wrapCount]

theorem finish_data_of_ne (h : m ≠ n) :
    (if ((activate n e').data n).ready then activate n e' else (revert n (activate n e')).2).data m =
      e'.data m := by
  split_ifs <;> simp only [revert_data, activate_data, h, false_and, if_false]

end Finish

theorem construct_wrapCount (k : Nat) :
    wrapCount k (construct cfg n func priority tool t e).2.requests = wrapCount k e.requests +
      if (n : Nat) = k ∧ func ≠ "" ∧ e.permits cfg func ∧ (e.data n).filled = false then 1
      else 0 := by
  by_cases hacc : func ≠ "" ∧ e.permits cfg func = true
  · rw [construct_of_accepted cfg n func priority tool t e hacc.1 hacc.2]
    dsimp only
    rw [finish_wrapCount]
    by_cases hfl : (e.data n).filled
    · rw [if_pos hfl, if_neg (by simp [hfl]), Nat.add_zero]
    · rw [if_neg hfl, fill_wrapCount]
      simp [hfl, hacc]
  · rw [construct_of_rejected cfg n func priority tool t e hacc,
      if_neg fun h ↦ hacc ⟨h.2.1, h.2.2.1⟩, Nat.add_zero]

/-- An accepted `construct<N>` on an empty slot keeps the `wrap` request of its fill block. -/
theorem construct_requests_of_fill (hf : func ≠ "") (hp : e.permits cfg func = true)
    (hfl : (e.data n).filled = false) :
    (fill cfg n func priority tool t e).requests <+: (construct cfg n func priority tool t e).2.requests := by
  rw [construct_of_accepted cfg n func priority tool t e hf hp]
  dsimp only
  rw [if_neg (ne_true_of_eq_false hfl)]
  exact (finish_onlyTable n _).requests

theorem construct_onlyTable : Engine.OnlyTable e (construct cfg n func priority tool t e).2 := by
  by_cases hacc : func ≠ "" ∧ e.permits cfg func = true
  · rw [construct_of_accepted cfg n func priority tool t e hacc.1 hacc.2]
    exact (Engine.OnlyTable.ite (.refl e) (fill_onlyTable ..)).trans (finish_onlyTable n _)
  · rw [construct_of_rejected cfg n func priority tool t e hacc]

section FillData

variable (d : GotchaData M)

@[simp] theorem fillData_filled : (fillData cfg e func priority tool t d).filled = true := by
  unfold fillData; split_ifs <;> rfl

@[simp] theorem fillData_isActive : (fillData cfg e func priority tool t d).isActive = d.isActive := by
  unfold fillData; split_ifs <;> rfl

@[simp] theorem fillData_isFinalized :
    (fillData cfg e func priority tool t d).isFinalized = d.isFinalized := by
  unfold fillData; split_ifs <;> rfl

@[simp] theorem fillData_wrapId : (fillData cfg e func priority tool t d).wrapId = func := by
  unfold fillData; split_ifs <;> rfl

@[simp] theorem fillData_toolId :
    (fillData cfg e func priority tool t d).toolId = toolLabel cfg.demangle func tool := by
  unfold fillData; split_ifs <;> rfl

@[simp] theorem fillData_priority : (fillData cfg e func priority tool t d).priority = priority := by
  unfold fillData; split_ifs <;> rfl

@[simp] theorem fillData_ready :
    (fillData cfg e func priority tool t d).ready = (decide (func ∉ e.suppresses) && e.defaultReady) := by
  unfold fillData; split_ifs <;> simp_all

@[simp] theorem fillData_constructor :
    (fillData cfg e func priority tool t d).constructor = some (func, priority, tool) := by
  unfold fillData; split_ifs <;> rfl

@[simp] theorem fillData_destructor : (fillData cfg e func priority tool t d).destructor = true := by
  unfold fillData; split_ifs <;> rfl

end FillData

theorem revertReady_of_onlyTable {e e' : Engine Nt M} (h : e.OnlyTable e') :
    revertReady e' = revertReady e := by
  funext toolId; simp [revertReady, h.suppresses, h.defaultReady]

theorem construct_data_of_ne (h : m ≠ n) :
    (construct cfg n func priority tool t e).2.data m = e.data m := by
  by_cases hacc : func ≠ "" ∧ e.permits cfg func = true
  · rw [construct_of_accepted cfg n func priority tool t e hacc.1 hacc.2]
    dsimp only
    rw [finish_data_of_ne n m _ h]
    split_ifs
    · rfl
    · simp only [fill_data, h, if_false]
  · rw [construct_of_rejected cfg n func priority tool t e hacc]

/-- Lines 208-216 of `construct<N>` on a filled slot: activate, then revert unless ready. -/
theorem activate_revert_data (h : (e.data n).filled) :
    (if ((activate n e).data n).ready then activate n e else (revert n (activate n e)).2).data n =
      if (e.data n).ready then { e.data n with isActive := true }
      else { e.data n with isActive := false, ready := revertReady e (e.data n).toolId } := by
  by_cases hr : (e.data n).ready
  · simp [activate_data, hr]
  · simp [activate_data, revert_data, hr, h, revertReady_of_onlyTable (activate_onlyTable n e)]

/-- The slot `construct<N>` leaves once it accepts `func`: filled, kept active if ready, reverted if
not. -/
theorem construct_data_self (hf : func ≠ "") (hp : e.permits cfg func = true) :
    (construct cfg n func priority tool t e).2.data n =
      let d := if (e.data n).filled then e.data n else fillData cfg e func priority tool t (e.data n)
      if d.ready then { d with isActive := true }
      else { d with isActive := false, ready := revertReady e d.toolId } := by
  have hd : ((if (e.data n).filled then e else fill cfg n func priority tool t e).data n) =
      if (e.data n).filled then e.data n else fillData cfg e func priority tool t (e.data n) := by
    split_ifs <;> simp [fill_data]
  have hT : e.OnlyTable (if (e.data n).filled then e else fill cfg n func priority tool t e) :=
    .ite (.refl e) (fill_onlyTable ..)
  have hfill : ((if (e.data n).filled then e else fill cfg n func priority tool t e).data n).filled := by
    rw [hd]; split_ifs <;> simp_all
  rw [construct_of_accepted cfg n func priority tool t e hf hp]
  dsimp only
  rw [activate_revert_data _ _ hfill, hd, revertReady_of_onlyTable hT]

theorem construct_filled (hf : func ≠ "") (hp : e.permits cfg func = true) :
    ((construct cfg n func priority tool t e).2.data n).filled := by
  have hd : (if (e.data n).filled then e.data n
      else fillData cfg e func priority tool t (e.data n)).filled := by
    split_ifs <;> simp_all
  rw [construct_data_self _ _ _ _ _ _ _ hf hp]
  revert hd
  generalize (if (e.data n).filled then e.data n
    else fillData cfg e func priority tool t (e.data n)) = d
  intro hd
  dsimp only
  split_ifs <;> exact hd

theorem permits_of_onlyTable {e e' : Engine Nt M} (h : e.OnlyTable e') :
    e'.permits cfg = e.permits cfg := by
  funext func; simp [Engine.permits, h.permitList, h.rejectList]

/-- A second identical `construct<N>` changes only the slot's activity, which becomes its
readiness. -/
theorem construct_construct_data :
    ((construct cfg n func priority tool t (construct cfg n func priority tool t e).2).2).data n =
      let d := (construct cfg n func priority tool t e).2.data n
      if func ≠ "" ∧ e.permits cfg func then { d with isActive := d.ready } else d := by
  by_cases hacc : func ≠ "" ∧ e.permits cfg func = true
  swap
  · simp only [construct_of_rejected cfg n func priority tool t e hacc, hacc, if_false]
  obtain ⟨hf, hp⟩ := hacc
  have hT := construct_onlyTable cfg n func priority tool t e
  have hp₁ : (construct cfg n func priority tool t e).2.permits cfg func := by
    rw [permits_of_onlyTable cfg hT]; exact hp
  simp only [ne_eq, hf, not_false_eq_true, hp, and_self, if_true]
  rw [construct_data_self _ _ _ _ _ _ _ hf hp₁, if_pos (construct_filled _ _ _ _ _ _ _ hf hp),
    revertReady_of_onlyTable hT, construct_data_self _ _ _ _ _ _ _ hf hp]
  generalize (if (e.data n).filled then e.data n else fillData cfg e func priority tool t (e.data n)) = d
  by_cases hr : d.ready
  · simp [hr]
  · cases hrr : revertReady e d.toolId <;> simp [hr, hrr]

/-- After `set_ready(false)` under `default_ready = true`, the first call reverts the slot to ready,
the second re-activates it. -/
theorem construct_twice_reactivates :
    let cfg : Config 1 := ⟨id, false, []⟩
    let e := (setReady (fun _ ↦ false)
      (construct cfg 0 "malloc" 0 "tool" (0 : Fin 1) { Engine.init 1 1 with defaultReady := true }).2).2
    let e₁ := (construct cfg 0 "malloc" 0 "tool" 0 e).2
    (e₁.data 0).isActive = false ∧ (e₁.data 0).ready = true ∧
      ((construct cfg 0 "malloc" 0 "tool" 0 e₁).2.data 0).isActive = true := by
  decide

/-- `construct<0>` of a suppressed `free` leaves the slot ready: `revert` looks up the label
`tool/free`, not the symbol. -/
theorem construct_suppressed_free_ready :
    let cfg : Config 1 := ⟨id, false, []⟩
    let e := addGlobalSuppression "free" { Engine.init 1 1 with defaultReady := true }
    (construct cfg 0 "free" 0 "tool" (0 : Fin 1) e).1 = true ∧
      ((construct cfg 0 "free" 0 "tool" 0 e).2.data 0).toolId = "tool/free" ∧
      ((construct cfg 0 "free" 0 "tool" 0 e).2.data 0).ready = true := by
  decide

/-! ## `configure<N>` over a list -/

/-- `configure<N>` over a list is `construct<N>` on each symbol its loop passes. -/
theorem configureList_eq_foldl (funcs : List String) :
    configureList cfg n funcs priority tool t e =
      (configureCalls cfg n funcs priority tool t e).foldl
        (fun e func ↦ (construct cfg n func priority tool t e).2) e := by
  induction funcs generalizing e with
  | nil => rfl
  | cons func rest ih =>
    simp only [configureList, configureCalls]
    split_ifs with h
    · rfl
    · rw [List.foldl_cons, ← ih]

/-- `construct<N>` returns `true` exactly on a non-empty permitted symbol: it then leaves the slot
filled, whether or not it was before. -/
theorem construct_fst_iff :
    (construct cfg n func priority tool t e).1 = true ↔ func ≠ "" ∧ e.permits cfg func = true := by
  by_cases hacc : func ≠ "" ∧ e.permits cfg func = true
  · refine iff_of_true ?_ hacc
    simpa only [construct_of_accepted cfg n func priority tool t e hacc.1 hacc.2] using
      construct_filled cfg n func priority tool t e hacc.1 hacc.2
  · rw [construct_of_rejected cfg n func priority tool t e hacc]
    exact iff_of_false Bool.false_ne_true hacc

theorem construct_wrapId_of_empty_slot (hfl : (e.data n).filled = false) (hf : func ≠ "")
    (hp : e.permits cfg func = true) :
    ((construct cfg n func priority tool t e).2.data n).wrapId = func := by
  rw [construct_data_self cfg n func priority tool t e hf hp, if_neg (ne_true_of_eq_false hfl)]
  dsimp only
  split_ifs <;> exact fillData_wrapId ..

/-- `configure<N>` on an empty slot fills it with the first accepted symbol, calling `construct<N>`
on no later one, or changes nothing. -/
theorem configureList_first_success (funcs : List String) (hfl : (e.data n).filled = false) :
    (∃ pre func post, funcs = pre ++ func :: post ∧
      (∀ x ∈ pre, ¬(x ≠ "" ∧ e.permits cfg x = true) ∧
        construct cfg n x priority tool t e = (false, e)) ∧
      func ≠ "" ∧ e.permits cfg func = true ∧ (construct cfg n func priority tool t e).1 = true ∧
      configureCalls cfg n funcs priority tool t e = pre ++ [func] ∧
      configureList cfg n funcs priority tool t e = (construct cfg n func priority tool t e).2 ∧
      ((configureList cfg n funcs priority tool t e).data n).filled = true ∧
      ((configureList cfg n funcs priority tool t e).data n).wrapId = func) ∨
    ((∀ x ∈ funcs, ¬(x ≠ "" ∧ e.permits cfg x = true) ∧
        construct cfg n x priority tool t e = (false, e)) ∧
      configureCalls cfg n funcs priority tool t e = funcs ∧
      configureList cfg n funcs priority tool t e = e ∧
      ((configureList cfg n funcs priority tool t e).data n).filled = false) := by
  induction funcs with
  | nil => exact .inr ⟨fun _ h ↦ absurd h (List.not_mem_nil _), rfl, rfl, hfl⟩
  | cons func rest ih =>
    by_cases hacc : func ≠ "" ∧ e.permits cfg func = true
    · have hok := (construct_fst_iff cfg n func priority tool t e).mpr hacc
      have hconf : configureList cfg n (func :: rest) priority tool t e =
          (construct cfg n func priority tool t e).2 := by
        simp only [configureList, hok, if_true]
      refine .inl ⟨[], func, rest, rfl, fun _ h ↦ absurd h (List.not_mem_nil _), hacc.1, hacc.2,
        hok, by simp only [configureCalls, hok, if_true, List.nil_append], hconf, ?_, ?_⟩
      · rw [hconf]; exact construct_filled cfg n func priority tool t e hacc.1 hacc.2
      · rw [hconf]; exact construct_wrapId_of_empty_slot cfg n func priority tool t e hfl hacc.1 hacc.2
    · have hrej := construct_of_rejected cfg n func priority tool t e hacc
      have hconf : configureList cfg n (func :: rest) priority tool t e =
          configureList cfg n rest priority tool t e := by
        simp only [configureList, hrej, Bool.false_eq_true, if_false]
      have hcalls : configureCalls cfg n (func :: rest) priority tool t e =
          func :: configureCalls cfg n rest priority tool t e := by
        simp only [configureCalls, hrej, Bool.false_eq_true, if_false]
      rw [hconf, hcalls]
      rcases ih with ⟨pre, f, post, hfuncs, hpre, hrest⟩ | ⟨hall, hc, hl, hfl'⟩
      · exact .inl ⟨func :: pre, f, post, by rw [hfuncs]; rfl,
          List.forall_mem_cons.mpr ⟨⟨hacc, hrej⟩, hpre⟩, by simpa using hrest⟩
      · exact .inr ⟨List.forall_mem_cons.mpr ⟨⟨hacc, hrej⟩, hall⟩, by rw [hc], hl, hfl'⟩

/-- `configureList_first_success` on `["", "free", "malloc", "calloc"]` with `free` rejected: the
loop stops at `malloc`. -/
theorem configureList_first_success_malloc :
    let cfg : Config 1 := ⟨id, false, []⟩
    let e : Engine 1 1 := { Engine.init 1 1 with rejectList := ["free"] }
    let funcs := ["", "free", "malloc", "calloc"]
    (e.data 0).filled = false ∧
    ((∃ pre func post, funcs = pre ++ func :: post ∧
      (∀ x ∈ pre, ¬(x ≠ "" ∧ e.permits cfg x = true) ∧
        construct cfg 0 x 0 "tool" (0 : Fin 1) e = (false, e)) ∧
      func ≠ "" ∧ e.permits cfg func = true ∧ (construct cfg 0 func 0 "tool" (0 : Fin 1) e).1 = true ∧
      configureCalls cfg 0 funcs 0 "tool" (0 : Fin 1) e = pre ++ [func] ∧
      configureList cfg 0 funcs 0 "tool" (0 : Fin 1) e = (construct cfg 0 func 0 "tool" 0 e).2 ∧
      ((configureList cfg 0 funcs 0 "tool" (0 : Fin 1) e).data 0).filled = true ∧
      ((configureList cfg 0 funcs 0 "tool" (0 : Fin 1) e).data 0).wrapId = func) ∨
    ((∀ x ∈ funcs, ¬(x ≠ "" ∧ e.permits cfg x = true) ∧
        construct cfg 0 x 0 "tool" (0 : Fin 1) e = (false, e)) ∧
      configureCalls cfg 0 funcs 0 "tool" (0 : Fin 1) e = funcs ∧
      configureList cfg 0 funcs 0 "tool" (0 : Fin 1) e = e ∧
      ((configureList cfg 0 funcs 0 "tool" (0 : Fin 1) e).data 0).filled = false)) :=
  ⟨rfl, configureList_first_success _ _ 0 "tool" 0 _ _ rfl⟩

example : configureCalls ⟨id, false, []⟩ 0 ["", "free", "malloc", "calloc"] 0 "tool" (0 : Fin 1)
    { Engine.init 1 1 with rejectList := ["free"] } = ["", "free", "malloc"] := by
  decide

end Spec

end TimemoryGotcha
