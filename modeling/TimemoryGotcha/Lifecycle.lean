import TimemoryGotcha.Dispatch

/-!
# Runs of the engine

Every entry point of the engine as one operation, and a run as the operations in order, from the
engine before any call. Along every run the representation invariant holds and no filled slot
changes what it records, so each slot is filled at most once, only by an accepted
`construct<N>`, and asks the backend to wrap its symbol exactly once.

Finalization is not so final. `disable()` marks every slot finalized and reverts it, but
`construct<N>` does not look at `is_finalized` and neither do `replace_func<N>` and
`replace_void_func<N>`: a later `configure` of the same symbol marks a finalized slot active
again and sends the backend a `set_priority` request, and when `default_ready` holds the
replacing dispatchers hand its calls to the replacement operator.
-/

namespace TimemoryGotcha

variable {Nt M : Nat}

/-- One call into the engine. -/
inductive Op (Nt M : Nat) where
  /-- `construct<N>(func, priority, tool)` on thread `t`, and `configure<N>` of one symbol. -/
  | construct (n : Fin Nt) (func : String) (priority : Int) (tool : String) (t : Fin M)
  /-- `configure<N>(funcs, priority, tool)` on thread `t`. -/
  | configure (n : Fin Nt) (funcs : List String) (priority : Int) (tool : String) (t : Fin M)
  | revert (n : Fin Nt)
  | start (t : Fin M) (finalizing : Bool)
  | stop (t : Fin M)
  | threadInit
  /-- `set_ready(values)`, and `set_ready(val)` with the constant values. -/
  | setReady (values : Fin Nt → Bool)
  | disable
  | globalFinalize (t : Fin M)
  | addGlobalSuppression (func : String)
  /-- A call through a dispatcher on thread `t`, with the calls made while it runs. -/
  | call (t : Fin M) (c : Call Nt)

/-- The engine after one operation. -/
def Op.apply (cfg : Config Nt) (e : Engine Nt M) : Op Nt M → Engine Nt M
  | .construct n func priority tool t => (TimemoryGotcha.construct cfg n func priority tool t e).2
  | .configure n funcs priority tool t => configureList cfg n funcs priority tool t e
  | .revert n => (TimemoryGotcha.revert n e).2
  | .start t finalizing => TimemoryGotcha.start cfg t finalizing e
  | .stop t => TimemoryGotcha.stop t e
  | .threadInit => TimemoryGotcha.threadInit e
  | .setReady values => (TimemoryGotcha.setReady values e).2
  | .disable => TimemoryGotcha.disable e
  | .globalFinalize t => TimemoryGotcha.globalFinalize t e
  | .addGlobalSuppression func => TimemoryGotcha.addGlobalSuppression func e
  | .call t c => (dispatch cfg.replaces t .program c e).1

/-- The engine after the operations `ops`, in order. -/
def runOps (cfg : Config Nt) (ops : List (Op Nt M)) (e : Engine Nt M) : Engine Nt M :=
  ops.foldl (Op.apply cfg) e

@[simp] theorem runOps_nil (cfg : Config Nt) (e : Engine Nt M) : runOps cfg [] e = e := rfl

@[simp] theorem runOps_append (cfg : Config Nt) (ops ops' : List (Op Nt M)) (e : Engine Nt M) :
    runOps cfg (ops ++ ops') e = runOps cfg ops' (runOps cfg ops e) :=
  List.foldl_append _ _ _ _

/-! ## The representation invariant along every run -/

section Representation

variable {cfg : Config Nt}

theorem preserves_apply (op : Op Nt M) : Preserves cfg fun e ↦ op.apply cfg e := by
  cases op with
  | construct n func priority tool t => exact preserves_construct n func priority tool t
  | configure n funcs priority tool t => exact preserves_configureList n priority tool t funcs
  | revert n => exact preserves_revert n
  | start t finalizing => exact preserves_start t finalizing
  | stop t => exact preserves_stop t
  | threadInit => exact preserves_threadInit
  | setReady values => exact preserves_setReady values
  | disable => exact preserves_disable
  | globalFinalize t => exact preserves_globalFinalize t
  | addGlobalSuppression func => exact preserves_addGlobalSuppression func
  | call t c => exact preserves_of_soft fun e ↦ soft_dispatch cfg.replaces t .program c e

theorem preserves_runOps (ops : List (Op Nt M)) : Preserves cfg (runOps cfg ops) :=
  Preserves.foldl (Op.apply cfg) (fun op ↦ preserves_apply op) ops

/-- From a blank engine, what a filled slot records stays, and the representation invariant
holds. -/
theorem slot_representation (e₀ : Engine Nt M) (he : e₀.Blank) (ops₁ ops₂ : List (Op Nt M))
    (n : Fin Nt) :
    let e₁ := runOps cfg ops₁ e₀
    let e₂ := runOps cfg ops₂ e₁
    ((e₁.data n).filled → (e₂.data n).filled ∧ (e₂.data n).wrapId = (e₁.data n).wrapId ∧
      (e₂.data n).toolId = (e₁.data n).toolId ∧ (e₂.data n).priority = (e₁.data n).priority) ∧
    ((e₂.data n).filled → (e₂.data n).wrapId ≠ "" ∧ e₂.permits cfg (e₂.data n).wrapId ∧
      .wrap n (e₂.data n).wrapId (e₂.data n).toolId ∈ e₂.requests ∧
      ∃ tool, (e₂.data n).constructor = some ((e₂.data n).wrapId, (e₂.data n).priority, tool) ∧
        (e₂.data n).toolId = toolLabel cfg.demangle (e₂.data n).wrapId tool) ∧
    wrapCount n e₂.requests = (if (e₂.data n).filled then 1 else 0) ∧
    ((e₂.data n).isActive → (e₂.data n).filled) := by
  intro e₁ e₂
  have h₁ := preserves_runOps ops₁ _ (he.wf cfg)
  have h₂ := preserves_runOps ops₂ e₁ h₁.1
  have hinv := h₂.1 n
  refine ⟨fun hf ↦ ?_, fun hf ↦ ⟨(hinv.symbol hf).1, (hinv.symbol hf).2, hinv.requested hf,
    (hinv.closures hf).2⟩, hinv.wraps, hinv.active⟩
  have hid := h₂.2 n hf
  simp only [GotchaData.ident, Prod.mk.injEq] at hid
  exact ⟨hid.1.trans hf, hid.2.1, hid.2.2.1, hid.2.2.2.1⟩

/-- A permit list and `default_ready = true`: the first `start()` fills slot `0`, then a
`disable()`. -/
theorem slot_representation_malloc :
    let cfg : Config 1 := ⟨id, false, [(0, "malloc", 0, "tool")]⟩
    let e₀ : Engine 1 1 := { Engine.init 1 1 with permitList := ["malloc"], defaultReady := true }
    let e₁ := runOps cfg [.start 0 false] e₀
    let e₂ := runOps cfg [.disable] e₁
    e₀.Blank ∧
    ((e₁.data 0).filled → (e₂.data 0).filled ∧ (e₂.data 0).wrapId = (e₁.data 0).wrapId ∧
      (e₂.data 0).toolId = (e₁.data 0).toolId ∧ (e₂.data 0).priority = (e₁.data 0).priority) ∧
    ((e₂.data 0).filled → (e₂.data 0).wrapId ≠ "" ∧ e₂.permits cfg (e₂.data 0).wrapId ∧
      .wrap 0 (e₂.data 0).wrapId (e₂.data 0).toolId ∈ e₂.requests ∧
      ∃ tool, (e₂.data 0).constructor = some ((e₂.data 0).wrapId, (e₂.data 0).priority, tool) ∧
        (e₂.data 0).toolId = toolLabel cfg.demangle (e₂.data 0).wrapId tool) ∧
    wrapCount 0 e₂.requests = (if (e₂.data 0).filled then 1 else 0) ∧
    ((e₂.data 0).isActive → (e₂.data 0).filled) :=
  ⟨⟨fun _ ↦ rfl, rfl, fun _ ↦ rfl⟩, slot_representation _ ⟨fun _ ↦ rfl, rfl, fun _ ↦ rfl⟩ _ _ 0⟩

end Representation

/-! ## Finalized slots -/

/-- From a blank engine, `disable()` finalizes every slot, deactivating those it finalizes, and is
idempotent. -/
theorem disable_finalizes_all {cfg : Config Nt} (e₀ : Engine Nt M) (he : e₀.Blank)
    (ops : List (Op Nt M)) :
    let e := runOps cfg ops e₀
    (e.isConfigured = false → disable e = e) ∧
    (e.isConfigured = true → (disable e).isConfigured = false ∧ ∀ n,
      ((disable e).data n).isFinalized = true ∧
      ((disable e).data n).isActive = ((e.data n).isActive && (e.data n).isFinalized)) ∧
    disable (disable e) = disable e := by
  intro e
  have hwf : e.Wf cfg := (preserves_runOps ops _ (he.wf cfg)).1
  refine ⟨disable_of_not_configured e, fun h ↦ ⟨disable_isConfigured e, fun n ↦ ?_⟩,
    disable_of_not_configured _ (disable_isConfigured e)⟩
  have hfill : (e.data n).isActive → (e.data n).filled := (hwf n).active
  have hdtor (hf : (e.data n).filled) : (e.data n).destructor := ((hwf n).closures hf).1
  rw [disable_data e h]
  by_cases hfin : (e.data n).isFinalized
  · simp [hfin]
  · by_cases ha : (e.data n).isActive
    · simp [hfin, ha, hfill ha, hdtor (hfill ha)]
    · simp [hfin, ha]

/-- A reject list and `default_ready = true`: `disable()` after the first `start()`, whose
initializer fills slot `0`. -/
theorem disable_finalizes_all_malloc :
    let cfg : Config 1 := ⟨id, false, [(0, "malloc", 0, "tool")]⟩
    let e₀ : Engine 1 1 := { Engine.init 1 1 with rejectList := ["free"], defaultReady := true }
    let e := runOps cfg [.start 0 false] e₀
    e₀.Blank ∧
    (e.isConfigured = false → disable e = e) ∧
    (e.isConfigured = true → (disable e).isConfigured = false ∧ ∀ n,
      ((disable e).data n).isFinalized = true ∧
      ((disable e).data n).isActive = ((e.data n).isActive && (e.data n).isFinalized)) ∧
    disable (disable e) = disable e :=
  ⟨⟨fun _ ↦ rfl, rfl, fun _ ↦ rfl⟩, disable_finalizes_all _ ⟨fun _ ↦ rfl, rfl, fun _ ↦ rfl⟩ _⟩

/-- A `construct<0>` after `disable()` re-activates the finalized slot, and `replace_func<0>`
replaces again. -/
theorem finalized_slot_reactivated :
    let cfg : Config 1 := ⟨id, true, [(0, "malloc", 0, "tool")]⟩
    let e₁ := runOps cfg [.start 0 false, .disable] { Engine.init 1 1 with defaultReady := true }
    let e₂ := runOps cfg [.construct 0 "malloc" 0 "tool" 0] e₁
    (e₁.data 0).isFinalized = true ∧ (e₂.data 0).isFinalized = true ∧
      (e₂.data 0).isActive = true ∧ e₂.requests = e₁.requests ++ [.setPriority 0 "tool/malloc" 0] ∧
      (dispatch cfg.replaces 0 .program (.mk 0 [] [] [] []) e₂).2 =
        [⟨0, .instrumented, .program⟩] := by
  decide

end TimemoryGotcha
