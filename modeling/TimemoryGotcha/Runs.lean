import TimemoryGotcha.Lifecycle

/-!
# Properties kept along every run

Every operation of the engine is built from five kinds of change: a `construct<N>` call, a
`revert<N>()` call, a change that leaves the slot table, the suppression flags and the backend log
alone, a rewrite of every slot's readiness that makes ready only a slot that is filled or was ready
already, and the finalization of one slot. A call through a dispatcher returns the engine as it
found it. A property kept by each kind of change holds after every run from an engine that has it.

Along every run from the engine before any call, readiness, activity and a suppression pointer are
found only on a filled slot, and every suppression flag is lowered between two operations: so
`get_info()` never counts more ready, active or suppressed slots than filled ones, and a replacing
dispatcher hands a call to its replacement operator only through a slot whose symbol the backend
was asked to wrap. Along every run whatever its start, a finalized slot stays finalized.
-/

namespace TimemoryGotcha

variable {Nt M : Nat}

/-- A property of the engine kept by each kind of change an operation makes. -/
structure Stable (cfg : Config Nt) (I : Engine Nt M → Prop) : Prop where
  construct : ∀ n func priority tool t e,
    I e → I (TimemoryGotcha.construct cfg n func priority tool t e).2
  revert : ∀ n e, I e → I (TimemoryGotcha.revert n e).2
  frame : ∀ e e' : Engine Nt M, e'.data = e.data → e'.suppression = e.suppression →
    e'.requests = e.requests → e'.permitList = e.permitList → e'.rejectList = e.rejectList →
    I e → I e'
  ready : ∀ (g : Fin Nt → GotchaData M → Bool) (e : Engine Nt M),
    (∀ i d, g i d = true → d.filled = true ∨ d.ready = true) →
    I e → I (e.mapData fun i d ↦ { d with ready := g i d })
  finalize : ∀ n (e : Engine Nt M), I e → I (e.modify n fun d ↦ { d with isFinalized := true })

namespace Stable

variable {cfg : Config Nt} {I : Engine Nt M → Prop}

theorem foldl {α : Type} {step : Engine Nt M → α → Engine Nt M}
    (hs : ∀ e a, I e → I (step e a)) : ∀ (l : List α) (e : Engine Nt M), I e → I (l.foldl step e)
  | [], _, h => h
  | a :: l, e, h => foldl hs l _ (hs e a h)

theorem of_ite {c : Prop} [Decidable c] {x y : Engine Nt M} (hx : I x) (hy : I y) :
    I (if c then x else y) := by
  split_ifs
  · exact hx
  · exact hy

theorem record (hI : Stable cfg I) (r : Round) (e : Engine Nt M) (h : I e) : I (e.record r) :=
  hI.frame e _ rfl rfl rfl rfl rfl h

theorem configureList (hI : Stable cfg I) (n : Fin Nt) (priority : Int) (tool : String)
    (t : Fin M) : ∀ (funcs : List String) (e : Engine Nt M), I e →
      I (TimemoryGotcha.configureList cfg n funcs priority tool t e)
  | [], _, h => h
  | func :: rest, e, h => by
    have hc := hI.construct n func priority tool t e h
    simp only [TimemoryGotcha.configureList]
    split_ifs
    · exact hc
    · exact configureList hI n priority tool t rest _ hc

theorem runInitializer (hI : Stable cfg I) (t : Fin M) (e : Engine Nt M) (h : I e) :
    I (TimemoryGotcha.runInitializer cfg t e) :=
  foldl (fun e (c : Fin Nt × String × Int × String) ↦ hI.construct c.1 c.2.1 c.2.2.1 c.2.2.2 t e)
    cfg.initializer e h

theorem configure (hI : Stable cfg I) (t : Fin M) (e : Engine Nt M) (h : I e) :
    I (TimemoryGotcha.configure cfg t e) :=
  of_ite h (hI.runInitializer t _ (hI.frame e _ rfl rfl rfl rfl rfl h))

theorem runConstructors (hI : Stable cfg I) (t : Fin M) (e : Engine Nt M) (h : I e) :
    I (TimemoryGotcha.runConstructors cfg t e) := by
  refine foldl (fun e n h ↦ of_ite h ?_) _ e h
  unfold invokeConstructor
  split
  · exact hI.construct _ _ _ _ t e h
  · exact h

theorem invokeDestructor (hI : Stable cfg I) (e : Engine Nt M) (n : Fin Nt) (h : I e) :
    I (TimemoryGotcha.invokeDestructor e n) :=
  of_ite (hI.revert n e h) h

theorem runDestructors (hI : Stable cfg I) (e : Engine Nt M) (h : I e) :
    I (TimemoryGotcha.runDestructors e) :=
  foldl (fun e n h ↦ of_ite h (hI.invokeDestructor e n h)) _ e h

theorem start (hI : Stable cfg I) (t : Fin M) (finalizing : Bool) (e : Engine Nt M) (h : I e) :
    I (TimemoryGotcha.start cfg t finalizing e) := by
  have hc : I { e with
      started := e.started + 1
      threadStarted := Function.update e.threadStarted t (e.threadStarted t + 1) } :=
    hI.frame e _ rfl rfl rfl rfl rfl h
  have hround (x : Engine Nt M) (hx : I x) :
      I (if e.started = 0 then
        (TimemoryGotcha.runConstructors cfg t (TimemoryGotcha.configure cfg t x)).record .install
        else x) :=
    of_ite (hI.record _ _ (hI.runConstructors t _ (hI.configure t _ hx))) hx
  exact of_ite h (of_ite (hI.ready _ _ (fun _ _ hd ↦ .inl hd)
    (hround _ (of_ite (hI.configure t _ hc) hc))) (hround _ (of_ite (hI.configure t _ hc) hc)))

theorem stop (hI : Stable cfg I) (t : Fin M) (e : Engine Nt M) (h : I e) :
    I (TimemoryGotcha.stop t e) := by
  have hc : I { e with
      started := e.started - 1
      threadStarted := Function.update e.threadStarted t (e.threadStarted t - 1) } :=
    hI.frame e _ rfl rfl rfl rfl rfl h
  have hround (x : Engine Nt M) (hx : I x) :
      I (if e.started - 1 = 0 then (TimemoryGotcha.runDestructors x).record .teardown else x) :=
    of_ite (hI.record _ _ (hI.runDestructors x hx)) hx
  exact hround _ (of_ite (hI.ready (fun _ _ ↦ false) _ (fun _ _ hd ↦ absurd hd Bool.false_ne_true) hc) hc)

theorem disable (hI : Stable cfg I) (e : Engine Nt M) (h : I e) : I (TimemoryGotcha.disable e) :=
  of_ite (foldl (fun e n h ↦ of_ite h (hI.invokeDestructor _ n (hI.finalize n e h))) _ _
    (hI.frame e _ rfl rfl rfl rfl rfl h)) h

theorem apply (hI : Stable cfg I) (op : Op Nt M) (e : Engine Nt M) (h : I e) :
    I (op.apply cfg e) := by
  cases op with
  | construct n func priority tool t => exact hI.construct n func priority tool t e h
  | configure n funcs priority tool t => exact hI.configureList n priority tool t funcs e h
  | revert n => exact hI.revert n e h
  | start t finalizing => exact hI.start t finalizing e h
  | stop t => exact hI.stop t e h
  | threadInit => exact hI.ready _ e (fun _ _ hd ↦ .inl (Bool.and_eq_true_iff.mp hd).1) h
  | setReady values =>
    show I (setReady values e).2
    have hs : (setReady values e).2 =
        e.mapData fun i d ↦ { d with ready := if d.filled then values i else d.ready } := by
      simp only [setReady, Engine.mapData, apply_ite GotchaData.ready]; congr; funext i
      split_ifs <;> rfl
    rw [hs]
    exact hI.ready _ e (fun _ d hd ↦ by split_ifs at hd with hf; exacts [.inl hf, .inr hd]) h
  | disable => exact hI.disable e h
  | globalFinalize t => exact hI.disable _ (hI.frame e _ rfl rfl rfl rfl rfl h)
  | addGlobalSuppression func => exact hI.frame e _ rfl rfl rfl rfl rfl h
  | call t c => rw [Op.apply, dispatch_fst]; exact h

theorem runOps (hI : Stable cfg I) (ops : List (Op Nt M)) (e : Engine Nt M) (h : I e) :
    I (runOps cfg ops e) :=
  foldl (fun e op h ↦ hI.apply op e h) ops e h

end Stable

/-! ## Flags only on filled slots -/

/-- An empty slot is not ready, not active, and has no suppression pointer. -/
def GotchaData.Settled (d : GotchaData M) : Prop :=
  d.filled = false → d.ready = false ∧ d.isActive = false ∧ d.suppression = none

/-- What holds between two operations of a run from the engine before any call. -/
structure Engine.Settled (e : Engine Nt M) : Prop where
  slots : ∀ n, (e.data n).Settled
  lowered : ∀ u, e.suppression u = false

theorem GotchaData.settled_of_filled {d : GotchaData M} (h : d.filled = true) : d.Settled :=
  fun hf ↦ absurd (h.symm.trans hf) Bool.noConfusion

theorem GotchaData.Settled.filled {d : GotchaData M} (h : d.Settled)
    (hd : d.ready = true ∨ d.isActive = true ∨ d.suppression ≠ none) : d.filled = true := by
  cases hf : d.filled
  · obtain ⟨h₁, h₂, h₃⟩ := h hf
    simp [h₁, h₂, h₃] at hd
  · rfl

section Settled

variable {cfg : Config Nt}

theorem construct_settled (n : Fin Nt) (func : String) (priority : Int) (tool : String) (t : Fin M)
    {e : Engine Nt M} (h : ∀ m, (e.data m).Settled) (m : Fin Nt) :
    ((construct cfg n func priority tool t e).2.data m).Settled := by
  by_cases hmn : m = n
  · subst hmn
    by_cases hacc : func ≠ "" ∧ e.permits cfg func = true
    · exact GotchaData.settled_of_filled (construct_filled cfg m func priority tool t e hacc.1 hacc.2)
    · rw [construct_of_rejected cfg m func priority tool t e hacc]; exact h m
  · rw [construct_data_of_ne cfg n m func priority tool t e hmn]; exact h m

theorem stable_settled : Stable cfg fun e : Engine Nt M ↦ e.Settled where
  construct n func priority tool t e h :=
    ⟨construct_settled n func priority tool t h.slots,
      fun u ↦ (construct_onlyTable cfg n func priority tool t e).suppression ▸ h.lowered u⟩
  revert n e h := by
    refine ⟨fun m ↦ ?_, fun u ↦ (revert_onlyTable n e).suppression ▸ h.lowered u⟩
    rw [revert_data]
    split_ifs with hm
    · exact GotchaData.settled_of_filled hm.2.1
    · exact h.slots m
  frame e e' hd hs _ _ _ h := ⟨fun m ↦ hd ▸ h.slots m, fun u ↦ hs ▸ h.lowered u⟩
  ready g e hg h := ⟨fun m hf ↦ by
      obtain ⟨hr, ha, hp⟩ := h.slots m hf
      refine ⟨Bool.eq_false_iff.mpr fun hgm ↦ ?_, ha, hp⟩
      rcases hg m _ hgm with h' | h'
      · exact absurd (h'.symm.trans hf) Bool.noConfusion
      · exact absurd (h'.symm.trans hr) Bool.noConfusion,
    h.lowered⟩
  finalize n e h := ⟨fun m ↦ by
      rw [Engine.modify_data_apply]; split_ifs with hm
      · exact hm ▸ h.slots m
      · exact h.slots m,
    h.lowered⟩

theorem Engine.Blank.settled {e : Engine Nt M} (h : e.Blank) : e.Settled :=
  ⟨fun n _ ↦ by simp [h.slots n], h.lowered⟩

/-- From a blank engine, an empty slot is never ready, active or given a pointer, and every flag
stays lowered. -/
theorem flags_only_on_filled (e₀ : Engine Nt M) (he : e₀.Blank) (ops : List (Op Nt M)) :
    let e := runOps cfg ops e₀
    (∀ n, (e.data n).filled = false →
      (e.data n).ready = false ∧ (e.data n).isActive = false ∧ (e.data n).suppression = none) ∧
    (∀ u, e.suppression u = false) ∧
    (getInfo e).ready ≤ (getInfo e).filled ∧ (getInfo e).active ≤ (getInfo e).filled ∧
      (getInfo e).suppressed ≤ (getInfo e).filled ∧
    ∀ n, replacePath n e = .instrumented → .wrap n (e.data n).wrapId (e.data n).toolId ∈ e.requests := by
  intro e
  have hs := (@stable_settled Nt M cfg).runOps ops _ he.settled
  have hcount (p : GotchaData M → Bool) (hp : ∀ n, p (e.data n) = true → (e.data n).filled = true) :
      ((List.finRange Nt).filter fun i ↦ p (e.data i)).length ≤
        ((List.finRange Nt).filter fun i ↦ (e.data i).filled).length :=
    (List.monotone_filter_right _ hp).length_le
  refine ⟨hs.slots, hs.lowered, hcount _ fun n h ↦ (hs.slots n).filled (.inl h),
    hcount _ fun n h ↦ (hs.slots n).filled (.inr (.inl h)), hcount (fun d ↦ match d.suppression with
      | some u => !e.suppression u
      | none => false) fun n h ↦ ?_, fun n h ↦ ?_⟩
  · refine (hs.slots n).filled (.inr (.inr fun hn ↦ ?_))
    have hn : (e.data n).suppression = none := hn
    simp [hn] at h
  · have hr : (e.data n).ready = true := by simpa [replacePath] using h
    exact ((preserves_runOps ops _ (he.wf cfg)).1 n).requested
      ((hs.slots n).filled (.inl hr))

/-- A permit list, a suppressed name and `default_ready = true`: the first `start()`, then a call
through `wrap<0>`. -/
theorem flags_only_on_filled_malloc :
    let cfg : Config 2 := ⟨id, false, [(0, "malloc", 0, "tool")]⟩
    let e₀ : Engine 2 1 :=
      { Engine.init 2 1 with permitList := ["malloc"], suppresses := ["free"], defaultReady := true }
    let e := runOps cfg [.start 0 false, .call 0 (.mk 0 [] [] [] [])] e₀
    e₀.Blank ∧
    (∀ n, (e.data n).filled = false →
      (e.data n).ready = false ∧ (e.data n).isActive = false ∧ (e.data n).suppression = none) ∧
    (∀ u, e.suppression u = false) ∧
    (getInfo e).ready ≤ (getInfo e).filled ∧ (getInfo e).active ≤ (getInfo e).filled ∧
      (getInfo e).suppressed ≤ (getInfo e).filled ∧
    ∀ n, replacePath n e = .instrumented → .wrap n (e.data n).wrapId (e.data n).toolId ∈ e.requests :=
  ⟨⟨fun _ ↦ rfl, rfl, fun _ ↦ rfl⟩, flags_only_on_filled _ ⟨fun _ ↦ rfl, rfl, fun _ ↦ rfl⟩ _⟩

end Settled

/-! ## Finalization stays -/

section Finalized

variable {cfg : Config Nt}

theorem construct_isFinalized (n m : Fin Nt) (func : String) (priority : Int) (tool : String)
    (t : Fin M) (e : Engine Nt M) :
    ((construct cfg n func priority tool t e).2.data m).isFinalized = (e.data m).isFinalized := by
  by_cases hmn : m = n
  · subst hmn
    by_cases hacc : func ≠ "" ∧ e.permits cfg func = true
    · rw [construct_data_self cfg m func priority tool t e hacc.1 hacc.2]
      dsimp only
      split_ifs <;> simp
    · rw [construct_of_rejected cfg m func priority tool t e hacc]
  · rw [construct_data_of_ne cfg n m func priority tool t e hmn]

theorem stable_finalized (e₀ : Engine Nt M) :
    Stable cfg fun e : Engine Nt M ↦ ∀ n, (e₀.data n).isFinalized = true → (e.data n).isFinalized = true where
  construct n func priority tool t e h m hm := by rw [construct_isFinalized]; exact h m hm
  revert n e h m hm := by
    rw [revert_data]; split_ifs with hmn
    · rw [← hmn.1]; exact h m hm
    · exact h m hm
  frame e e' hd _ _ _ _ h m hm := hd ▸ h m hm
  ready _ e _ h m hm := h m hm
  finalize n e h m hm := by
    rw [Engine.modify_data_apply]; split_ifs with hmn
    · rfl
    · exact h m hm

end Finalized

/-! ## What an operation leaves of the suppression flags and pointers -/

section Pointers

variable {cfg : Config Nt}

/-- No operation moves a suppression flag. -/
theorem stable_flags (S : Fin M → Bool) : Stable cfg fun e : Engine Nt M ↦ e.suppression = S where
  construct n func priority tool t e h := (construct_onlyTable cfg n func priority tool t e).suppression.trans h
  revert n e h := (revert_onlyTable n e).suppression.trans h
  frame _ _ _ hs _ _ _ h := hs.trans h
  ready _ _ _ h := h
  finalize _ _ h := h

theorem construct_pointer (k n : Fin Nt) (func : String) (priority : Int) (tool : String)
    (t : Fin M) (e : Engine Nt M) (h : (e.data n).filled = true) :
    ((construct cfg k func priority tool t e).2.data n).filled = true ∧
      ((construct cfg k func priority tool t e).2.data n).suppression = (e.data n).suppression := by
  by_cases hnk : n = k
  · subst hnk
    by_cases hacc : func ≠ "" ∧ e.permits cfg func = true
    · rw [construct_data_self cfg n func priority tool t e hacc.1 hacc.2]
      simp only [h, if_true]
      split_ifs <;> exact ⟨rfl, rfl⟩
    · rw [construct_of_rejected cfg n func priority tool t e hacc]; exact ⟨h, rfl⟩
  · rw [construct_data_of_ne cfg k n func priority tool t e hnk]; exact ⟨h, rfl⟩

/-- A filled slot stays filled and keeps its suppression pointer. -/
theorem stable_pointer (n : Fin Nt) (p : Option (Fin M)) :
    Stable cfg fun e : Engine Nt M ↦ (e.data n).filled = true ∧ (e.data n).suppression = p where
  construct k func priority tool t e h := by
    rw [← h.2]; exact construct_pointer k n func priority tool t e h.1
  revert k e h := by
    rw [revert_data]; split_ifs with hk
    · rw [← hk.1]; exact h
    · exact h
  frame _ _ hd _ _ _ _ h := hd ▸ h
  ready _ _ _ h := h
  finalize k e h := by
    rw [Engine.modify_data_apply]; split_ifs with hk
    · rw [← hk]; exact h
    · exact h

/-- A slot's suppression pointer is fixed when it is filled, and no operation moves a flag. -/
theorem pointer_fixed_at_fill (ops : List (Op Nt M)) (e : Engine Nt M) (n : Fin Nt)
    (h : (e.data n).filled = true) :
    ((runOps cfg ops e).data n).filled = true ∧
      ((runOps cfg ops e).data n).suppression = (e.data n).suppression ∧
      (runOps cfg ops e).suppression = e.suppression :=
  have hp := (stable_pointer n (e.data n).suppression).runOps ops e ⟨h, rfl⟩
  ⟨hp.1, hp.2, (stable_flags e.suppression).runOps ops e rfl⟩

/-- `malloc` is filled before it is suppressed, then `disable()` and a `configure` on thread `1`. -/
theorem pointer_fixed_at_fill_malloc :
    let cfg : Config 1 := ⟨id, false, []⟩
    let e := runOps cfg [.construct 0 "malloc" 0 "tool" 0] (Engine.init 1 2)
    let ops : List (Op 1 2) :=
      [.addGlobalSuppression "malloc", .disable, .construct 0 "malloc" 0 "tool" 1]
    (e.data 0).filled = true ∧ (((runOps cfg ops e).data 0).filled = true ∧
      ((runOps cfg ops e).data 0).suppression = (e.data 0).suppression ∧
      (runOps cfg ops e).suppression = e.suppression) :=
  ⟨by decide, pointer_fixed_at_fill _ _ 0 (by decide)⟩

/-- The pointer stays null although the symbol is now registered. -/
example :
    let cfg : Config 1 := ⟨id, false, []⟩
    let e := runOps cfg [.construct 0 "malloc" 0 "tool" 0, .addGlobalSuppression "malloc",
      .construct 0 "malloc" 0 "tool" 1] (Engine.init 1 2)
    (e.data 0).suppression = none ∧ "malloc" ∈ e.suppresses := by
  decide

end Pointers

end TimemoryGotcha
