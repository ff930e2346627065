import TimemoryGotcha.Binding

/-!
# Activation: `configure()`, `start()`, `stop()`, `disable()` and `global_finalize()`

`start()` and `stop()` keep two counts of open activations, one for the process and one for the
calling thread. The first `start()` of a thread runs the one-time configuration if it has not
run; a `start()` that finds the process count at zero re-invokes every slot's constructor, and a
thread's first `start()` makes every filled slot ready. `stop()` mirrors this: a thread whose count
returns to zero withdraws readiness from every slot, and a process count back at zero invokes
every destructor. `disable()` finalizes every slot once; `global_finalize()` first drains the
process count and the calling thread's count, each only while it is positive.

Each operation is atomic here: concurrency between the steps of one call is the subject of the
interleaving modules.
-/

namespace TimemoryGotcha

variable {Nt M : Nat}

/-- `get_initializer()()`: the user's initializer, as the `construct` calls it makes. -/
def runInitializer (cfg : Config Nt) (t : Fin M) (e : Engine Nt M) : Engine Nt M :=
  cfg.initializer.foldl (fun e c ↦ (construct cfg c.1 c.2.1 c.2.2.1 c.2.2.2 t e).2) e

/-- `gotcha::configure()`: the caller that finds `is_configured` false under the mutex sets it
and then runs the initializer. -/
def configure (cfg : Config Nt) (t : Fin M) (e : Engine Nt M) : Engine Nt M :=
  if e.isConfigured then e else runInitializer cfg t { e with isConfigured := true }

/-- Call slot `n`'s constructor closure: `construct<N>` with the arguments it captured, or the
default no-op before the slot is filled. -/
def invokeConstructor (cfg : Config Nt) (t : Fin M) (e : Engine Nt M) (n : Fin Nt) :
    Engine Nt M :=
  match (e.data n).constructor with
  | some (func, priority, tool) => (construct cfg n func priority tool t e).2
  | none => e

/-- The loop of `start()` calling the constructor of every slot not finalized. -/
def runConstructors (cfg : Config Nt) (t : Fin M) (e : Engine Nt M) : Engine Nt M :=
  (List.finRange Nt).foldl
    (fun e n ↦ if (e.data n).isFinalized then e else invokeConstructor cfg t e n) e

/-- Call slot `n`'s destructor closure: `revert<N>()`, or the default no-op before the slot is
filled. -/
def invokeDestructor (e : Engine Nt M) (n : Fin Nt) : Engine Nt M :=
  if (e.data n).destructor then (revert n e).2 else e

/-- The loop of `stop()` calling the destructor of every slot not finalized. -/
def runDestructors (e : Engine Nt M) : Engine Nt M :=
  (List.finRange Nt).foldl (fun e n ↦ if (e.data n).isFinalized then e else invokeDestructor e n) e

/-- `gotcha::start()` on thread `t`; `finalizing` is what `storage_type::is_finalizing()`
returns. -/
def start (cfg : Config Nt) (t : Fin M) (finalizing : Bool) (e : Engine Nt M) : Engine Nt M :=
  if finalizing then e
  else
    let n := e.started
    let tc := e.threadStarted t
    let e := { e with started := n + 1, threadStarted := Function.update e.threadStarted t (tc + 1) }
    let e := if tc = 0 ∧ !e.isConfigured then configure cfg t e else e
    let e := if n = 0 then (runConstructors cfg t (configure cfg t e)).record .install else e
    if tc = 0 then e.mapData fun _ d ↦ { d with ready := d.filled } else e

/-- `gotcha::stop()` on thread `t`. -/
def stop (t : Fin M) (e : Engine Nt M) : Engine Nt M :=
  let n := e.started - 1
  let tc := e.threadStarted t - 1
  let e := { e with started := n, threadStarted := Function.update e.threadStarted t tc }
  let e := if tc = 0 then e.mapData fun _ d ↦ { d with ready := false } else e
  if n = 0 then (runDestructors e).record .teardown else e

/-- `gotcha::disable()`: the caller that finds `is_configured` true clears it, then marks every
slot not yet finalized as finalized and calls its destructor. -/
def disable (e : Engine Nt M) : Engine Nt M :=
  if e.isConfigured then
    (List.finRange Nt).foldl
      (fun e n ↦ if (e.data n).isFinalized then e
        else invokeDestructor (e.modify n fun d ↦ { d with isFinalized := true }) n)
      { e with isConfigured := false }
  else e

/-- `while(x > 0) --x;` on a non-negative count. -/
def drainNat : Nat → Nat
  | 0 => 0
  | k + 1 => drainNat k

/-- `while(x > 0) --x;`: a positive count is drained to zero, a negative one is left alone. -/
def drain : Int → Int
  | .ofNat k => .ofNat (drainNat k)
  | .negSucc k => .negSucc k

/-- `gotcha::global_finalize()` on thread `t`. -/
def globalFinalize (t : Fin M) (e : Engine Nt M) : Engine Nt M :=
  disable { e with
    started := drain e.started
    threadStarted := Function.update e.threadStarted t (drain (e.threadStarted t)) }

/-! ## Frame of the activation calls -/

section Frame

variable (cfg : Config Nt) (t : Fin M) (e : Engine Nt M)

theorem runInitializer_onlyTable : e.OnlyTable (runInitializer cfg t e) :=
  .foldl (fun _ _ ↦ construct_onlyTable ..) _ e

theorem invokeConstructor_onlyTable (n : Fin Nt) : e.OnlyTable (invokeConstructor cfg t e n) := by
  unfold invokeConstructor
  split
  · exact construct_onlyTable ..
  · rfl

theorem runConstructors_onlyTable : e.OnlyTable (runConstructors cfg t e) :=
  .foldl (fun _ _ ↦ .ite (.refl _) (invokeConstructor_onlyTable ..)) _ e

theorem invokeDestructor_onlyTable (n : Fin Nt) : e.OnlyTable (invokeDestructor e n) :=
  .ite (revert_onlyTable ..) (.refl _)

theorem runDestructors_onlyTable : e.OnlyTable (runDestructors e) :=
  .foldl (fun _ _ ↦ .ite (.refl _) (invokeDestructor_onlyTable ..)) _ e

theorem configure_onlyTable_or : configure cfg t e = e ∨
    (configure cfg t e).isConfigured = true ∧ Engine.OnlyTable { e with isConfigured := true } (configure cfg t e) := by
  unfold configure
  split
  · exact .inl rfl
  · exact .inr ⟨(runInitializer_onlyTable ..).isConfigured, runInitializer_onlyTable ..⟩

@[simp] theorem configure_started : (configure cfg t e).started = e.started := by
  rcases configure_onlyTable_or cfg t e with h | ⟨-, h⟩
  · rw [h]
  · exact h.started

@[simp] theorem configure_threadStarted (u : Fin M) :
    (configure cfg t e).threadStarted u = e.threadStarted u := by
  rcases configure_onlyTable_or cfg t e with h | ⟨-, h⟩
  · rw [h]
  · rw [h.threadStarted]

@[simp] theorem configure_rounds : (configure cfg t e).rounds = e.rounds := by
  rcases configure_onlyTable_or cfg t e with h | ⟨-, h⟩
  · rw [h]
  · exact h.rounds

@[simp] theorem runConstructors_started : (runConstructors cfg t e).started = e.started :=
  (runConstructors_onlyTable ..).started

@[simp] theorem runConstructors_threadStarted (u : Fin M) :
    (runConstructors cfg t e).threadStarted u = e.threadStarted u := by
  rw [(runConstructors_onlyTable ..).threadStarted]

@[simp] theorem runConstructors_rounds : (runConstructors cfg t e).rounds = e.rounds :=
  (runConstructors_onlyTable ..).rounds

@[simp] theorem runDestructors_started : (runDestructors e).started = e.started :=
  (runDestructors_onlyTable ..).started

@[simp] theorem runDestructors_threadStarted (u : Fin M) :
    (runDestructors e).threadStarted u = e.threadStarted u := by
  rw [(runDestructors_onlyTable ..).threadStarted]

@[simp] theorem runDestructors_rounds : (runDestructors e).rounds = e.rounds :=
  (runDestructors_onlyTable ..).rounds

theorem start_started (fin : Bool) :
    (start cfg t fin e).started = if fin then e.started else e.started + 1 := by
  cases fin
  · simp only [start, Bool.false_eq_true, if_false, apply_ite Engine.started,
      Engine.mapData_started, Engine.record_started, runConstructors_started, configure_started,
      ite_self]
  · rfl

theorem start_threadStarted (fin : Bool) (u : Fin M) :
    (start cfg t fin e).threadStarted u =
      if fin then e.threadStarted u
      else Function.update e.threadStarted t (e.threadStarted t + 1) u := by
  cases fin
  · simp only [start, Bool.false_eq_true, if_false, apply_ite Engine.threadStarted, ite_apply,
      Engine.mapData_threadStarted, Engine.record_threadStarted, runConstructors_threadStarted,
      configure_threadStarted, ite_self]
  · rfl

theorem start_rounds (fin : Bool) :
    (start cfg t fin e).rounds =
      if fin = false ∧ e.started = 0 then e.rounds ++ [.install] else e.rounds := by
  cases fin
  · by_cases h0 : e.started = 0 <;> simp only [start, Bool.false_eq_true, if_false, h0, if_true,
      true_and, and_false, apply_ite Engine.rounds, Engine.mapData_rounds, Engine.record_rounds,
      runConstructors_rounds, configure_rounds, ite_self]
  · rfl

theorem stop_started : (stop t e).started = e.started - 1 := by
  simp only [stop, apply_ite Engine.started, Engine.record_started, runDestructors_started,
    Engine.mapData_started, ite_self]

theorem stop_threadStarted (u : Fin M) :
    (stop t e).threadStarted u = Function.update e.threadStarted t (e.threadStarted t - 1) u := by
  simp only [stop, apply_ite Engine.threadStarted, ite_apply, Engine.record_threadStarted,
    runDestructors_threadStarted, Engine.mapData_threadStarted, ite_self]

theorem stop_rounds :
    (stop t e).rounds = if e.started = 1 then e.rounds ++ [.teardown] else e.rounds := by
  simp only [stop, apply_ite Engine.rounds, Engine.record_rounds, runDestructors_rounds,
    Engine.mapData_rounds, ite_self, Int.sub_eq_zero]

theorem drainNat_eq_zero (k : Nat) : drainNat k = 0 := by
  induction k with
  | zero => rfl
  | succ k ih => exact ih

/-- The loop `while(x > 0) --x;` empties a positive count and leaves any other as it is. -/
theorem drain_eq (x : Int) : drain x = if 0 < x then 0 else x := by
  cases x with
  | ofNat k => cases k <;> simp [drain, drainNat_eq_zero]
  | negSucc k => simp [drain, Int.negSucc_lt_zero]

/-- `disable()` does nothing once unconfigured, and otherwise touches only the table. -/
theorem disable_onlyTable_or :
    disable e = e ∨ Engine.OnlyTable { e with isConfigured := false } (disable e) := by
  unfold disable
  split_ifs
  · exact .inr (.foldl (fun _ _ ↦ .ite (.refl _)
      ((Engine.OnlyTable.modify _ _ _).trans (invokeDestructor_onlyTable ..))) _ _)
  · exact .inl rfl

theorem disable_started : (disable e).started = e.started := by
  rcases disable_onlyTable_or e with h | h
  · rw [h]
  · exact h.started

theorem disable_threadStarted :
    (disable e).threadStarted = e.threadStarted := by
  rcases disable_onlyTable_or e with h | h
  · rw [h]
  · exact h.threadStarted

theorem globalFinalize_started :
    (globalFinalize t e).started = drain e.started :=
  disable_started _

theorem globalFinalize_threadStarted :
    (globalFinalize t e).threadStarted =
      Function.update e.threadStarted t (drain (e.threadStarted t)) :=
  disable_threadStarted _

end Frame

/-! ## Counters do not reach the slot table

`start()` moves its counters before it configures and re-runs the constructors; none of the
table operations reads them. -/

section Counters

variable (cfg : Config Nt) (n : Fin Nt) (func : String) (priority : Int) (tool : String)
  (t : Fin M) (e : Engine Nt M) (s : Int) (ts : Fin M → Int)

theorem revert_counters :
    revert n { e with started := s, threadStarted := ts } =
      ((revert n e).1, { (revert n e).2 with started := s, threadStarted := ts }) := by
  simp only [revert]; split_ifs <;> rfl

theorem activate_counters :
    activate n { e with started := s, threadStarted := ts } =
      { activate n e with started := s, threadStarted := ts } := by
  simp only [activate]; split_ifs <;> rfl

theorem fill_counters :
    fill cfg n func priority tool t { e with started := s, threadStarted := ts } =
      { fill cfg n func priority tool t e with started := s, threadStarted := ts } := rfl

theorem construct_counters :
    construct cfg n func priority tool t { e with started := s, threadStarted := ts } =
      ((construct cfg n func priority tool t e).1,
        { (construct cfg n func priority tool t e).2 with started := s, threadStarted := ts }) := by
  have hfill : (if (e.data n).filled then { e with started := s, threadStarted := ts }
      else fill cfg n func priority tool t { e with started := s, threadStarted := ts }) =
      { (if (e.data n).filled then e else fill cfg n func priority tool t e) with
        started := s, threadStarted := ts } := by
    split_ifs <;> rfl
  by_cases hacc : func ≠ "" ∧ e.permits cfg func = true
  · simp only [construct_of_accepted cfg n func priority tool t e hacc.1 hacc.2,
      construct_of_accepted cfg n func priority tool t { e with started := s, threadStarted := ts }
        hacc.1 hacc.2, hfill, activate_counters]
    split_ifs <;> simp only [revert_counters]
  · rw [construct_of_rejected cfg n func priority tool t e hacc,
      construct_of_rejected cfg n func priority tool t { e with started := s, threadStarted := ts }
        hacc]

theorem runInitializer_counters :
    runInitializer cfg t { e with started := s, threadStarted := ts } =
      { runInitializer cfg t e with started := s, threadStarted := ts } := by
  unfold runInitializer
  induction cfg.initializer generalizing e with
  | nil => rfl
  | cons c l ih => simp only [List.foldl_cons, construct_counters, ih]

theorem configure_counters :
    configure cfg t { e with started := s, threadStarted := ts } =
      { configure cfg t e with started := s, threadStarted := ts } := by
  unfold configure
  split_ifs
  · rfl
  · exact runInitializer_counters cfg t { e with isConfigured := true } s ts

end Counters

theorem configure_isConfigured (cfg : Config Nt) (t : Fin M) (e : Engine Nt M) :
    (configure cfg t e).isConfigured = true := by
  unfold configure
  split_ifs with h
  · exact h
  · exact (runInitializer_onlyTable ..).isConfigured

theorem configure_of_isConfigured (cfg : Config Nt) (t : Fin M) {e : Engine Nt M}
    (h : e.isConfigured = true) : configure cfg t e = e := by
  simp [configure, h]

theorem configure_configure (cfg : Config Nt) (t : Fin M) (e : Engine Nt M) :
    configure cfg t (configure cfg t e) = configure cfg t e :=
  configure_of_isConfigured cfg t (configure_isConfigured cfg t e)

/-! ## First use -/

section FirstUse

variable (cfg : Config Nt) (t : Fin M) (e : Engine Nt M)

theorem invokeConstructor_data_of_ne {n m : Fin Nt} (h : m ≠ n) :
    (invokeConstructor cfg t e n).data m = e.data m := by
  unfold invokeConstructor
  split
  · exact construct_data_of_ne _ _ _ _ _ _ _ _ h
  · rfl

/-- Slot `n` after the constructor loop is what its own constructor makes of it. -/
theorem runConstructors_data (n : Fin Nt) : ∃ e', e.OnlyTable e' ∧ e'.data n = e.data n ∧
    (runConstructors cfg t e).data n =
      (if (e'.data n).isFinalized then e' else invokeConstructor cfg t e' n).data n :=
  Engine.foldl_finRange_data (fun _ _ ↦ .ite (.refl _) (invokeConstructor_onlyTable ..))
    (fun e i m h ↦ by split_ifs <;> simp [invokeConstructor_data_of_ne _ _ _ h]) e n

/-- The constructor loop leaves a filled slot whose constructor re-constructs a permitted symbol
active exactly when the slot was ready. -/
theorem runConstructors_isActive {n : Fin Nt} {func : String} {priority : Int} {tool : String}
    (hfill : (e.data n).filled) (hfin : (e.data n).isFinalized = false)
    (hctor : (e.data n).constructor = some (func, priority, tool)) (hf : func ≠ "")
    (hp : e.permits cfg func) : ((runConstructors cfg t e).data n).isActive = (e.data n).ready := by
  obtain ⟨e', hT, hd, hrun⟩ := runConstructors_data cfg t e n
  have hp' : e'.permits cfg func := by rw [permits_of_onlyTable cfg hT]; exact hp
  rw [hrun, hd, if_neg (by simp [hfin]), invokeConstructor, hd, hctor]
  dsimp only
  rw [construct_data_self _ _ _ _ _ _ _ hf hp', hd, if_pos hfill]
  dsimp only
  split_ifs <;> simp_all

/-- A `start()` finding `started = 0` re-runs every constructor before granting readiness; a slot
ends active exactly when it was ready then. -/
theorem start_first_use (h0 : e.started = 0) :
    (e.threadStarted t = 0 → ∀ n, ((start cfg t false e).data n).filled →
      ((start cfg t false e).data n).ready) ∧
    ∀ n func priority tool, ((configure cfg t e).data n).filled →
      ((configure cfg t e).data n).isFinalized = false →
      ((configure cfg t e).data n).constructor = some (func, priority, tool) → func ≠ "" →
      e.permits cfg func →
      ((start cfg t false e).data n).isActive = ((configure cfg t e).data n).ready := by
  constructor
  · intro ht n
    simp only [start, h0, ht]
    simp
  · intro n func priority tool hfill hfin hctor hf hp
    have hpre : ∀ e₁ : Engine Nt M, (e₁.data n).isActive =
        ((if e.threadStarted t = 0 then e₁.mapData fun _ d ↦ { d with ready := d.filled }
          else e₁).data n).isActive := by
      intro e₁; split_ifs <;> simp
    have hcfg : ∀ (c : Prop) [Decidable c] (E : Engine Nt M),
        configure cfg t (if c then configure cfg t E else E) = configure cfg t E := by
      intro c _ E; split_ifs <;> simp [configure_configure]
    have hpc : (configure cfg t e).permits cfg func := by
      rcases configure_onlyTable_or cfg t e with h | ⟨-, h⟩
      · rw [h]; exact hp
      · rw [permits_of_onlyTable cfg h]; exact hp
    simp only [start, h0, if_true, Bool.false_eq_true, if_false]
    rw [← hpre, Engine.record_data, hcfg, configure_counters]
    exact runConstructors_isActive cfg t _ hfill hfin hctor hf hpc

/-- `start_first_use` for the first `start()` of a program whose initializer fills slot `0`. -/
theorem start_first_use_malloc :
    let cfg : Config 1 := ⟨id, false, [(0, "malloc", 0, "tool")]⟩
    let e : Engine 1 1 := Engine.init 1 1
    e.started = 0 ∧
      ((e.threadStarted 0 = 0 → ∀ n, ((start cfg 0 false e).data n).filled →
        ((start cfg 0 false e).data n).ready) ∧
      ∀ n func priority tool, ((configure cfg 0 e).data n).filled →
        ((configure cfg 0 e).data n).isFinalized = false →
        ((configure cfg 0 e).data n).constructor = some (func, priority, tool) → func ≠ "" →
        e.permits cfg func →
        ((start cfg 0 false e).data n).isActive = ((configure cfg 0 e).data n).ready) :=
  ⟨rfl, start_first_use _ _ _ rfl⟩

/-- The first `start()` under `default_ready = false`: slot `0` ends filled and ready but
inactive. -/
theorem start_leaves_malloc_inactive :
    let e := start ⟨id, false, [(0, "malloc", 0, "tool")]⟩ (0 : Fin 1) false (Engine.init 1 1)
    (Engine.init 1 1 : Engine 1 1).started = 0 ∧ (e.data 0).filled = true ∧
      (e.data 0).isFinalized = false ∧ (e.data 0).ready = true ∧ (e.data 0).isActive = false := by
  decide

end FirstUse

/-! ## The last `stop()` -/

section LastStop

variable (t : Fin M) (e : Engine Nt M)

theorem invokeDestructor_data (n m : Fin Nt) : (invokeDestructor e n).data m =
    if m = n ∧ (e.data n).destructor ∧ (e.data n).filled ∧ (e.data n).isActive then
      { e.data n with isActive := false, ready := revertReady e (e.data n).toolId }
    else e.data m := by
  by_cases hd : (e.data n).destructor
  · simp only [invokeDestructor, hd, if_true, revert_data, true_and]
  · simp [invokeDestructor, hd]

/-- The destructor loop reverts each active slot not finalized whose destructor is assigned. -/
theorem runDestructors_data (n : Fin Nt) : (runDestructors e).data n =
    if (e.data n).isFinalized = false ∧ (e.data n).destructor ∧ (e.data n).filled ∧
      (e.data n).isActive then
      { e.data n with isActive := false, ready := revertReady e (e.data n).toolId }
    else e.data n := by
  obtain ⟨e', he', hd, hfold⟩ := Engine.foldl_finRange_data
    (f := fun e n ↦ if (e.data n).isFinalized then e else invokeDestructor e n)
    (fun _ _ ↦ .ite (.refl _) (invokeDestructor_onlyTable ..))
    (fun e i m hm ↦ by dsimp only; split_ifs <;> simp [invokeDestructor_data, hm]) e n
  rw [runDestructors, hfold]
  dsimp only
  rw [← hd, ← revertReady_of_onlyTable he']
  by_cases hfin : (e'.data n).isFinalized <;> simp [hfin, invokeDestructor_data]

/-- The last `stop()` withdraws every slot's readiness, then reverts each active slot, which
readies it again under `default_ready`. -/
theorem last_stop_readies (hn : e.started - 1 = 0) (ht : e.threadStarted t - 1 = 0) (n : Fin Nt) :
    (stop t e).data n =
      if (e.data n).isFinalized = false ∧ (e.data n).destructor ∧ (e.data n).filled ∧
        (e.data n).isActive then
        { e.data n with isActive := false, ready := revertReady e (e.data n).toolId }
      else { e.data n with ready := false } := by
  simp only [stop, hn, ht, if_true, Engine.record_data, runDestructors_data, Engine.mapData_data]
  rfl

example :
    let e := stop 0 (start ⟨id, false, [(0, "malloc", 0, "tool")]⟩ (0 : Fin 1) false
      { Engine.init 1 1 with defaultReady := true })
    e.started = 0 ∧ e.threadStarted 0 = 0 ∧ (e.data 0).ready = true ∧ (e.data 0).isActive = false := by
  decide

end LastStop

section Disable

variable (e : Engine Nt M)

theorem disable_of_not_configured (h : e.isConfigured = false) : disable e = e := by
  simp [disable, h]

theorem disable_isConfigured : (disable e).isConfigured = false := by
  cases h : e.isConfigured
  · rw [disable_of_not_configured e h, h]
  · rw [disable, if_pos h]
    exact (Engine.OnlyTable.foldl (fun _ _ ↦ .ite (.refl _)
      ((Engine.OnlyTable.modify ..).trans (invokeDestructor_onlyTable ..))) _ _).isConfigured

/-- The loop of `disable()` finalizes each slot not yet finalized and reverts it if active. -/
theorem disable_data (h : e.isConfigured = true) (n : Fin Nt) : (disable e).data n =
    if (e.data n).isFinalized then e.data n
    else if (e.data n).destructor ∧ (e.data n).filled ∧ (e.data n).isActive then
      { e.data n with isFinalized := true, isActive := false,
                      ready := revertReady e (e.data n).toolId }
    else { e.data n with isFinalized := true } := by
  obtain ⟨e', he', hd, hfold⟩ := Engine.foldl_finRange_data
    (f := fun e n ↦ if (e.data n).isFinalized then e
      else invokeDestructor (e.modify n fun d ↦ { d with isFinalized := true }) n)
    (fun _ _ ↦ .ite (.refl _) ((Engine.OnlyTable.modify ..).trans (invokeDestructor_onlyTable ..)))
    (fun e i m hm ↦ by
      dsimp only; split_ifs <;> simp [invokeDestructor_data, Engine.modify_data_apply, hm])
    { e with isConfigured := false } n
  rw [disable, if_pos h, hfold]
  dsimp only at hd ⊢
  rw [← hd]
  have hr : revertReady (e'.modify n fun d ↦ { d with isFinalized := true }) = revertReady e :=
    (revertReady_of_onlyTable ((he'.trans (Engine.OnlyTable.modify ..)))).trans
      (revertReady_of_onlyTable ⟨rfl, rfl, rfl, rfl, rfl, rfl, rfl, rfl, rfl, List.prefix_refl _⟩).symm
  by_cases hfin : (e'.data n).isFinalized
  · simp [hfin]
  · simp [hfin, invokeDestructor_data, Engine.modify_data_apply, hr]

end Disable

end TimemoryGotcha
