import TimemoryGotcha.Activation
import Mathlib.Algebra.BigOperators.Ring
import Mathlib.Algebra.Order.BigOperators.Group.Finset
import Mathlib.Data.Fintype.BigOperators
import Mathlib.Tactic.Abel
import Mathlib.Algebra.Order.Group.Int

/-!
# Nested activations over any interleaving of threads

Threads call `start()`, `stop()` and `thread_init()` in any order, each one atomic step, a
thread's `stop()` closing a `start()` of its own. The process count is always the sum of the
threads' counts, and the constructor and destructor rounds alternate, an install in force exactly
while it is positive. With no `start()` skipped because storage is finalizing, a thread's count is
its number of open scopes; a skipped `start()` does not count while its `stop()` does, so a
teardown can come while another thread has a scope open.

Readiness is one flag per slot shared by all threads. An outermost `start()` readies every filled
slot. While another thread has a scope open, a `stop()` closing its own thread's last scope, or a
`thread_init()` under `default_ready = false`, withdraws it from every thread; the last `stop()` of
all can ready slots again, as its destructors revert them.

`global_finalize()` drains only positive counts, and only the caller's: a negative count survives
it, and so does another thread's open scope.
-/

namespace TimemoryGotcha

variable {Nt M : Nat}

/-- One atomic call of a thread to the activation machine. -/
inductive ThreadCall (M : Nat) where
  | start (t : Fin M) (finalizing : Bool)
  | stop (t : Fin M)
  | threadInit (t : Fin M)
  deriving DecidableEq, Repr

/-- The engine after one call. -/
def ThreadCall.apply (cfg : Config Nt) (e : Engine Nt M) : ThreadCall M → Engine Nt M
  | .start t finalizing => TimemoryGotcha.start cfg t finalizing e
  | .stop t => TimemoryGotcha.stop t e
  | .threadInit _ => TimemoryGotcha.threadInit e

/-- The thread making a call. -/
def ThreadCall.thread : ThreadCall M → Fin M
  | .start t _ => t
  | .stop t => t
  | .threadInit t => t

/-- How far a call moves its thread's count and the process count. -/
def ThreadCall.delta : ThreadCall M → Int
  | .start _ finalizing => if finalizing then 0 else 1
  | .stop _ => -1
  | .threadInit _ => 0

/-- The round a call runs as it moves `started` from 0 to 1, or from 1 to 0. -/
def ThreadCall.round (e : Engine Nt M) (c : ThreadCall M) : List Round :=
  if e.started = 0 ∧ c.delta = 1 then [.install]
  else if e.started = 1 ∧ c.delta = -1 then [.teardown]
  else []

/-- The engine together with each thread's number of open `start()` calls. -/
structure Activity (Nt M : Nat) where
  engine : Engine Nt M
  opened : Fin M → Nat

/-- One call, with its thread's open calls counted: `stop()` closes the innermost one. -/
def Activity.step (cfg : Config Nt) (a : Activity Nt M) : ThreadCall M → Activity Nt M
  | .start t finalizing =>
    ⟨start cfg t finalizing a.engine, Function.update a.opened t (a.opened t + 1)⟩
  | .stop t => ⟨stop t a.engine, Function.update a.opened t (a.opened t - 1)⟩
  | .threadInit _ => ⟨threadInit a.engine, a.opened⟩

/-- `stop()` closes a `start()` of its own, `thread_init()` finds nothing open, and no `start()` is
skipped unless `skips`. -/
def Activity.Allowed (skips : Bool) (a : Activity Nt M) : ThreadCall M → Prop
  | .start _ finalizing => finalizing = true → skips = true
  | .stop t => 0 < a.opened t
  | .threadInit t => a.opened t = 0

/-- The states reached from an engine with no activation counted and no round run. -/
inductive Activity.Reachable (cfg : Config Nt) (skips : Bool) : Activity Nt M → Prop
  | init (e : Engine Nt M) (hs : e.started = 0) (ht : ∀ t, e.threadStarted t = 0)
      (hr : e.rounds = []) : Activity.Reachable cfg skips ⟨e, fun _ ↦ 0⟩
  | step {a : Activity Nt M} (c : ThreadCall M) :
      Activity.Reachable cfg skips a → a.Allowed skips c →
      Activity.Reachable cfg skips (a.step cfg c)

/-- The `k`-th round of a run whose rounds alternate, installs first. -/
def Round.nth (k : Nat) : Round := if k % 2 = 0 then .install else .teardown

/-- Install and teardown rounds strictly alternate, beginning with an install. -/
def Alternates (rounds : List Round) : Prop :=
  rounds = (List.range rounds.length).map Round.nth

/-! ## Counting -/

section Counting

variable {cfg : Config Nt} {skips : Bool} {a : Activity Nt M}

theorem sum_update_add (f : Fin M → Int) (t : Fin M) (d : Int) :
    ∑ u, Function.update f t (f t + d) u = ∑ u, f u + d := by
  rw [Finset.sum_update_of_mem (Finset.mem_univ t),
    Finset.sum_eq_add_sum_diff_singleton (Finset.mem_univ t) f]
  abel

theorem alternates_append {rounds : List Round} (h : Alternates rounds) :
    Alternates (rounds ++ [Round.nth rounds.length]) := by
  unfold Alternates at *
  rw [List.length_append, List.length_singleton, List.range_succ, List.map_append, ← h]
  rfl

theorem apply_started (c : ThreadCall M) (e : Engine Nt M) :
    (c.apply cfg e).started = e.started + c.delta := by
  cases c with
  | start t finalizing =>
    cases finalizing <;> simp only [ThreadCall.apply, ThreadCall.delta, start_started,
      Bool.false_eq_true, if_true, if_false, add_zero]
  | stop t => exact (stop_started t e).trans (sub_eq_add_neg _ _)
  | threadInit t => exact (add_zero _).symm

theorem apply_threadStarted (c : ThreadCall M) (e : Engine Nt M) (u : Fin M) :
    (c.apply cfg e).threadStarted u =
      Function.update e.threadStarted c.thread (e.threadStarted c.thread + c.delta) u := by
  cases c with
  | start t finalizing =>
    cases finalizing <;> simp only [ThreadCall.apply, ThreadCall.delta, ThreadCall.thread,
      start_threadStarted, Bool.false_eq_true, if_true, if_false, add_zero,
      Function.update_eq_self]
  | stop t => exact (stop_threadStarted t e u).trans (by rw [sub_eq_add_neg]; rfl)
  | threadInit t => simp only [ThreadCall.delta, add_zero, Function.update_eq_self]; rfl

theorem apply_rounds (c : ThreadCall M) (e : Engine Nt M) :
    (c.apply cfg e).rounds = e.rounds ++ c.round e := by
  cases c with
  | start t finalizing =>
    cases finalizing
    · by_cases h : e.started = 0 <;> simp only [ThreadCall.apply, ThreadCall.round,
        ThreadCall.delta, start_rounds, h, Int.reduceEq, true_and, and_true, and_false,
        if_true, if_false, Bool.false_eq_true, false_and, List.append_nil]
    · simp only [ThreadCall.apply, ThreadCall.round, ThreadCall.delta, start_rounds,
        Int.reduceEq, if_true, Bool.true_eq_false, false_and, and_false, if_false,
        List.append_nil]
  | stop t =>
    by_cases h : e.started = 1 <;> simp only [ThreadCall.apply, ThreadCall.round,
      ThreadCall.delta, stop_rounds, h, Int.reduceEq, if_true, if_false, and_true,
      and_false, false_and, List.append_nil]
  | threadInit t =>
    simp only [ThreadCall.round, ThreadCall.delta, Int.reduceEq, and_false, if_false,
      List.append_nil]
    rfl

theorem step_engine (a : Activity Nt M) (c : ThreadCall M) :
    (a.step cfg c).engine = c.apply cfg a.engine := by
  cases c <;> rfl

/-- What every reachable state satisfies. -/
structure Counted (skips : Bool) (a : Activity Nt M) : Prop where
  sum : a.engine.started = ∑ t, a.engine.threadStarted t
  alternates : Alternates a.engine.rounds
  installed : a.engine.rounds.length % 2 = 1 ↔ 0 < a.engine.started
  opened : skips = false → ∀ t, a.engine.threadStarted t = a.opened t

theorem counted_init (e : Engine Nt M) (hs : e.started = 0) (ht : ∀ t, e.threadStarted t = 0)
    (hr : e.rounds = []) : Counted skips ⟨e, fun _ ↦ 0⟩ where
  sum := by simp [hs, ht]
  alternates := by simp [hr, Alternates]
  installed := by simp [hr, hs]
  opened _ t := by simp [ht]

theorem step_opened_of_ne (a : Activity Nt M) (c : ThreadCall M) {u : Fin M}
    (hu : u ≠ c.thread) : (a.step cfg c).opened u = a.opened u := by
  cases c with
  | start t _ => exact Function.update_noteq hu _ _
  | stop t => exact Function.update_noteq hu _ _
  | threadInit t => rfl

theorem step_opened_self (a : Activity Nt M) (c : ThreadCall M) (hc : a.Allowed false c) :
    ((a.step cfg c).opened c.thread : Int) = a.opened c.thread + c.delta := by
  cases c with
  | start t finalizing =>
    cases finalizing
    · simp only [Activity.step, ThreadCall.thread, ThreadCall.delta, Function.update_same,
        Bool.false_eq_true, if_false, Nat.cast_add, Nat.cast_one]
    · exact absurd (hc rfl) (by decide)
  | stop t =>
    have ht : 0 < a.opened t := hc
    simp only [Activity.step, ThreadCall.thread, ThreadCall.delta, Function.update_same]
    omega
  | threadInit t => exact (add_zero _).symm

theorem counted_step (h : Counted skips a) (c : ThreadCall M) (hc : a.Allowed skips c) :
    Counted skips (a.step cfg c) := by
  obtain ⟨hsum, halt, hinst, hopen⟩ := h
  have hδ : c.delta = -1 ∨ c.delta = 0 ∨ c.delta = 1 := by
    rcases c with ⟨_, _ | _⟩ | _ | _ <;> simp only [ThreadCall.delta, if_true, if_false,
      Bool.false_eq_true, Int.reduceEq, or_true, true_or]
  refine ⟨?_, ?_, ?_, ?_⟩ <;> simp only [step_engine]
  · simp only [apply_started, apply_threadStarted, sum_update_add, hsum]
  · rw [apply_rounds, ThreadCall.round]
    split_ifs with h₁ h₂
    · have hlen : a.engine.rounds.length % 2 = 0 := by omega
      rw [show Round.install = Round.nth a.engine.rounds.length by simp [Round.nth, hlen]]
      exact alternates_append halt
    · have hlen : a.engine.rounds.length % 2 = 1 := hinst.mpr (by omega)
      rw [show Round.teardown = Round.nth a.engine.rounds.length by simp [Round.nth, hlen]]
      exact alternates_append halt
    · simpa using halt
  · rw [apply_rounds, apply_started, ThreadCall.round]
    rcases hδ with hδ | hδ | hδ <;> simp only [hδ, Int.reduceEq, and_true, and_false,
      if_false] <;> (try split_ifs) <;> simp only [List.length_append,
      List.length_singleton, List.length_nil, add_zero] <;> omega
  · intro hs u
    rw [apply_threadStarted]
    by_cases hu : u = c.thread
    · subst hu
      rw [Function.update_same, hopen hs, step_opened_self a c (hs ▸ hc)]
    · rw [Function.update_noteq hu, hopen hs, step_opened_of_ne a c hu]

theorem Activity.Reachable.counted (h : a.Reachable cfg skips) : Counted skips a := by
  induction h with
  | init e hs ht hr => exact counted_init e hs ht hr
  | step c _ hc ih => exact counted_step ih c hc

/-- The counts balance and the install and teardown rounds alternate; with no skipped `start()`,
counts are open scopes. -/
theorem activation_counting (h : a.Reachable cfg skips) :
    a.engine.started = ∑ t, a.engine.threadStarted t ∧
    (∀ c : ThreadCall M, (c.apply cfg a.engine).rounds = a.engine.rounds ++ c.round a.engine) ∧
    Alternates a.engine.rounds ∧
    (a.engine.rounds.length % 2 = 1 ↔ 0 < a.engine.started) ∧
    (skips = false → (∀ t, a.engine.threadStarted t = a.opened t) ∧
      (a.engine.rounds.length % 2 = 1 ↔ ∃ t, 0 < a.opened t)) := by
  obtain ⟨hsum, halt, hinst, hopen⟩ := h.counted
  refine ⟨hsum, fun c ↦ apply_rounds c a.engine, halt, hinst, fun hs ↦ ⟨hopen hs, ?_⟩⟩
  rw [hinst, hsum, Finset.sum_congr rfl fun t _ ↦ hopen hs t, ← Nat.cast_sum, Int.natCast_pos,
    Nat.pos_iff_ne_zero, Ne, Finset.sum_eq_zero_iff]
  simp [Nat.pos_iff_ne_zero]

/-- `activation_counting` after two threads each open a scope and the first closes it. -/
theorem activation_counting_two_threads :
    let cfg : Config 0 := ⟨id, false, []⟩
    let a₀ : Activity 0 2 := ⟨Engine.init 0 2, fun _ ↦ 0⟩
    let a := ((a₀.step cfg (.start 0 false)).step cfg (.start 1 false)).step cfg (.stop 0)
    a.Reachable cfg false ∧
      (a.engine.started = ∑ t, a.engine.threadStarted t ∧
      (∀ c : ThreadCall 2, (c.apply cfg a.engine).rounds = a.engine.rounds ++ c.round a.engine) ∧
      Alternates a.engine.rounds ∧
      (a.engine.rounds.length % 2 = 1 ↔ 0 < a.engine.started) ∧
      (false = false → (∀ t, a.engine.threadStarted t = a.opened t) ∧
        (a.engine.rounds.length % 2 = 1 ↔ ∃ t, 0 < a.opened t))) := by
  intro cfg a₀ a
  have h : a.Reachable cfg false :=
    .step _ (.step _ (.step _ (.init _ rfl (fun _ ↦ rfl) rfl) id) id) (by show 0 < _; decide)
  exact ⟨h, activation_counting h⟩

/-- A skipped `start()` and its `stop()` tear down while another thread's `start()` is open. -/
theorem skipped_start_tears_down :
    let cfg : Config 0 := ⟨id, false, []⟩
    let a₀ : Activity 0 2 := ⟨Engine.init 0 2, fun _ ↦ 0⟩
    let a := ((a₀.step cfg (.start 0 true)).step cfg (.start 1 false)).step cfg (.stop 0)
    a.Reachable cfg true ∧ a.engine.threadStarted 0 = -1 ∧ a.opened 1 = 1 ∧
      a.engine.rounds = [.install, .teardown] :=
  ⟨.step _ (.step _ (.step _ (.init _ rfl (fun _ ↦ rfl) rfl) (fun _ ↦ rfl)) (fun _ ↦ rfl))
    (by show 0 < _; decide), by decide, by decide, by decide⟩

end Counting

/-! ## Readiness -/

section Readiness

variable {cfg : Config Nt} {a : Activity Nt M}

/-- Every filled slot is ready. -/
def Engine.Granted (e : Engine Nt M) : Prop := ∀ n, (e.data n).filled → (e.data n).ready

/-- Whether a call takes readiness from every slot: an outermost `stop()`, or `thread_init()`
without `default_ready`. -/
def ThreadCall.withdraws (e : Engine Nt M) : ThreadCall M → Bool
  | .start _ _ => false
  | .stop t => e.threadStarted t = 1
  | .threadInit _ => !e.defaultReady

/-- The activity after calls `cs`, in order. -/
def Activity.run (cfg : Config Nt) (a : Activity Nt M) (cs : List (ThreadCall M)) :
    Activity Nt M :=
  cs.foldl (Activity.step cfg) a

/-- Calls made one after another from `a`, each allowed and none withdrawing readiness. -/
inductive Activity.Quiet (cfg : Config Nt) : Activity Nt M → List (ThreadCall M) → Prop
  | nil (a : Activity Nt M) : Activity.Quiet cfg a []
  | cons {a : Activity Nt M} {c : ThreadCall M} {cs : List (ThreadCall M)} :
      a.Allowed false c → c.withdraws a.engine = false → Activity.Quiet cfg (a.step cfg c) cs →
      Activity.Quiet cfg a (c :: cs)

theorem Counted.threadStarted_nonneg (h : Counted false a) (t : Fin M) :
    0 ≤ a.engine.threadStarted t := by
  rw [h.opened rfl t]; exact Int.natCast_nonneg _

theorem Counted.threadStarted_le_started (h : Counted false a) (t : Fin M) :
    a.engine.threadStarted t ≤ a.engine.started := by
  rw [h.sum]
  exact Finset.single_le_sum (f := a.engine.threadStarted) (fun u _ ↦ h.threadStarted_nonneg u)
    (Finset.mem_univ t)

/-- Two threads with open scopes hold the process count at two or more. -/
theorem Counted.two_le_started (h : Counted false a) {t u : Fin M} (hne : u ≠ t)
    (ht : 0 < a.opened t) (hu : 0 < a.opened u) : 2 ≤ a.engine.started := by
  have hsum : a.engine.threadStarted t + a.engine.threadStarted u ≤ a.engine.started := by
    rw [h.sum, ← Finset.sum_pair (Ne.symm hne)]
    exact Finset.sum_le_sum_of_subset_of_nonneg (f := a.engine.threadStarted) (Finset.subset_univ _)
      fun v _ _ ↦ h.threadStarted_nonneg v
  rw [h.opened rfl t] at hsum
  rw [h.opened rfl u] at hsum
  omega

/-- A thread's outermost `start()` makes every filled slot ready. -/
theorem start_granted (t : Fin M) (e : Engine Nt M) (ht : e.threadStarted t = 0) :
    (start cfg t false e).Granted := by
  intro n
  simp only [start, ht]
  simp

/-- Every allowed call that does not withdraw readiness keeps every filled slot ready. -/
theorem granted_step (hc : Counted false a) {c : ThreadCall M} (hal : a.Allowed false c)
    (hw : c.withdraws a.engine = false) (hg : a.engine.Granted) :
    (a.step cfg c).engine.Granted := by
  rw [step_engine]
  cases c with
  | start t finalizing =>
    cases finalizing
    · by_cases ht : a.engine.threadStarted t = 0
      · exact start_granted t _ ht
      · have hn : a.engine.started ≠ 0 := by
          have := hc.threadStarted_le_started t
          have := hc.threadStarted_nonneg t
          omega
        simpa [ThreadCall.apply, start, ht, hn] using hg
    · exact absurd (hal rfl) (by decide)
  | stop t =>
    have ht : 1 < a.engine.threadStarted t := by
      have hal : 0 < a.opened t := hal
      simp only [ThreadCall.withdraws, decide_eq_false_iff_not] at hw
      rw [hc.opened rfl t] at hw ⊢; omega
    have hn : a.engine.started - 1 ≠ 0 := by
      have := hc.threadStarted_le_started t; omega
    simpa [ThreadCall.apply, stop, hn, show a.engine.threadStarted t - 1 ≠ 0 by omega] using hg
  | threadInit t =>
    simp only [ThreadCall.withdraws, Bool.not_eq_false'] at hw
    intro n hn
    simpa [ThreadCall.apply, threadInit, hw] using hn

theorem granted_run {cs : List (ThreadCall M)} (hq : Activity.Quiet cfg a cs)
    (h : a.Reachable cfg false) (hg : a.engine.Granted) : (Activity.run cfg a cs).engine.Granted := by
  induction hq with
  | nil => exact hg
  | cons hal hw _ ih => exact ih (h.step _ hal) (granted_step h.counted hal hw hg)

/-- A withdrawing call made while another thread has a scope open leaves no slot ready. -/
theorem withdraw_step (hc : Counted false a) {c : ThreadCall M} (hal : a.Allowed false c)
    (hw : c.withdraws a.engine = true) (hother : ∃ u, u ≠ c.thread ∧ 0 < a.opened u)
    (n : Fin Nt) : ((a.step cfg c).engine.data n).ready = false := by
  rw [step_engine]
  cases c with
  | start t finalizing => simp [ThreadCall.withdraws] at hw
  | stop t =>
    obtain ⟨u, hne, hu⟩ := hother
    have h2 := hc.two_le_started hne hal hu
    simp only [ThreadCall.withdraws, decide_eq_true_eq] at hw
    simp [ThreadCall.apply, stop, hw, show a.engine.started - 1 ≠ 0 by omega]
  | threadInit t =>
    simp only [ThreadCall.withdraws, Bool.not_eq_true'] at hw
    simp [ThreadCall.apply, threadInit, hw]

/-- Every filled slot stays ready until a withdrawing call, which leaves none ready while another
thread has a scope open. -/
theorem readiness_shared (h : a.Reachable cfg false) :
    (∀ t cs, a.opened t = 0 → Activity.Quiet cfg (a.step cfg (.start t false)) cs →
      (Activity.run cfg (a.step cfg (.start t false)) cs).engine.Granted) ∧
    ∀ c, a.Allowed false c → c.withdraws a.engine = true →
      (∃ u, u ≠ c.thread ∧ 0 < a.opened u) → ∀ n, ((a.step cfg c).engine.data n).ready = false := by
  refine ⟨fun t cs ht hq ↦ granted_run hq (h.step _ (fun h ↦ h)) ?_,
    fun c hal hw hother ↦ withdraw_step h.counted hal hw hother⟩
  rw [step_engine]
  exact start_granted t _ (by rw [h.counted.opened rfl t, ht]; rfl)

/-- `readiness_shared` before any call, on a program whose initializer fills slot `0`. -/
theorem readiness_shared_malloc :
    let cfg : Config 1 := ⟨id, false, [(0, "malloc", 0, "tool")]⟩
    let a : Activity 1 2 := ⟨Engine.init 1 2, fun _ ↦ 0⟩
    a.Reachable cfg false ∧
      ((∀ t cs, a.opened t = 0 → Activity.Quiet cfg (a.step cfg (.start t false)) cs →
        (Activity.run cfg (a.step cfg (.start t false)) cs).engine.Granted) ∧
      ∀ c, a.Allowed false c → c.withdraws a.engine = true →
        (∃ u, u ≠ c.thread ∧ 0 < a.opened u) →
        ∀ n, ((a.step cfg c).engine.data n).ready = false) := by
  intro cfg a
  have h : a.Reachable cfg false := .init _ rfl (fun _ ↦ rfl) rfl
  exact ⟨h, readiness_shared h⟩

/-- Thread `1` closes its scope and slot `0` is no longer ready, although thread `0`'s scope is
open. -/
theorem stop_withdraws_other_thread :
    let cfg : Config 1 := ⟨id, false, [(0, "malloc", 0, "tool")]⟩
    let a₀ : Activity 1 2 := ⟨Engine.init 1 2, fun _ ↦ 0⟩
    let a := ((a₀.step cfg (.start 0 false)).step cfg (.start 1 false)).step cfg (.stop 1)
    a.Reachable cfg false ∧ 0 < a.engine.threadStarted 0 ∧ (a.engine.data 0).filled = true ∧
      (a.engine.data 0).isFinalized = false ∧ "malloc" ∉ a.engine.suppresses ∧
      (a.engine.data 0).ready = false := by
  intro cfg a₀ a
  exact ⟨.step _ (.step _ (.step _ (.init _ rfl (fun _ ↦ rfl) rfl) id) id)
    (by show 0 < _; decide), by decide, by decide, by decide, by decide, by decide⟩

end Readiness

/-! ## Global finalization -/

/-- `global_finalize()` drains the positive process count and the caller's count only. -/
theorem globalFinalize_drains (t : Fin M) (e : Engine Nt M) :
    (globalFinalize t e).started = (if 0 < e.started then 0 else e.started) ∧
    (globalFinalize t e).threadStarted t =
      (if 0 < e.threadStarted t then 0 else e.threadStarted t) ∧
    (∀ u, u ≠ t → (globalFinalize t e).threadStarted u = e.threadStarted u) ∧
    (0 ≤ e.started → 0 ≤ e.threadStarted t → (∀ u, u ≠ t → e.threadStarted u = 0) →
      (globalFinalize t e).started = 0 ∧
        (globalFinalize t e).started = ∑ u, (globalFinalize t e).threadStarted u) := by
  have hts (u : Fin M) : (globalFinalize t e).threadStarted u =
      if u = t then (if 0 < e.threadStarted t then 0 else e.threadStarted t)
      else e.threadStarted u := by
    rw [globalFinalize_threadStarted, Function.update_apply, drain_eq]
  refine ⟨by rw [globalFinalize_started, drain_eq], by simp [hts], fun u hu ↦ by simp [hts, hu],
    fun hs ht hother ↦ ?_⟩
  have hzero (u : Fin M) : (globalFinalize t e).threadStarted u = 0 := by
    rw [hts]
    split_ifs with hu hpos
    · rfl
    · omega
    · exact hother u hu
  have hstarted : (globalFinalize t e).started = 0 := by
    rw [globalFinalize_started, drain_eq]
    split_ifs <;> omega
  exact ⟨hstarted, by rw [hstarted, Finset.sum_eq_zero fun u _ ↦ hzero u]⟩

/-- `global_finalize()` keeps a count of `-1`, and leaves another thread's open scope counted. -/
theorem global_finalize_leaves_imbalance :
    (globalFinalize 0 (stop 0 (Engine.init 0 1))).started = -1 ∧
    (globalFinalize 0 (start ⟨id, false, []⟩ 1 false
      (start ⟨id, false, []⟩ 0 false (Engine.init 0 2)))).started = 0 ∧
    ∑ u, (globalFinalize 0 (start ⟨id, false, []⟩ 1 false
      (start ⟨id, false, []⟩ (0 : Fin 2) false (Engine.init 0 2)))).threadStarted u = 1 := by
  decide

section Finalize

variable {cfg : Config Nt} {a : Activity Nt M}

/-- With matched calls, `global_finalize()` zeroes the process count, balancing exactly when no
other thread has a scope open. -/
theorem globalFinalize_balance (h : a.Reachable cfg false) (t : Fin M) :
    (globalFinalize t a.engine).started = 0 ∧
    ((globalFinalize t a.engine).started = ∑ u, (globalFinalize t a.engine).threadStarted u ↔
      ∀ u, u ≠ t → a.opened u = 0) := by
  have hc := h.counted
  have hnonneg := hc.threadStarted_nonneg
  have hstarted : (globalFinalize t a.engine).started = 0 := by
    have := (hnonneg t).trans (hc.threadStarted_le_started t)
    rw [globalFinalize_started, drain_eq]
    split_ifs <;> omega
  refine ⟨hstarted, ?_⟩
  have hdrain : drain (a.engine.threadStarted t) = 0 := by
    have := hnonneg t
    rw [drain_eq]
    split_ifs <;> omega
  rw [hstarted, globalFinalize_threadStarted, Finset.sum_update_of_mem (Finset.mem_univ t), hdrain,
    zero_add, eq_comm, Finset.sum_eq_zero_iff_of_nonneg fun u _ ↦ hnonneg u]
  simp only [Finset.mem_sdiff, Finset.mem_univ, Finset.mem_singleton, true_and, hc.opened rfl,
    Nat.cast_eq_zero]

/-- `globalFinalize_balance` after two threads each open a scope. -/
theorem globalFinalize_balance_two_threads :
    let cfg : Config 0 := ⟨id, false, []⟩
    let a₀ : Activity 0 2 := ⟨Engine.init 0 2, fun _ ↦ 0⟩
    let a := (a₀.step cfg (.start 0 false)).step cfg (.start 1 false)
    a.Reachable cfg false ∧ (globalFinalize 0 a.engine).started = 0 ∧
      ((globalFinalize 0 a.engine).started = ∑ u, (globalFinalize 0 a.engine).threadStarted u ↔
        ∀ u, u ≠ 0 → a.opened u = 0) := by
  intro cfg a₀ a
  have h : a.Reachable cfg false := .step _ (.step _ (.init _ rfl (fun _ ↦ rfl) rfl) id) id
  exact ⟨h, globalFinalize_balance h 0⟩

end Finalize

end TimemoryGotcha
