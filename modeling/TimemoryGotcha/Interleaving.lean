import TimemoryGotcha.Lifecycle

/-!
# Calls cut into their atomic steps

Two entry points do not run as one atomic step. A call through a dispatcher tests its slot, then
writes its entry, then runs its later phases, and any thread may act between two of them;
`start()` reads its counters, configures and runs its constructors as separate steps, and
`configure()` releases the mutex before it runs the initializer.

A call through slot `N`'s dispatcher writes `ready = true` on its way out whatever happened while
it ran: a withdrawal made while the call is in flight lasts only until the call returns. A
withdrawal made while no call through slot `N` is in flight holds, and every later call through
slot `N` passes through.

Exactly one `start()` wins `configure()`'s test-and-set, and it alone runs the initializer. The
others do not wait for it: a second thread's first `start()` finds `is_configured` set and returns
while the initializer is still running.
-/

namespace TimemoryGotcha

variable {Nt M : Nat}

/-! ## A call in flight -/

/-- Where a thread's call through one slot's dispatcher stands. -/
inductive CallPc where
  /-- No call through the slot under way. -/
  | idle
  /-- `wrap<N>` past its entry tests (lines 597-633), before its writes at lines 644-648. -/
  | tested
  /-- After line 648: the bundle is built and fed the incoming call. -/
  | hooksIn (g : Toggles)
  /-- After line 657: the original function runs. -/
  | original (g : Toggles)
  /-- After line 662: the outgoing hooks run. -/
  | hooksOut (g : Toggles)
  /-- `replace_func<N>` past its test at line 793, before `_data.ready = false` at line 796. -/
  | replaceTested
  /-- After line 796: the replacement operator runs. -/
  | replacing
  deriving DecidableEq, Repr

/-- The engine with each thread's call through slot `n`. -/
structure Flights (Nt M : Nat) where
  engine : Engine Nt M
  pcs : Fin M → CallPc

/-- One atomic step: a thread's call through slot `n` takes its next phase, or any thread makes
an engine call. -/
inductive Move (Nt M : Nat) where
  | advance (t : Fin M)
  | op (o : Op Nt M)

/-- The next phase of thread `t`'s call through slot `n`; a call that fails its test passes
through. -/
def advanceCall (replaces : Bool) (n : Fin Nt) (t : Fin M) (e : Engine Nt M) :
    CallPc → Engine Nt M × CallPc
  | .idle =>
    if replaces then (e, if replacePath n e = .instrumented then .replaceTested else .idle)
    else (e, if wrapPath t n e = .instrumented then .tested else .idle)
  | .tested =>
    let entered := wrapEnter t n e
    (entered.1, .hooksIn entered.2)
  | .hooksIn g =>
    let called := wrapBeforeCall t n e g
    (called.1, .original called.2)
  | .original g =>
    let returned := wrapAfterCall t n e g
    (returned.1, .hooksOut returned.2)
  | .hooksOut g => (wrapExit t n e g, .idle)
  | .replaceTested => (setSlotReady n false e, .replacing)
  | .replacing => (setSlotReady n true e, .idle)

/-- A test writes nothing. -/
@[simp] theorem advanceCall_idle_engine (replaces : Bool) (n : Fin Nt) (t : Fin M)
    (e : Engine Nt M) : (advanceCall replaces n t e .idle).1 = e := by
  simp only [advanceCall]; split_ifs <;> rfl

/-- One step of the system. -/
def Flights.step (cfg : Config Nt) (n : Fin Nt) (s : Flights Nt M) : Move Nt M → Flights Nt M
  | .advance t =>
    let r := advanceCall cfg.replaces n t s.engine (s.pcs t)
    ⟨r.1, Function.update s.pcs t r.2⟩
  | .op o => ⟨o.apply cfg s.engine, s.pcs⟩

/-- The system after the moves `ms`, in order. -/
def Flights.run (cfg : Config Nt) (n : Fin Nt) (s : Flights Nt M) (ms : List (Move Nt M)) :
    Flights Nt M :=
  ms.foldl (Flights.step cfg n) s

section Flight

variable {cfg : Config Nt} {n : Fin Nt}

theorem Flights.step_pcs_other (s : Flights Nt M) {m : Move Nt M} {t : Fin M}
    (h : m ≠ .advance t) : (s.step cfg n m).pcs t = s.pcs t := by
  cases m with
  | advance u =>
    have hu : t ≠ u := fun htu ↦ h (htu ▸ rfl)
    exact Function.update_noteq hu _ _
  | op o => rfl

/-- A call returns only from its last phase, and leaves the slot ready. -/
theorem advanceCall_return (e : Engine Nt M) (t : Fin M) {pc : CallPc} (hpc : pc ≠ .idle)
    (hret : (advanceCall cfg.replaces n t e pc).2 = .idle) :
    ((advanceCall cfg.replaces n t e pc).1.data n).ready = true := by
  cases pc with
  | idle => exact absurd rfl hpc
  | tested => simp [advanceCall] at hret
  | hooksIn g => simp [advanceCall] at hret
  | original g => simp [advanceCall] at hret
  | hooksOut g => exact wrapExit_ready t n e g
  | replaceTested => simp [advanceCall] at hret
  | replacing => simp [advanceCall, setSlotReady]

/-- A call that returned during a run returned at some move, right after which slot `n` was
ready. -/
theorem Flights.run_return (t : Fin M) :
    ∀ (ms : List (Move Nt M)) (s : Flights Nt M), s.pcs t ≠ .idle →
      (s.run cfg n ms).pcs t = .idle →
      ∃ pre post, ms = pre ++ .advance t :: post ∧
        (((s.run cfg n pre).step cfg n (.advance t)).engine.data n).ready = true
  | [], s, h, hret => absurd hret h
  | m :: ms, s, h, hret => by
    by_cases hm : m = .advance t ∧ (s.step cfg n m).pcs t = .idle
    · obtain ⟨rfl, hidle⟩ := hm
      refine ⟨[], ms, rfl, advanceCall_return s.engine t h ?_⟩
      simpa [Flights.step] using hidle
    · have h' : (s.step cfg n m).pcs t ≠ .idle := by
        by_cases hmt : m = .advance t
        · exact fun hi ↦ hm ⟨hmt, hi⟩
        · rwa [Flights.step_pcs_other s hmt]
      obtain ⟨pre, post, hms, hready⟩ := Flights.run_return t ms (s.step cfg n m) h' hret
      exact ⟨m :: pre, post, by rw [hms]; rfl, hready⟩

/-- With slot `n` not ready, a new call through it passes straight through. -/
theorem advanceCall_idle_of_not_ready (e : Engine Nt M) (t : Fin M)
    (h : (e.data n).ready = false) : advanceCall cfg.replaces n t e .idle = (e, .idle) := by
  have hw : wrapPath t n e ≠ .instrumented := by
    simp only [wrapPath, h, Bool.not_false, Bool.true_or]; split_ifs <;> simp
  simp [advanceCall, replacePath, h, hw]

theorem Flights.run_not_ready :
    ∀ (ts : List (Fin M)) (s : Flights Nt M), (s.engine.data n).ready = false →
      (∀ u, s.pcs u = .idle) →
      s.run cfg n (ts.map .advance) = s
  | [], _, _, _ => rfl
  | t :: ts, s, hr, hidle => by
    have hs : s.step cfg n (.advance t) = s := by
      simp only [Flights.step, hidle t, advanceCall_idle_of_not_ready s.engine t hr]
      rw [← hidle t, Function.update_eq_self]
    show (ts.map .advance).foldl (Flights.step cfg n) (s.step cfg n (.advance t)) = s
    rw [hs]
    exact Flights.run_not_ready ts s hr hidle

/-- A call past its test that returns readies slot `n`; a withdrawal made with none past it
holds. -/
theorem withdrawal_undone_by_return (t : Fin M) (ms : List (Move Nt M)) (s : Flights Nt M) :
    (s.pcs t ≠ .idle → (s.run cfg n ms).pcs t = .idle →
      ∃ pre post, ms = pre ++ .advance t :: post ∧
        (((s.run cfg n pre).step cfg n (.advance t)).engine.data n).ready = true) ∧
    ((s.engine.data n).ready = false → (∀ u, s.pcs u = .idle) →
      ∀ ts : List (Fin M), ((s.run cfg n (ts.map .advance)).engine.data n).ready = false) :=
  ⟨Flights.run_return t ms s, fun hr hidle ts ↦ by rw [Flights.run_not_ready ts s hr hidle]; exact hr⟩

/-- `set_ready(false)` while thread `0`'s call runs its original; the return readies slot `0`
again. -/
theorem return_undoes_withdrawal :
    let cfg : Config 1 := ⟨id, false, [(0, "malloc", 0, "tool")]⟩
    let s₀ : Flights 1 1 := ⟨start cfg 0 false (Engine.init 1 1), fun _ ↦ .idle⟩
    let s₁ := s₀.run cfg 0 [.advance 0, .advance 0, .advance 0]
    let s₂ := s₁.step cfg 0 (.op (.setReady fun _ ↦ false))
    let s₃ := s₂.run cfg 0 [.advance 0, .advance 0]
    s₁.pcs 0 ≠ .idle ∧ (s₁.engine.data 0).ready = true ∧ (s₂.engine.data 0).ready = false ∧
      s₃.pcs 0 = .idle ∧ (s₃.engine.data 0).ready = true := by
  decide

end Flight

/-! ## Concurrent starts -/

/-- Where a thread stands inside `start()`, with the counter values it read. -/
inductive StartPc (Nt : Nat) where
  /-- Not inside `start()`. -/
  | idle
  /-- Line 393: about to test `_t == 0 && !is_configured()`. -/
  | check (n tc : Int)
  /-- Inside `configure()`, called from line 394, or from line 398 when `second`: about to lock
  the mutex and test-and-set `is_configured`. -/
  | configure (n tc : Int) (second : Bool)
  /-- Running the initializer after winning the test-and-set: the `construct` calls left. -/
  | initializer (rest : List (Fin Nt × String × Int × String)) (n tc : Int) (second : Bool)
  /-- Line 396: about to test `_n == 0`. -/
  | first (n tc : Int)
  /-- Lines 399-403: the constructor loop. -/
  | constructors (tc : Int)
  /-- Line 406: about to make every filled slot ready if `_t == 0`. -/
  | grant (tc : Int)
  deriving DecidableEq, Repr

/-- Where `configure()` returns to. -/
def StartPc.afterConfigure (n tc : Int) (second : Bool) : StartPc Nt :=
  if second then .constructors tc else .first n tc

/-- Whether a thread is running the initializer. -/
def StartPc.initializing : StartPc Nt → Bool
  | .initializer .. => true
  | _ => false

/-- Whether a thread is past every point where it could configure the engine. -/
def StartPc.settled (threadStarted : Int) : StartPc Nt → Bool
  | .idle => threadStarted ≠ 0
  | .check _ tc => tc ≠ 0
  | .configure .. | .initializer .. => false
  | .first .. | .constructors _ | .grant _ => true

/-- Thread `t`'s next atomic step of `start()`, and whether it won `configure()`'s test-and-set. -/
def startStep (cfg : Config Nt) (t : Fin M) (e : Engine Nt M) :
    StartPc Nt → Engine Nt M × StartPc Nt × Bool
  | .idle =>
    ({ e with started := e.started + 1
              threadStarted := Function.update e.threadStarted t (e.threadStarted t + 1) },
      .check e.started (e.threadStarted t), false)
  | .check n tc => (e, if tc = 0 ∧ !e.isConfigured then .configure n tc false else .first n tc, false)
  | .configure n tc second =>
    if e.isConfigured then (e, StartPc.afterConfigure n tc second, false)
    else ({ e with isConfigured := true }, .initializer cfg.initializer n tc second, true)
  | .initializer [] n tc second => (e, StartPc.afterConfigure n tc second, false)
  | .initializer (c :: rest) n tc second =>
    ((construct cfg c.1 c.2.1 c.2.2.1 c.2.2.2 t e).2, .initializer rest n tc second, false)
  | .first n tc => (e, if n = 0 then .configure n tc true else .grant tc, false)
  | .constructors tc => ((runConstructors cfg t e).record .install, .grant tc, false)
  | .grant tc => (if tc = 0 then e.mapData fun _ d ↦ { d with ready := d.filled } else e, .idle, false)

/-- The engine with each thread's place in `start()`, and how many times a thread has won
`configure()`'s test-and-set. -/
structure Starts (Nt M : Nat) where
  engine : Engine Nt M
  pcs : Fin M → StartPc Nt
  wins : Nat

/-- Thread `t` takes its next step. -/
def Starts.step (cfg : Config Nt) (s : Starts Nt M) (t : Fin M) : Starts Nt M :=
  let r := startStep cfg t s.engine (s.pcs t)
  ⟨r.1, Function.update s.pcs t r.2.1, if r.2.2 then s.wins + 1 else s.wins⟩

/-- The system after the threads `ts` take one step each, in order. -/
def Starts.run (cfg : Config Nt) (s : Starts Nt M) (ts : List (Fin M)) : Starts Nt M :=
  ts.foldl (Starts.step cfg) s

section Once

variable {cfg : Config Nt} (t : Fin M) (e : Engine Nt M)

/-- A step configures the engine exactly when it wins the test-and-set, which it can only do on
an engine not yet configured. -/
theorem startStep_isConfigured (pc : StartPc Nt) :
    (startStep cfg t e pc).1.isConfigured = (e.isConfigured || (startStep cfg t e pc).2.2) ∧
      ((startStep cfg t e pc).2.2 = true → e.isConfigured = false) := by
  cases pc with
  | initializer rest n tc second =>
    cases rest with
    | nil => simp [startStep]
    | cons c rest => simp [startStep, (construct_onlyTable ..).isConfigured]
  | configure n tc second => by_cases h : e.isConfigured <;> simp [startStep, h]
  | constructors tc => simp [startStep, (runConstructors_onlyTable ..).isConfigured]
  | grant tc => by_cases h : tc = 0 <;> simp [startStep, h]
  | _ => simp [startStep]

theorem startStep_threadStarted_other {u : Fin M} (h : u ≠ t) (pc : StartPc Nt) :
    (startStep cfg t e pc).1.threadStarted u = e.threadStarted u := by
  cases pc with
  | idle => simp [startStep, h]
  | initializer rest n tc second =>
    cases rest with
    | nil => rfl
    | cons c rest => simp [startStep, (construct_onlyTable ..).threadStarted]
  | configure n tc second => by_cases hc : e.isConfigured <;> simp [startStep, hc]
  | constructors tc => simp [startStep]
  | grant tc => by_cases hc : tc = 0 <;> simp [startStep, hc]
  | _ => rfl

/-- A thread starts the initializer only by winning the test-and-set. -/
theorem startStep_initializing (pc : StartPc Nt) :
    (startStep cfg t e pc).2.1.initializing →
      pc.initializing ∨ (startStep cfg t e pc).2.2 := by
  cases pc with
  | check n tc => simp only [startStep]; split_ifs <;> simp [StartPc.initializing]
  | configure n tc second =>
    by_cases h : e.isConfigured
    · simp only [startStep, h, if_true, StartPc.afterConfigure]
      split_ifs <;> simp [StartPc.initializing]
    · simp [startStep, h]
  | initializer rest n tc second => simp [StartPc.initializing]
  | first n tc => by_cases h : n = 0 <;> simp [startStep, h, StartPc.initializing]
  | _ => simp [startStep, StartPc.initializing]

/-- A thread passes line 393 either with a count it had before, finding the engine configured, or
from the initializer. -/
theorem startStep_settled (pc : StartPc Nt) :
    (startStep cfg t e pc).2.1.settled ((startStep cfg t e pc).1.threadStarted t) →
      pc.settled (e.threadStarted t) ∨ e.isConfigured ∨ pc.initializing := by
  cases pc with
  | idle => simp only [startStep, StartPc.settled, Function.update_same]; exact .inl
  | check n tc =>
    by_cases h : tc = 0 ∧ !e.isConfigured
    · simp [startStep, h, StartPc.settled]
    · simp only [startStep, if_neg h, StartPc.settled, decide_eq_true_eq]
      intro
      by_cases h0 : tc = 0
      · exact .inr (.inl (by simpa [h0] using h))
      · exact .inl h0
  | configure n tc second =>
    by_cases h : e.isConfigured <;> simp [startStep, h, StartPc.settled]
  | initializer rest n tc second => simp [StartPc.initializing]
  | first n tc => simp [StartPc.settled]
  | constructors tc => simp [StartPc.settled]
  | grant tc => simp [StartPc.settled]

/-- A test-and-set is won once the engine is configured, and only its winner runs the
initializer. -/
structure Starts.Once (s : Starts Nt M) : Prop where
  wins : s.wins = if s.engine.isConfigured then 1 else 0
  initializing : ∀ t, (s.pcs t).initializing → s.engine.isConfigured
  single : ∀ t u, (s.pcs t).initializing → (s.pcs u).initializing → t = u
  settled : ∀ t, (s.pcs t).settled (s.engine.threadStarted t) → s.engine.isConfigured

theorem Starts.Once.step {s : Starts Nt M} (h : s.Once) : (s.step cfg t).Once := by
  obtain ⟨hconf, hwon⟩ := @startStep_isConfigured Nt M cfg t s.engine (s.pcs t)
  have hmono : s.engine.isConfigured → (s.step cfg t).engine.isConfigured := by
    intro hc; simp [Starts.step, hconf, hc]
  have hpcs (u : Fin M) (hu : u ≠ t) : (s.step cfg t).pcs u = s.pcs u :=
    Function.update_noteq hu _ _
  have hinit (u : Fin M) (hu : ((s.step cfg t).pcs u).initializing) :
      (s.pcs u).initializing ∨ (u = t ∧ (startStep cfg t s.engine (s.pcs t)).2.2) := by
    by_cases hut : u = t
    · subst hut
      simp only [Starts.step, Function.update_same] at hu
      rcases startStep_initializing u s.engine (s.pcs u) hu with h' | h'
      · exact .inl h'
      · exact .inr ⟨rfl, h'⟩
    · rw [hpcs u hut] at hu; exact .inl hu
  refine ⟨?_, fun u hu ↦ ?_, fun u v hu hv ↦ ?_, fun u hu ↦ ?_⟩
  · simp only [Starts.step, hconf, h.wins]
    cases hw : (startStep cfg t s.engine (s.pcs t)).2.2
    · simp
    · simp [hwon hw]
  · rcases hinit u hu with h' | ⟨-, h'⟩
    · exact hmono (h.initializing u h')
    · simp [Starts.step, hconf, h']
  · rcases hinit u hu with hu' | ⟨rfl, hw⟩ <;> rcases hinit v hv with hv' | ⟨rfl, hw'⟩
    · exact h.single u v hu' hv'
    · exact absurd (h.initializing u hu') (by simp [hwon hw'])
    · exact absurd (h.initializing v hv') (by simp [hwon hw])
    · rfl
  · by_cases hut : u = t
    · subst hut
      simp only [Starts.step, Function.update_same] at hu
      rcases startStep_settled u s.engine (s.pcs u) hu with h' | h' | h'
      · exact hmono (h.settled u h')
      · exact hmono h'
      · exact hmono (h.initializing u h')
    · have hts : (s.step cfg t).engine.threadStarted u = s.engine.threadStarted u :=
        startStep_threadStarted_other t s.engine hut (s.pcs t)
      rw [hpcs u hut, hts] at hu
      exact hmono (h.settled u hu)

theorem Starts.Once.run {s : Starts Nt M} (h : s.Once) (ts : List (Fin M)) :
    (s.run cfg ts).Once := by
  induction ts generalizing s with
  | nil => exact h
  | cons t ts ih => exact ih (h.step t)

theorem Starts.once_init (e : Engine Nt M) (he : e.isConfigured = false)
    (ht : ∀ t, e.threadStarted t = 0) : (⟨e, fun _ ↦ .idle, 0⟩ : Starts Nt M).Once :=
  ⟨by simp [he], fun _ h ↦ by simp [StartPc.initializing] at h,
    fun _ _ h ↦ by simp [StartPc.initializing] at h, fun t h ↦ by simp [StartPc.settled, ht] at h⟩

/-- Concurrent `start()` calls win `configure()`'s test-and-set at most once, so one thread at most
runs the initializer. -/
theorem initializer_runs_once (e : Engine Nt M) (he : e.isConfigured = false)
    (ht : ∀ t, e.threadStarted t = 0) (ts : List (Fin M)) :
    let s := Starts.run cfg ⟨e, fun _ ↦ .idle, 0⟩ ts
    s.wins ≤ 1 ∧ (∀ t u, (s.pcs t).initializing → (s.pcs u).initializing → t = u) ∧
      ∀ t, s.pcs t = .idle → s.engine.threadStarted t ≠ 0 → s.wins = 1 := by
  intro s
  have h : s.Once := (Starts.once_init e he ht).run ts
  have hw : s.wins ≤ 1 := by rw [h.wins]; split_ifs <;> simp
  refine ⟨hw, h.single, fun t hidle hts ↦ ?_⟩
  have hc := h.settled t (by rw [hidle]; simpa [StartPc.settled] using hts)
  rw [h.wins, if_pos hc]

/-- `initializer_runs_once` for two threads' first `start()` calls, thread `1` running its whole
call while thread `0` holds the initializer. -/
theorem initializer_runs_once_malloc :
    let cfg : Config 1 := ⟨id, false, [(0, "malloc", 0, "tool")]⟩
    let e : Engine 1 2 := Engine.init 1 2
    let s := Starts.run cfg ⟨e, fun _ ↦ .idle, 0⟩ [0, 0, 0, 1, 1, 1, 1]
    e.isConfigured = false ∧ (∀ t, e.threadStarted t = 0) ∧
      (s.wins ≤ 1 ∧ (∀ t u, (s.pcs t).initializing → (s.pcs u).initializing → t = u) ∧
        ∀ t, s.pcs t = .idle → s.engine.threadStarted t ≠ 0 → s.wins = 1) :=
  ⟨rfl, fun _ ↦ rfl, initializer_runs_once _ rfl (fun _ ↦ rfl) _⟩

/-- Thread `1`'s first `start()` returns while thread `0` is still to run the initializer. -/
theorem start_returns_before_initializer :
    let cfg : Config 1 := ⟨id, false, [(0, "malloc", 0, "tool")]⟩
    let s := Starts.run cfg ⟨Engine.init 1 2, fun _ ↦ .idle, 0⟩ [0, 0, 0, 1, 1, 1, 1]
    s.pcs 1 = .idle ∧ s.engine.threadStarted 1 = 1 ∧ (s.pcs 0).initializing = true ∧
      s.wins = 1 ∧ (s.engine.data 0).filled = false := by
  decide

end Once

/-! ## A `start()` run alone is the atomic one -/

section Solo

variable {cfg : Config Nt} (t : Fin M)

/-- Thread `t`, running alone from `pc` on engine `e`, reaches `pc'` with engine `e'`. -/
def SoloReach (cfg : Config Nt) (t : Fin M) (e : Engine Nt M) (pc : StartPc Nt)
    (e' : Engine Nt M) (pc' : StartPc Nt) : Prop :=
  ∀ s : Starts Nt M, s.engine = e → s.pcs t = pc →
    ∃ k, (s.run cfg (List.replicate k t)).engine = e' ∧ (s.run cfg (List.replicate k t)).pcs t = pc'

theorem SoloReach.of_step {e e' : Engine Nt M} {pc pc' : StartPc Nt}
    (h : (startStep cfg t e pc).1 = e' ∧ (startStep cfg t e pc).2.1 = pc') :
    SoloReach cfg t e pc e' pc' := by
  rintro s rfl hpc
  refine ⟨1, ?_, ?_⟩ <;> simp [Starts.run, Starts.step, hpc, h]

theorem SoloReach.trans {e₁ e₂ e₃ : Engine Nt M} {pc₁ pc₂ pc₃ : StartPc Nt}
    (h₁ : SoloReach cfg t e₁ pc₁ e₂ pc₂) (h₂ : SoloReach cfg t e₂ pc₂ e₃ pc₃) :
    SoloReach cfg t e₁ pc₁ e₃ pc₃ := by
  intro s he hpc
  obtain ⟨k₁, he₁, hpc₁⟩ := h₁ s he hpc
  obtain ⟨k₂, he₂, hpc₂⟩ := h₂ _ he₁ hpc₁
  refine ⟨k₁ + k₂, ?_, ?_⟩ <;>
    simpa only [Starts.run, List.replicate_add, List.foldl_append] using ‹_›

theorem soloReach_initializer (n tc : Int) (second : Bool) :
    ∀ (rest : List (Fin Nt × String × Int × String)) (e : Engine Nt M),
      SoloReach cfg t e (.initializer rest n tc second)
        (rest.foldl (fun e c ↦ (construct cfg c.1 c.2.1 c.2.2.1 c.2.2.2 t e).2) e)
        (StartPc.afterConfigure n tc second)
  | [], _ => .of_step t ⟨rfl, rfl⟩
  | _ :: rest, _ => (SoloReach.of_step t ⟨rfl, rfl⟩).trans t (soloReach_initializer n tc second rest _)

/-- `configure()` run alone: the initializer runs in full, or not at all. -/
theorem soloReach_configure (n tc : Int) (second : Bool) (e : Engine Nt M) :
    SoloReach cfg t e (.configure n tc second) (configure cfg t e)
      (StartPc.afterConfigure n tc second) := by
  by_cases h : e.isConfigured
  · rw [configure_of_isConfigured cfg t h]
    exact .of_step t (by simp [startStep, h])
  · have hs : startStep cfg t e (.configure n tc second) =
        ({ e with isConfigured := true }, .initializer cfg.initializer n tc second, true) := by
      simp [startStep, h]
    refine (SoloReach.of_step t ⟨congrArg Prod.fst hs, congrArg (·.2.1) hs⟩).trans t ?_
    simpa [configure, h] using soloReach_initializer t n tc second cfg.initializer _

/-- A `start()` that no other thread interleaves with, cut into its atomic steps, ends with the
engine the atomic `start()` computes. -/
theorem soloReach_start (e : Engine Nt M) : SoloReach cfg t e .idle (start cfg t false e) .idle := by
  let n := e.started
  let tc := e.threadStarted t
  let e₁ : Engine Nt M := { e with started := n + 1
                                   threadStarted := Function.update e.threadStarted t (tc + 1) }
  let e₂ := if tc = 0 ∧ !e₁.isConfigured then configure cfg t e₁ else e₁
  let e₃ := if n = 0 then (runConstructors cfg t (configure cfg t e₂)).record .install else e₂
  have h₁ : SoloReach cfg t e .idle e₁ (.check n tc) := .of_step t ⟨rfl, rfl⟩
  have h₂ : SoloReach cfg t e₁ (.check n tc) e₂ (.first n tc) := by
    by_cases hc : tc = 0 ∧ !e₁.isConfigured
    · simp only [e₂, if_pos hc]
      exact (SoloReach.of_step t ⟨rfl, by simp only [startStep, if_pos hc]⟩).trans t
        (soloReach_configure t n tc false e₁)
    · simp only [e₂, if_neg hc]
      exact .of_step t ⟨rfl, by simp only [startStep, if_neg hc]⟩
  have h₃ : SoloReach cfg t e₂ (.first n tc) e₃ (.grant tc) := by
    by_cases hn : n = 0
    · simp only [e₃, if_pos hn]
      have hc : SoloReach cfg t (configure cfg t e₂) (.constructors tc)
          ((runConstructors cfg t (configure cfg t e₂)).record .install) (.grant tc) :=
        .of_step t ⟨rfl, rfl⟩
      exact ((SoloReach.of_step t ⟨rfl, by simp only [startStep, if_pos hn]⟩).trans t
        (soloReach_configure t n tc true e₂)).trans t hc
    · simp only [e₃, if_neg hn]
      exact .of_step t ⟨rfl, by simp only [startStep, if_neg hn]⟩
  exact h₁.trans t (h₂.trans t (h₃.trans t (.of_step t ⟨rfl, rfl⟩)))

/-- Thread `t` running its `start()` alone from any state of the concurrent model returns with the
engine the atomic `start()` computes. -/
theorem start_steps_refine (s : Starts Nt M) (h : s.pcs t = .idle) :
    ∃ k, (s.run cfg (List.replicate k t)).engine = start cfg t false s.engine ∧
      (s.run cfg (List.replicate k t)).pcs t = .idle :=
  soloReach_start t s.engine s rfl h

/-- `start_steps_refine` for the first `start()` of a program whose initializer fills slot `0`. -/
theorem start_steps_refine_malloc :
    let cfg : Config 1 := ⟨id, false, [(0, "malloc", 0, "tool")]⟩
    let s : Starts 1 2 := ⟨Engine.init 1 2, fun _ ↦ .idle, 0⟩
    s.pcs 0 = .idle ∧ ∃ k, (s.run cfg (List.replicate k 0)).engine = start cfg 0 false s.engine ∧
      (s.run cfg (List.replicate k 0)).pcs 0 = .idle :=
  ⟨rfl, start_steps_refine 0 _ rfl⟩

end Solo

end TimemoryGotcha
