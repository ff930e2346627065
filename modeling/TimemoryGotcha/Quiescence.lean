import TimemoryGotcha.CrossThread

/-!
# What calls through a slot leave behind

A call through a dispatcher writes its slot's readiness and the suppression flags only while it
runs. Over every interleaving of calls through one slot by any threads, with no engine call
between their phases, the engine is exactly as it was once every call has returned: a call passes
its test only while the slot is ready, every return writes `ready = true`, and the toggles
balance.
-/

namespace TimemoryGotcha

variable {Nt M : Nat}

/-- `e` with slot `n`'s readiness `r` and the suppression flags `S`. -/
def Engine.withReadyFlags (e : Engine Nt M) (n : Fin Nt) (r : Bool) (S : Fin M → Bool) :
    Engine Nt M :=
  { e with data := Function.update e.data n { e.data n with ready := r }, suppression := S }

/-- `e'` differs from `e₀` at most in slot `n`'s readiness and in the suppression flags. -/
def Engine.Framed (n : Fin Nt) (e₀ e' : Engine Nt M) : Prop :=
  ∃ r S, e' = e₀.withReadyFlags n r S

section Framed

variable {n : Fin Nt} {e₀ e : Engine Nt M}

theorem Engine.framed_refl (n : Fin Nt) (e₀ : Engine Nt M) : e₀.Framed n e₀ :=
  ⟨(e₀.data n).ready, e₀.suppression, (restored n e₀ rfl rfl).symm⟩

theorem Engine.Framed.setSlotReady (h : e₀.Framed n e) (v : Bool) :
    e₀.Framed n (setSlotReady n v e) := by
  obtain ⟨r, S, rfl⟩ := h
  exact ⟨v, S, by simp [TimemoryGotcha.setSlotReady, Engine.withReadyFlags, Engine.modify]⟩

theorem Engine.Framed.suppression (h : e₀.Framed n e) (S' : Fin M → Bool) :
    e₀.Framed n { e with suppression := S' } := by
  obtain ⟨r, S, rfl⟩ := h
  exact ⟨r, S', rfl⟩

theorem Engine.Framed.toggleSuppressOn (h : e₀.Framed n e) (p : Option (Fin M)) (did : Bool) :
    e₀.Framed n (TimemoryGotcha.toggleSuppressOn p did e).1 := by
  unfold TimemoryGotcha.toggleSuppressOn; split <;> (try split) <;> first | exact h | exact h.suppression _

theorem Engine.Framed.toggleSuppressOff (h : e₀.Framed n e) (p : Option (Fin M)) (did : Bool) :
    e₀.Framed n (TimemoryGotcha.toggleSuppressOff p did e).1 := by
  unfold TimemoryGotcha.toggleSuppressOff; split <;> (try split) <;> first | exact h | exact h.suppression _

/-- Every phase of a call through slot `n` changes only the slot's readiness and the flags. -/
theorem Engine.Framed.advanceCall (h : e₀.Framed n e) (replaces : Bool) (t : Fin M)
    (pc : CallPc) : e₀.Framed n (TimemoryGotcha.advanceCall replaces n t e pc).1 := by
  cases pc with
  | idle => rw [advanceCall_idle_engine]; exact h
  | tested => exact ((h.setSlotReady false).toggleSuppressOn _ _).toggleSuppressOn _ _
  | hooksIn g => exact (h.toggleSuppressOff _ _).setSlotReady true
  | original g => exact (h.setSlotReady false).toggleSuppressOn _ _
  | hooksOut g => exact ((h.toggleSuppressOff _ _).toggleSuppressOff _ _).setSlotReady true
  | replaceTested => exact h.setSlotReady false
  | replacing => exact h.setSlotReady true

end Framed

/-! ## Readiness over calls interleaved with no engine call -/

/-- The slot was ready, `R`, if any call is in flight, and has readiness `R` when none is. -/
structure Flights.ReadyKept (n : Fin Nt) (R : Bool) (s : Flights Nt M) : Prop where
  entered : ∀ x, s.pcs x ≠ .idle → R = true
  idle : (∀ x, s.pcs x = .idle) → (s.engine.data n).ready = R

section ReadyKept

variable {cfg : Config Nt} {n : Fin Nt} {R : Bool}

/-- A call passes its test only while the slot is ready. -/
theorem advanceCall_ready_of_idle (replaces : Bool) (t : Fin M) (e : Engine Nt M)
    (h : (advanceCall replaces n t e .idle).2 ≠ .idle) : (e.data n).ready = true := by
  simp only [advanceCall] at h
  split_ifs at h with hr hp hw
  · simpa [replacePath] using hp
  · exact absurd rfl h
  · exact (wrapPath_instrumented t n e hw).1
  · exact absurd rfl h

theorem Flights.ReadyKept.advance {s : Flights Nt M} (h : s.ReadyKept n R) (t : Fin M) :
    (s.step cfg n (.advance t)).ReadyKept n R := by
  have hnew : (s.step cfg n (.advance t)).pcs = Function.update s.pcs t
      (advanceCall cfg.replaces n t s.engine (s.pcs t)).2 := rfl
  by_cases ht : s.pcs t = .idle
  · by_cases hent : (advanceCall cfg.replaces n t s.engine .idle).2 = .idle
    · -- The call passes through at once: nothing changes.
      have hsame : s.step cfg n (.advance t) = s := by
        simp only [Flights.step, ht, advanceCall_idle_engine, hent]
        rw [← ht, Function.update_eq_self]
      rw [hsame]; exact h
    · -- The call enters: the slot was ready, so `R` held it ready.
      have hready := advanceCall_ready_of_idle cfg.replaces t s.engine hent
      have hR : R = true := by
        by_cases hall : ∀ x, s.pcs x = .idle
        · exact (h.idle hall).symm.trans hready
        · push_neg at hall; obtain ⟨x, hx⟩ := hall; exact h.entered x hx
      exact ⟨fun _ _ ↦ hR, fun hall ↦ absurd (hall t) (by rw [hnew, ht]; simpa using hent)⟩
  · -- A call in flight takes its next phase; if it returns, it leaves the slot ready.
    have hR := h.entered t ht
    refine ⟨fun _ _ ↦ hR, fun hall ↦ ?_⟩
    have hret : (advanceCall cfg.replaces n t s.engine (s.pcs t)).2 = .idle := by
      simpa [hnew] using hall t
    rw [hR]; exact advanceCall_return s.engine t ht hret

end ReadyKept

/-! ## Whole runs of calls -/

section Runs

variable {cfg : Config Nt} {n : Fin Nt}

theorem Flights.framed_run (e₀ : Engine Nt M) :
    ∀ (ms : List (Move Nt M)) (s : Flights Nt M), (∀ m ∈ ms, ∃ t, m = .advance t) →
      e₀.Framed n s.engine → e₀.Framed n (s.run cfg n ms).engine
  | [], _, _, h => h
  | m :: ms, s, hms, h => by
    obtain ⟨t, rfl⟩ := hms m (List.mem_cons_self _ _)
    exact Flights.framed_run e₀ ms _ (fun m' hm' ↦ hms m' (List.mem_cons_of_mem _ hm'))
      (h.advanceCall cfg.replaces t (s.pcs t))

theorem Flights.ReadyKept.run {R : Bool} :
    ∀ (ms : List (Move Nt M)) (s : Flights Nt M), (∀ m ∈ ms, ∃ t, m = .advance t) →
      s.ReadyKept n R → (s.run cfg n ms).ReadyKept n R
  | [], _, _, h => h
  | m :: ms, s, hms, h => by
    obtain ⟨t, rfl⟩ := hms m (List.mem_cons_self _ _)
    exact Flights.ReadyKept.run ms _ (fun m' hm' ↦ hms m' (List.mem_cons_of_mem _ hm'))
      (h.advance t)

end Runs

/-- Calls through one slot, interleaved with no engine call, leave the engine as it was once all
return. -/
theorem calls_leave_no_trace {cfg : Config Nt} {n : Fin Nt} (s : Flights Nt M)
    (hidle : ∀ x, s.pcs x = .idle) (ts : List (Fin M))
    (hend : ∀ x, (s.run cfg n (ts.map .advance)).pcs x = .idle) :
    (s.run cfg n (ts.map .advance)).engine = s.engine := by
  have hms : ∀ m ∈ ts.map (@Move.advance Nt M), ∃ t, m = .advance t := fun m hm ↦ by
    obtain ⟨t, -, rfl⟩ := List.mem_map.mp hm; exact ⟨t, rfl⟩
  have hready : ((s.run cfg n (ts.map .advance)).engine.data n).ready = (s.engine.data n).ready :=
    (Flights.ReadyKept.run _ s hms ⟨fun x hx ↦ absurd (hidle x) hx, fun _ ↦ rfl⟩).idle hend
  have hflags : (s.run cfg n (ts.map .advance)).engine.suppression = s.engine.suppression :=
    ((s.balanced_of_idle hidle).run _).suppression_of_idle hend
  obtain ⟨r, S, he⟩ := Flights.framed_run s.engine _ s hms (Engine.framed_refl n s.engine)
  have hr : r = (s.engine.data n).ready := by
    rw [← hready, he]; simp [Engine.withReadyFlags]
  have hS : S = s.engine.suppression := by rw [← hflags, he]; rfl
  rw [he, hr, hS]
  exact restored n s.engine rfl rfl

/-- Thread `0` hands its call to the replacement operator while thread `1`'s call passes through. -/
theorem calls_leave_no_trace_malloc :
    let cfg : Config 1 := ⟨id, true, [(0, "malloc", 0, "tool")]⟩
    let s : Flights 1 2 := ⟨start cfg 0 false (Engine.init 1 2), fun _ ↦ .idle⟩
    let ts : List (Fin 2) := [0, 0, 1, 0]
    (∀ x, s.pcs x = .idle) ∧ (∀ x, (s.run cfg 0 (ts.map .advance)).pcs x = .idle) ∧
      (s.run cfg 0 (ts.map .advance)).engine = s.engine :=
  ⟨fun _ ↦ rfl, by decide, calls_leave_no_trace _ (fun _ ↦ rfl) _ (by decide)⟩

/-- Midway, thread `0`'s call has withdrawn the slot's readiness, so thread `1`'s call passes
through. -/
example :
    let cfg : Config 1 := ⟨id, true, [(0, "malloc", 0, "tool")]⟩
    let s : Flights 1 2 := ⟨start cfg 0 false (Engine.init 1 2), fun _ ↦ .idle⟩
    ((s.run cfg 0 [.advance 0, .advance 0, .advance 1]).engine.data 0).ready = false ∧
      (s.run cfg 0 [.advance 0, .advance 0, .advance 1]).pcs 1 = .idle := by
  decide

end TimemoryGotcha
