import TimemoryGotcha.Runs

/-!
# What the dispatchers' guards keep out

`replace_func<N>` withdraws readiness while its replacement operator runs, so no nested call
through slot `N` reaches the operator again. `wrap<N>` restores readiness and lowers the caller's
flag before the original function, whose calls then take the paths they would take unmeasured, but
for the flag the slot's pointer designates, which stays raised; for a symbol registered with
`add_global_suppression` and called on the thread that filled its slot, none of them is measured.
A finalized slot is never measured again.

Measuring never changes what the program calls: each call happens once, in order, but under a slot
with no original function, where `wrap<N>` returns `Ret{}` at once. A replacing dispatcher has no
such test: before the slot is filled it calls the null wrappee, which the model records as passing
through.
-/

namespace TimemoryGotcha

variable {Nt M : Nat}

section Origins

variable (replaces : Bool) (t : Fin M)

mutual

/-- A call the trace records as made by the program is made under a call made by the program. -/
theorem dispatch_program_origin (origin : Origin) :
    ∀ (c : Call Nt) (e : Engine Nt M) (v : Visit Nt), v ∈ (dispatch replaces t origin c e).2 →
      v.origin = .program → origin = .program
  | .mk n pre body post dtor, e, v, hv, hvo => by
    have hbody := dispatchList_program_origin origin body
    simp only [dispatch] at hv
    split_ifs at hv
    · rcases List.mem_cons.mp hv with rfl | hv
      · exact hvo
      · exact hbody _ v hv hvo
    · rcases List.mem_cons.mp hv with rfl | hv
      · exact hvo
      · exact hbody _ v hv hvo
    · split at hv
      · rw [List.mem_singleton] at hv; subst hv; exact hvo
      · rcases List.mem_cons.mp hv with rfl | hv
        · exact hvo
        · exact hbody _ v hv hvo
      · rcases List.mem_cons.mp hv with rfl | hv
        · exact hvo
        simp only [List.mem_append] at hv
        rcases hv with ((hv | hv) | hv) | hv
        · exact absurd (dispatchList_program_origin .hook pre _ v hv hvo) (by decide)
        · exact hbody _ v hv hvo
        · exact absurd (dispatchList_program_origin .hook post _ v hv hvo) (by decide)
        · exact absurd (dispatchList_program_origin .teardown dtor _ v hv hvo) (by decide)

theorem dispatchList_program_origin (origin : Origin) :
    ∀ (cs : List (Call Nt)) (e : Engine Nt M) (v : Visit Nt),
      v ∈ (dispatchList replaces t origin cs e).2 → v.origin = .program → origin = .program
  | [], _, v, hv, _ => absurd hv (List.not_mem_nil v)
  | c :: cs, e, v, hv, hvo => by
    rcases List.mem_append.mp hv with hv | hv
    · exact dispatch_program_origin origin c e v hv hvo
    · exact dispatchList_program_origin origin cs _ v hv hvo

end

end Origins

/-! ## Each call of the program is made once -/

mutual

/-- The slots of the program's calls, in order, when the slots in `bound` have an original
function. -/
def Call.reached (bound : Fin Nt → Bool) : Call Nt → List (Fin Nt)
  | .mk n _ body _ _ => n :: if bound n then Call.reachedList bound body else []

/-- `Call.reached` of each call, one after another. -/
def Call.reachedList (bound : Fin Nt → Bool) : List (Call Nt) → List (Fin Nt)
  | [] => []
  | c :: cs => c.reached bound ++ Call.reachedList bound cs

end

section Transparency

variable (replaces : Bool) (t : Fin M)

/-- The slots of the visits the trace records as made by the program. -/
def programVisits (vs : List (Visit Nt)) : List (Fin Nt) :=
  (vs.filter fun v ↦ v.origin = .program).map Visit.slot

@[simp] theorem programVisits_append (vs ws : List (Visit Nt)) :
    programVisits (vs ++ ws) = programVisits vs ++ programVisits ws := by
  simp [programVisits]

@[simp] theorem programVisits_cons_program (n : Fin Nt) (path : Path) (vs : List (Visit Nt)) :
    programVisits (⟨n, path, .program⟩ :: vs) = n :: programVisits vs := by
  simp [programVisits]

theorem programVisits_dispatchList_of_ne (origin : Origin) (ho : origin ≠ .program)
    (cs : List (Call Nt)) (e : Engine Nt M) :
    programVisits (dispatchList replaces t origin cs e).2 = [] := by
  simp only [programVisits, List.map_eq_nil_iff, List.filter_eq_nil_iff, decide_eq_true_eq]
  exact fun v hv hvo ↦ ho (dispatchList_program_origin replaces t origin cs e v hv hvo)

theorem Engine.Soft.filled_eq {e e' : Engine Nt M} (h : e.Soft e') :
    (fun m ↦ (e'.data m).filled) = fun m ↦ (e.data m).filled :=
  funext fun m ↦ GotchaData.filled_of_ident (h.ident m)

mutual

theorem dispatch_programVisits :
    ∀ (c : Call Nt) (e : Engine Nt M),
      programVisits (dispatch false t .program c e).2 = c.reached fun m ↦ (e.data m).filled
  | .mk n pre body post dtor, e => by
    simp only [dispatch, Bool.false_eq_true, if_false, Call.reached]
    by_cases hn : (e.data n).filled
    · rw [if_pos hn]
      split
      · next hw => simp only [wrapPath, hn, Bool.not_true, Bool.false_eq_true, if_false] at hw
                   split_ifs at hw
      · rw [programVisits_cons_program, dispatchList_programVisits body e]
      · have hsoft := (soft_wrapEnter t n e).trans ((soft_dispatchList false t .hook pre _).trans
          (soft_wrapBeforeCall t n _ (wrapEnter t n e).2))
        simp only [programVisits_cons_program, programVisits_append,
          programVisits_dispatchList_of_ne false t .hook (by decide),
          programVisits_dispatchList_of_ne false t .teardown (by decide), List.append_nil,
          List.nil_append, dispatchList_programVisits body, hsoft.filled_eq]
    · have hw : wrapPath t n e = .unresolved := by simp [wrapPath, hn]
      simp [hw, hn, programVisits]

theorem dispatchList_programVisits :
    ∀ (cs : List (Call Nt)) (e : Engine Nt M),
      programVisits (dispatchList false t .program cs e).2 =
        Call.reachedList (fun m ↦ (e.data m).filled) cs
  | [], _ => rfl
  | c :: cs, e => by
    simp only [dispatchList, programVisits_append, Call.reachedList, dispatch_fst,
      dispatch_programVisits c e, dispatchList_programVisits cs e]

end

/-- The trace's program calls are exactly the program's calls, in order, each once, measured or
not. -/
theorem wrap_calls_original_once (c : Call Nt) (e : Engine Nt M) :
    programVisits (dispatch false t .program c e).2 = c.reached fun m ↦ (e.data m).filled :=
  dispatch_programVisits t c e

/-- A measured call to `malloc` whose bundle and original each call it again: three calls through
slot `0`, two of them the program's. -/
example :
    let e := (construct ⟨id, false, []⟩ 0 "malloc" 0 "tool" (0 : Fin 1)
      { Engine.init 1 1 with defaultReady := true }).2
    let c : Call 1 := .mk 0 [.mk 0 [] [] [] []] [.mk 0 [] [] [] []] [] []
    (dispatch false 0 .program c e).2.length = 3 ∧
      programVisits (dispatch false 0 .program c e).2 = [0, 0] := by
  decide

end Transparency

/-! ## The replacement operator is not re-entered -/

section Replace

variable (t : Fin M) (n : Fin Nt)

theorem setSlotReady_ready_of_not_ready (m : Fin Nt) (value : Bool) {e : Engine Nt M}
    (hr : (e.data n).ready = false) (hv : m = n → value = false) :
    ((setSlotReady m value e).data n).ready = false := by
  simp only [setSlotReady, Engine.modify_data_apply]
  split_ifs with hnm
  · subst hnm; exact hv rfl
  · exact hr

mutual

/-- While slot `n` is not ready, every call through `replace_func<n>`, however deeply nested in
calls through the other slots, passes through. -/
theorem replace_visits_of_not_ready (origin : Origin) :
    ∀ (c : Call Nt) (e : Engine Nt M), (e.data n).ready = false →
      ∀ v ∈ (dispatch true t origin c e).2, v.slot = n → v.path = .passthrough
  | .mk m pre body post dtor, e, hr, v, hv, hvn => by
    simp only [dispatch, if_true] at hv
    split_ifs at hv with hp
    · have hm : m ≠ n := fun hmn ↦ by simp [replacePath, hmn, hr] at hp
      rcases List.mem_cons.mp hv with rfl | hv
      · exact absurd hvn hm
      · exact replaceList_visits_of_not_ready origin body _
          (setSlotReady_ready_of_not_ready n m false hr fun _ ↦ rfl) v hv hvn
    · rcases List.mem_cons.mp hv with rfl | hv
      · rfl
      · exact replaceList_visits_of_not_ready origin body e hr v hv hvn

theorem replaceList_visits_of_not_ready (origin : Origin) :
    ∀ (cs : List (Call Nt)) (e : Engine Nt M), (e.data n).ready = false →
      ∀ v ∈ (dispatchList true t origin cs e).2, v.slot = n → v.path = .passthrough
  | [], _, _, v, hv, _ => absurd hv (List.not_mem_nil v)
  | c :: cs, e, hr, v, hv, hvn => by
    rcases List.mem_append.mp hv with hv | hv
    · exact replace_visits_of_not_ready origin c e hr v hv hvn
    · rw [dispatch_fst] at hv
      exact replaceList_visits_of_not_ready origin cs e hr v hv hvn

end

/-- No call through slot `N` made while `replace_func<N>` runs reaches the replacement operator, at
any depth. -/
theorem replace_operator_not_reentered (origin : Origin) (pre body post dtor : List (Call Nt))
    (e : Engine Nt M) :
    ∀ v ∈ (dispatch true t origin (.mk n pre body post dtor) e).2.tail, v.slot = n →
      v.path = .passthrough := by
  simp only [dispatch, if_true]
  split_ifs with hp
  · exact replaceList_visits_of_not_ready t n origin body _ (by simp [setSlotReady])
  · exact replaceList_visits_of_not_ready t n origin body e (by simpa [replacePath] using hp)

/-- A call through `replace_func<0>` whose replacement operator calls `malloc` again. -/
theorem replace_operator_not_reentered_malloc :
    let e := start ⟨id, true, [(0, "malloc", 0, "tool")]⟩ (0 : Fin 1) false (Engine.init 1 1)
    let v : Visit 1 := ⟨0, .passthrough, .program⟩
    v ∈ (dispatch true 0 .program (.mk 0 [] [.mk 0 [] [] [] []] [] []) e).2.tail ∧ v.slot = 0 ∧
      v.path = .passthrough := by
  intro e v
  have hv : v ∈ (dispatch true 0 .program (.mk 0 [] [.mk 0 [] [] [] []] [] []) e).2.tail := by
    decide
  exact ⟨hv, rfl, replace_operator_not_reentered 0 0 .program [] [.mk 0 [] [] [] []] [] [] e v hv rfl⟩

example : (dispatch true 0 .program (.mk 0 [] [.mk 0 [] [] [] []] [] [])
    (start ⟨id, true, [(0, "malloc", 0, "tool")]⟩ (0 : Fin 1) false (Engine.init 1 1))).2 =
      [⟨0, .instrumented, .program⟩, ⟨0, .passthrough, .program⟩] := by
  decide

end Replace

/-! ## What the original function's calls see -/

section Original

variable (t : Fin M) (n : Fin Nt) (e : Engine Nt M)

/-- The original function runs in the engine the call found, but for the pointer's flag, raised. -/
theorem wrapBeforeCall_wrapEnter (h : wrapPath t n e = .instrumented) :
    (wrapBeforeCall t n (wrapEnter t n e).1 (wrapEnter t n e).2).1 =
      (toggleSuppressOn (e.data n).suppression false e).1 := by
  obtain ⟨hready, hglob, hslot⟩ := wrapPath_instrumented t n e h
  rcases hds : (e.data n).suppression with _ | u
  · simp [wrapBeforeCall, wrapEnter, toggleSuppressOn_some, toggleSuppressOff_some, toggleSuppressOn,
      setSlotReady, Engine.modify, hds, hglob]
    exact restored n e (by rw [← hready, ← hds]) (Function.update_eq_self_iff.mpr hglob.symm)
  · have hsu := hslot u hds
    by_cases hu : u = t
    · subst hu
      simp [wrapBeforeCall, wrapEnter, toggleSuppressOn_some, toggleSuppressOff_some,
        setSlotReady, Engine.modify, hds, hglob]
      rw [← hready, ← hds]
    · simp [wrapBeforeCall, wrapEnter, toggleSuppressOn_some, toggleSuppressOff_some,
        setSlotReady, Engine.modify, hds, hglob, hsu, Function.update_apply, hu, Ne.symm hu]
      rw [← hready, ← hds]

/-- The original's calls take the paths they take from the engine the call found, the pointer's flag
raised. -/
theorem measured_call_transparent (origin : Origin) (pre body post dtor : List (Call Nt))
    (h : wrapPath t n e = .instrumented) :
    ∃ hooks rest, (dispatch false t origin (.mk n pre body post dtor) e).2 =
      ⟨n, .instrumented, origin⟩ :: (hooks ++
        (dispatchList false t origin body (toggleSuppressOn (e.data n).suppression false e).1).2 ++
          rest) ∧
      ∀ v ∈ hooks, v.path ≠ .instrumented := by
  obtain ⟨vs, hpre, hvs⟩ := dispatchList_of_raised t .hook pre _ (wrapEnter_raised t n e)
  simp only [dispatch, Bool.false_eq_true, if_false, h, hpre, wrapBeforeCall_wrapEnter t n e h,
    List.append_assoc]
  exact ⟨vs, _, rfl, hvs⟩

/-- A call through `wrap<0>` with no suppression pointer, whose original calls `wrap<0>` again. -/
theorem measured_call_transparent_malloc :
    let e := start ⟨id, false, [(0, "malloc", 0, "tool")]⟩ (0 : Fin 1) false (Engine.init 1 1)
    wrapPath 0 0 e = .instrumented ∧
      ∃ hooks rest, (dispatch false 0 .program (.mk 0 [] [.mk 0 [] [] [] []] [] []) e).2 =
        ⟨0, .instrumented, .program⟩ :: (hooks ++
          (dispatchList false 0 .program [.mk 0 [] [] [] []]
            (toggleSuppressOn (e.data 0).suppression false e).1).2 ++ rest) ∧
        ∀ v ∈ hooks, v.path ≠ .instrumented :=
  ⟨by decide, measured_call_transparent 0 0 _ .program [] [.mk 0 [] [] [] []] [] [] (by decide)⟩

example : (dispatch false 0 .program (.mk 0 [] [.mk 0 [] [] [] []] [] [])
    (start ⟨id, false, [(0, "malloc", 0, "tool")]⟩ (0 : Fin 1) false (Engine.init 1 1))).2 =
      [⟨0, .instrumented, .program⟩, ⟨0, .instrumented, .program⟩] := by
  decide

/-- A measured call to a suppressed symbol on the thread that filled its slot measures none of the
original's calls. -/
theorem suppressed_symbol_hides_calls (pre body post dtor : List (Call Nt))
    (h : wrapPath t n e = .instrumented) (hs : (e.data n).suppression = some t) :
    ∀ v ∈ (dispatch false t .program (.mk n pre body post dtor) e).2.tail,
      v.origin = .program → v.path ≠ .instrumented := by
  intro v hv hvo
  simp only [dispatch, Bool.false_eq_true, if_false, h, List.tail_cons, List.mem_append,
    dispatchList_fst] at hv
  rcases hv with ((hv | hv) | hv) | hv
  · exact absurd (dispatchList_program_origin false t .hook pre _ v hv hvo) (by decide)
  · rw [wrapBeforeCall_wrapEnter t n e h, hs] at hv
    obtain ⟨vs, hb, hvs⟩ := dispatchList_of_raised t .program body _ (toggleSuppressOn_raised e t false)
    rw [hb] at hv
    exact hvs v hv
  · exact absurd (dispatchList_program_origin false t .hook post _ v hv hvo) (by decide)
  · exact absurd (dispatchList_program_origin false t .teardown dtor _ v hv hvo) (by decide)

/-- `free` is suppressed and filled on thread `0`: a call to it is measured, its call to `malloc` is
not. -/
theorem suppressed_symbol_hides_calls_free :
    let cfg : Config 2 := ⟨id, false, [(0, "free", 0, "tool"), (1, "malloc", 0, "tool")]⟩
    let e := start cfg (0 : Fin 1) false (addGlobalSuppression "free" (Engine.init 2 1))
    wrapPath 0 0 e = .instrumented ∧ (e.data 0).suppression = some 0 ∧
      ∀ v ∈ (dispatch false 0 .program (.mk 0 [] [.mk 1 [] [] [] []] [] []) e).2.tail,
        v.origin = .program → v.path ≠ .instrumented :=
  ⟨by decide, by decide, suppressed_symbol_hides_calls 0 0 _ [] [.mk 1 [] [] [] []] [] []
    (by decide) (by decide)⟩

example : (dispatch false 0 .program (.mk 0 [] [.mk 1 [] [] [] []] [] [])
    (start ⟨id, false, [(0, "free", 0, "tool"), (1, "malloc", 0, "tool")]⟩ (0 : Fin 1) false
      (addGlobalSuppression "free" (Engine.init 2 1)))).2 =
      [⟨0, .instrumented, .program⟩, ⟨1, .passthrough, .program⟩] := by
  decide

end Original

/-! ## A finalized slot is never measured again -/

section Finalized

variable (t : Fin M) (n : Fin Nt)

mutual

/-- While slot `n` is finalized, no call through `wrap<n>` is measured, however deeply nested in
calls through the other slots. -/
theorem wrap_visits_of_finalized (origin : Origin) :
    ∀ (c : Call Nt) (e : Engine Nt M), (e.data n).isFinalized = true →
      ∀ v ∈ (dispatch false t origin c e).2, v.slot = n → v.path ≠ .instrumented
  | .mk m pre body post dtor, e, hfin, v, hv, hvn => by
    simp only [dispatch, Bool.false_eq_true, if_false] at hv
    split at hv
    · rw [List.mem_singleton] at hv; subst hv; exact nofun
    · rcases List.mem_cons.mp hv with rfl | hv
      · exact nofun
      · exact wrapList_visits_of_finalized origin body e hfin v hv hvn
    · next hw =>
      have hm : m ≠ n := fun hmn ↦ by
        subst hmn; simp only [wrapPath, hfin] at hw; split_ifs at hw
      rcases List.mem_cons.mp hv with rfl | hv
      · exact absurd hvn hm
      simp only [List.mem_append, dispatchList_fst] at hv
      rcases hv with ((hv | hv) | hv) | hv
      · obtain ⟨vs, h, hvs⟩ := dispatchList_of_raised t .hook pre _ (wrapEnter_raised t m e)
        rw [h] at hv
        exact hvs v hv
      · rw [wrapBeforeCall_wrapEnter t m e hw] at hv
        exact wrapList_visits_of_finalized origin body _ (by simpa using hfin) v hv hvn
      · obtain ⟨vs, h, hvs⟩ := dispatchList_of_raised t .hook post _ (wrapAfterCall_raised t m _ _)
        rw [h] at hv
        exact hvs v hv
      · rw [wrapPhases_restore t m e hw] at hv
        exact wrapList_visits_of_finalized .teardown dtor e hfin v hv hvn

theorem wrapList_visits_of_finalized (origin : Origin) :
    ∀ (cs : List (Call Nt)) (e : Engine Nt M), (e.data n).isFinalized = true →
      ∀ v ∈ (dispatchList false t origin cs e).2, v.slot = n → v.path ≠ .instrumented
  | [], _, _, v, hv, _ => absurd hv (List.not_mem_nil v)
  | c :: cs, e, hfin, v, hv, hvn => by
    rcases List.mem_append.mp hv with hv | hv
    · exact wrap_visits_of_finalized origin c e hfin v hv hvn
    · rw [dispatch_fst] at hv
      exact wrapList_visits_of_finalized origin cs e hfin v hv hvn

end

/-- A finalized slot stays finalized, and no call through `wrap<n>` is measured again, at any
depth. -/
theorem finalized_never_measured {cfg : Config Nt} (e : Engine Nt M) (ops : List (Op Nt M))
    (origin : Origin) (c : Call Nt) (hfin : (e.data n).isFinalized = true) :
    ((runOps cfg ops e).data n).isFinalized = true ∧
      ∀ v ∈ (dispatch false t origin c (runOps cfg ops e)).2, v.slot = n →
        v.path ≠ .instrumented := by
  have h := (@stable_finalized Nt M cfg e).runOps ops e fun _ h ↦ h
  exact ⟨h n hfin, wrap_visits_of_finalized t n origin c _ (h n hfin)⟩

/-- After `disable()`, another `start()` and a `construct<0>`, no call through `wrap<0>` is
measured. -/
theorem finalized_never_measured_restart :
    let cfg : Config 1 := ⟨id, false, [(0, "malloc", 0, "tool")]⟩
    let e := runOps cfg [.start 0 false, .disable] (Engine.init 1 1)
    let ops : List (Op 1 1) := [.start 0 false, .construct 0 "malloc" 0 "tool" 0]
    (e.data 0).isFinalized = true ∧ (((runOps cfg ops e).data 0).isFinalized = true ∧
      ∀ v ∈ (dispatch false 0 .program (.mk 0 [] [.mk 0 [] [] [] []] [] []) (runOps cfg ops e)).2,
        v.slot = 0 → v.path ≠ .instrumented) :=
  ⟨by decide, finalized_never_measured 0 0 _ _ .program _ (by decide)⟩

end Finalized

end TimemoryGotcha
