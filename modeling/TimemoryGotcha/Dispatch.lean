import TimemoryGotcha.Invariant

/-!
# The call dispatcher

`wrap<N>` and `wrap_void<N>` stand in for an intercepted symbol. A call passes straight through
when the slot is finalized, not ready, or suppressed by the caller's global flag or by the flag
its suppression pointer designates. Otherwise it withdraws readiness and raises both flags while a
bundle is built and fed the call, lowers the global flag and restores readiness around the
original function, withdraws readiness and raises the global flag again for the outgoing hooks,
and lowers everything before it returns. `replace_func<N>` and `replace_void_func<N>` test
readiness only.

A call is modelled with the calls made while it runs: by the bundle's construction and incoming
hooks, by the original function or the replacement operator, by the outgoing hooks, and by the
bundle's destruction, which runs with every guard lowered. Each flag is lowered only by the toggle
that raised it, so a call returns with the engine as it found it.

The `_protect_tls_alloc` guard and the diagnostic print are left out, and so is the original's
return value, the one difference between `wrap<N>` and `wrap_void<N>`.
-/

namespace TimemoryGotcha

variable {Nt M : Nat}

/-- `_data.ready = value` on slot `n`. -/
def setSlotReady (n : Fin Nt) (value : Bool) (e : Engine Nt M) : Engine Nt M :=
  e.modify n fun d ↦ { d with ready := value }

/-- Modelled from the spec: `toggle_suppress_on(ptr, did)` raises the flag `ptr` designates when
it is lowered, and records that this call raised it. -/
def toggleSuppressOn (ptr : Option (Fin M)) (did : Bool) (e : Engine Nt M) : Engine Nt M × Bool :=
  match ptr with
  | some u =>
    if e.suppression u then (e, did)
    else ({ e with suppression := Function.update e.suppression u true }, true)
  | none => (e, did)

/-- Modelled from the spec: `toggle_suppress_off(ptr, did)` lowers the flag `ptr` designates
only when the matching `toggle_suppress_on` raised it. -/
def toggleSuppressOff (ptr : Option (Fin M)) (did : Bool) (e : Engine Nt M) :
    Engine Nt M × Bool :=
  match ptr with
  | some u =>
    if did && e.suppression u then
      ({ e with suppression := Function.update e.suppression u false }, false)
    else (e, did)
  | none => (e, did)

/-- `gotcha_suppression::get() || (_data.suppression && *_data.suppression)` on thread `t`. -/
def suppressed (t : Fin M) (d : GotchaData M) (e : Engine Nt M) : Bool :=
  e.suppression t || match d.suppression with
    | some u => e.suppression u
    | none => false

/-- The path a call through a dispatcher takes. -/
inductive Path where
  /-- The original function is missing: `Ret{}` is returned. -/
  | unresolved
  /-- Straight to the original function. -/
  | passthrough
  /-- Measured by a bundle, or handed to the replacement operator. -/
  | instrumented
  deriving DecidableEq, Repr

/-- Who made a call. A call made by the original function has its caller's origin. -/
inductive Origin where
  /-- The program itself. -/
  | program
  /-- A bundle's construction, or its `construct`, `start`, `store`, `audit` or `stop` hook. -/
  | hook
  /-- A bundle's destruction when the wrapper's scope ends. -/
  | teardown
  deriving DecidableEq, Repr

/-- One call through a dispatcher, as the trace records it. -/
structure Visit (Nt : Nat) where
  slot : Fin Nt
  path : Path
  origin : Origin
  deriving DecidableEq, Repr

/-- A call through slot `slot`'s dispatcher with the calls made by the hooks (`pre`, `post`), the
body and the destruction. -/
inductive Call (Nt : Nat) where
  | mk (slot : Fin Nt) (pre body post dtor : List (Call Nt))

/-- Lines 597-633 of `wrap<N>`: the path a call on thread `t` takes. -/
def wrapPath (t : Fin M) (n : Fin Nt) (e : Engine Nt M) : Path :=
  let d := e.data n
  if !d.filled then .unresolved
  else if d.isFinalized then .passthrough
  else if !d.ready || suppressed t d e then .passthrough
  else .instrumented

/-- Lines 789-790 of `replace_func<N>`: only readiness is tested. -/
def replacePath (n : Fin Nt) (e : Engine Nt M) : Path :=
  if (e.data n).ready then .instrumented else .passthrough

/-- Whether `wrap<N>` raised the slot's flag and the global flag. -/
structure Toggles where
  didData : Bool
  didGlob : Bool
  deriving DecidableEq, Repr

/-- Lines 635-648: withdraw readiness and raise the slot's flag, then the global flag. -/
def wrapEnter (t : Fin M) (n : Fin Nt) (e : Engine Nt M) : Engine Nt M × Toggles :=
  let e := setSlotReady n false e
  let data := toggleSuppressOn (e.data n).suppression false e
  let glob := toggleSuppressOn (some t) false data.1
  (glob.1, ⟨data.2, glob.2⟩)

/-- Lines 655-657: lower the global flag and restore readiness for the original call. -/
def wrapBeforeCall (t : Fin M) (n : Fin Nt) (e : Engine Nt M) (g : Toggles) :
    Engine Nt M × Toggles :=
  let glob := toggleSuppressOff (some t) g.didGlob e
  (setSlotReady n true glob.1, { g with didGlob := glob.2 })

/-- Lines 659-662: withdraw readiness and raise the global flag for the outgoing hooks. -/
def wrapAfterCall (t : Fin M) (n : Fin Nt) (e : Engine Nt M) (g : Toggles) :
    Engine Nt M × Toggles :=
  let glob := toggleSuppressOn (some t) g.didGlob (setSlotReady n false e)
  (glob.1, { g with didGlob := glob.2 })

/-- Lines 665-669: lower the global flag, then the slot's flag, and restore readiness. -/
def wrapExit (t : Fin M) (n : Fin Nt) (e : Engine Nt M) (g : Toggles) : Engine Nt M :=
  let e := (toggleSuppressOff (some t) g.didGlob e).1
  let e := (toggleSuppressOff (e.data n).suppression g.didData e).1
  setSlotReady n true e

mutual

/-- A call through slot `n`'s dispatcher on thread `t` with the calls it makes: the engine after it
and each call's path. -/
def dispatch (replaces : Bool) (t : Fin M) (origin : Origin) :
    Call Nt → Engine Nt M → Engine Nt M × List (Visit Nt)
  | .mk n pre body post dtor, e =>
    if replaces then
      if replacePath n e = .instrumented then
        let operator := dispatchList replaces t origin body (setSlotReady n false e)
        (setSlotReady n true operator.1, ⟨n, .instrumented, origin⟩ :: operator.2)
      else
        let original := dispatchList replaces t origin body e
        (original.1, ⟨n, .passthrough, origin⟩ :: original.2)
    else
      match wrapPath t n e with
      | .unresolved => (e, [⟨n, .unresolved, origin⟩])
      | .passthrough =>
        let original := dispatchList replaces t origin body e
        (original.1, ⟨n, .passthrough, origin⟩ :: original.2)
      | .instrumented =>
        let entered := wrapEnter t n e
        let hooksIn := dispatchList replaces t .hook pre entered.1
        let called := wrapBeforeCall t n hooksIn.1 entered.2
        let original := dispatchList replaces t origin body called.1
        let returned := wrapAfterCall t n original.1 called.2
        let hooksOut := dispatchList replaces t .hook post returned.1
        let exited := wrapExit t n hooksOut.1 returned.2
        let destroyed := dispatchList replaces t .teardown dtor exited
        (destroyed.1, ⟨n, .instrumented, origin⟩ ::
          (hooksIn.2 ++ original.2 ++ hooksOut.2 ++ destroyed.2))

/-- The calls `cs`, one after another. -/
def dispatchList (replaces : Bool) (t : Fin M) (origin : Origin) :
    List (Call Nt) → Engine Nt M → Engine Nt M × List (Visit Nt)
  | [], e => (e, [])
  | c :: cs, e =>
    let first := dispatch replaces t origin c e
    let rest := dispatchList replaces t origin cs first.1
    (rest.1, first.2 ++ rest.2)

end

/-! ## The phases change nothing a slot records -/

section Phases

variable (t : Fin M) (n : Fin Nt) (e : Engine Nt M)

theorem soft_setSlotReady (value : Bool) : e.Soft (setSlotReady n value e) :=
  soft_modify e n _ fun _ ↦ ⟨rfl, rfl⟩

@[simp] theorem toggleSuppressOn_data (ptr : Option (Fin M)) (did : Bool) :
    (toggleSuppressOn ptr did e).1.data = e.data := by
  unfold toggleSuppressOn; split <;> (try split) <;> rfl

@[simp] theorem toggleSuppressOff_data (ptr : Option (Fin M)) (did : Bool) :
    (toggleSuppressOff ptr did e).1.data = e.data := by
  unfold toggleSuppressOff; split <;> (try split) <;> rfl

theorem soft_toggleSuppressOn (ptr : Option (Fin M)) (did : Bool) :
    e.Soft (toggleSuppressOn ptr did e).1 := by
  unfold toggleSuppressOn; split <;> (try split) <;> exact ⟨fun _ ↦ rfl, fun _ ↦ rfl, rfl, rfl, rfl⟩

theorem soft_toggleSuppressOff (ptr : Option (Fin M)) (did : Bool) :
    e.Soft (toggleSuppressOff ptr did e).1 := by
  unfold toggleSuppressOff; split <;> (try split) <;> exact ⟨fun _ ↦ rfl, fun _ ↦ rfl, rfl, rfl, rfl⟩

/-- After `toggle_suppress_on` the flag it designates is raised, by it or before it. -/
theorem toggleSuppressOn_raised (u : Fin M) (did : Bool) :
    (toggleSuppressOn (some u) did e).1.suppression u = true := by
  simp only [toggleSuppressOn]
  split_ifs with h
  · exact h
  · simp

theorem soft_wrapEnter : e.Soft (wrapEnter t n e).1 :=
  (soft_setSlotReady n e false).trans
    ((soft_toggleSuppressOn _ _ _).trans (soft_toggleSuppressOn _ _ _))

theorem soft_wrapBeforeCall (g : Toggles) : e.Soft (wrapBeforeCall t n e g).1 :=
  (soft_toggleSuppressOff _ _ _).trans (soft_setSlotReady n _ true)

theorem soft_wrapAfterCall (g : Toggles) : e.Soft (wrapAfterCall t n e g).1 :=
  (soft_setSlotReady n e false).trans (soft_toggleSuppressOn _ _ _)

theorem soft_wrapExit (g : Toggles) : e.Soft (wrapExit t n e g) :=
  ((soft_toggleSuppressOff _ _ _).trans (soft_toggleSuppressOff _ _ _)).trans
    (soft_setSlotReady n _ true)

/-- The incoming hooks run with the calling thread's global flag raised. -/
theorem wrapEnter_raised : (wrapEnter t n e).1.suppression t = true :=
  toggleSuppressOn_raised _ t false

/-- So do the outgoing hooks. -/
theorem wrapAfterCall_raised (g : Toggles) : (wrapAfterCall t n e g).1.suppression t = true :=
  toggleSuppressOn_raised _ t g.didGlob

/-- The bundle's destruction runs with slot `n` ready. -/
theorem wrapExit_ready (g : Toggles) : ((wrapExit t n e g).data n).ready = true := by
  simp [wrapExit, setSlotReady]

end Phases

/-! ## Re-entrance -/

section Reentrance

variable (replaces : Bool) (t : Fin M)

mutual

/-- A call through a dispatcher changes nothing a slot records, activates nothing and sends no
request. -/
theorem soft_dispatch (origin : Origin) :
    ∀ (c : Call Nt) (e : Engine Nt M), e.Soft (dispatch replaces t origin c e).1
  | .mk n pre body post dtor, e => by
    have hb (e' : Engine Nt M) := soft_dispatchList origin body e'
    simp only [dispatch]
    split_ifs
    · exact (soft_setSlotReady n e false).trans ((hb _).trans (soft_setSlotReady n _ true))
    · exact hb e
    · split
      · exact .refl e
      · exact hb e
      · exact (soft_wrapEnter t n e).trans ((soft_dispatchList .hook pre _).trans
          ((soft_wrapBeforeCall t n _ _).trans ((hb _).trans ((soft_wrapAfterCall t n _ _).trans
            ((soft_dispatchList .hook post _).trans ((soft_wrapExit t n _ _).trans
              (soft_dispatchList .teardown dtor _)))))))

theorem soft_dispatchList (origin : Origin) :
    ∀ (cs : List (Call Nt)) (e : Engine Nt M), e.Soft (dispatchList replaces t origin cs e).1
  | [], e => .refl e
  | c :: cs, e => (soft_dispatch origin c e).trans (soft_dispatchList origin cs _)

end

mutual

/-- While the caller's global flag is raised, every call through `wrap<N>` passes through and
changes nothing. -/
theorem dispatch_of_raised (origin : Origin) :
    ∀ (c : Call Nt) (e : Engine Nt M), e.suppression t = true →
      ∃ vs, dispatch false t origin c e = (e, vs) ∧ ∀ v ∈ vs, v.path ≠ .instrumented
  | .mk n pre body post dtor, e, ht => by
    obtain ⟨vs, hb, hvs⟩ := dispatchList_of_raised origin body e ht
    have hp : wrapPath t n e ≠ .instrumented := by
      simp only [wrapPath, suppressed, ht, Bool.true_or, Bool.or_true]; split_ifs <;> simp
    simp only [dispatch, Bool.false_eq_true, if_false]
    split
    · exact ⟨_, rfl, by simp⟩
    · rw [hb]
      exact ⟨_, rfl, by simpa using hvs⟩
    · contradiction

theorem dispatchList_of_raised (origin : Origin) :
    ∀ (cs : List (Call Nt)) (e : Engine Nt M), e.suppression t = true →
      ∃ vs, dispatchList false t origin cs e = (e, vs) ∧ ∀ v ∈ vs, v.path ≠ .instrumented
  | [], e, _ => ⟨[], rfl, by simp⟩
  | c :: cs, e, ht => by
    obtain ⟨v, hc, hv⟩ := dispatch_of_raised origin c e ht
    obtain ⟨vs, hcs, hvs⟩ := dispatchList_of_raised origin cs e ht
    refine ⟨v ++ vs, by simp only [dispatchList, hc, hcs], fun w hw ↦ ?_⟩
    rcases List.mem_append.mp hw with hw | hw
    · exact hv w hw
    · exact hvs w hw

end

mutual

theorem dispatch_hook_visits (origin : Origin) (ho : origin ≠ .hook) :
    ∀ (c : Call Nt) (e : Engine Nt M) (v : Visit Nt), v ∈ (dispatch false t origin c e).2 →
      v.origin = .hook → v.path ≠ .instrumented
  | .mk n pre body post dtor, e, v, hv, hvo => by
    simp only [dispatch, Bool.false_eq_true, if_false] at hv
    split at hv
    · rw [List.mem_singleton] at hv
      subst hv
      exact absurd hvo ho
    · rcases List.mem_cons.mp hv with rfl | hv
      · exact absurd hvo ho
      · exact dispatchList_hook_visits origin ho body e v hv hvo
    · rcases List.mem_cons.mp hv with rfl | hv
      · exact absurd hvo ho
      simp only [List.mem_append] at hv
      rcases hv with ((hv | hv) | hv) | hv
      · obtain ⟨vs, h, hvs⟩ := dispatchList_of_raised t .hook pre _ (wrapEnter_raised t n e)
        rw [h] at hv
        exact hvs v hv
      · exact dispatchList_hook_visits origin ho body _ v hv hvo
      · obtain ⟨vs, h, hvs⟩ :=
          dispatchList_of_raised t .hook post _ (wrapAfterCall_raised t n _ _)
        rw [h] at hv
        exact hvs v hv
      · exact dispatchList_hook_visits .teardown (by decide) dtor _ v hv hvo

theorem dispatchList_hook_visits (origin : Origin) (ho : origin ≠ .hook) :
    ∀ (cs : List (Call Nt)) (e : Engine Nt M) (v : Visit Nt),
      v ∈ (dispatchList false t origin cs e).2 → v.origin = .hook → v.path ≠ .instrumented
  | [], _, v, hv, _ => absurd hv (List.not_mem_nil v)
  | c :: cs, e, v, hv, hvo => by
    rcases List.mem_append.mp hv with hv | hv
    · exact dispatch_hook_visits origin ho c e v hv hvo
    · exact dispatchList_hook_visits origin ho cs _ v hv hvo

end

/-- No call made by a bundle's construction or its hooks is measured, at any depth. -/
theorem hook_calls_pass_through (c : Call Nt) (e : Engine Nt M) (v : Visit Nt)
    (hv : v ∈ (dispatch false t .program c e).2) (hvo : v.origin = .hook) :
    v.path ≠ .instrumented :=
  dispatch_hook_visits t .program (by decide) c e v hv hvo

/-- A call through `wrap<0>` whose bundle calls `wrap<0>` again from its `start` hook and its
destruction. -/
theorem hook_calls_pass_through_malloc :
    let e := start ⟨id, false, [(0, "malloc", 0, "tool")]⟩ (0 : Fin 1) false (Engine.init 1 1)
    let c : Call 1 := .mk 0 [.mk 0 [] [] [] []] [] [] [.mk 0 [] [] [] []]
    let v : Visit 1 := ⟨0, .passthrough, .hook⟩
    v ∈ (dispatch false 0 .program c e).2 ∧ v.origin = .hook ∧ v.path ≠ .instrumented := by
  intro e c v
  have hv : v ∈ (dispatch false 0 .program c e).2 := by decide
  exact ⟨hv, rfl, hook_calls_pass_through 0 c e v hv rfl⟩

/-- The inner call from the `start` hook passes through; the one from the bundle's destruction is
measured. -/
theorem bundle_destructor_reenters :
    (dispatch false 0 .program (.mk 0 [.mk 0 [] [] [] []] [] [] [.mk 0 [] [] [] []])
      (start ⟨id, false, [(0, "malloc", 0, "tool")]⟩ (0 : Fin 1) false (Engine.init 1 1))).2 =
      [⟨0, .instrumented, .program⟩, ⟨0, .passthrough, .hook⟩, ⟨0, .instrumented, .teardown⟩] := by
  decide

end Reentrance

/-! ## Save and restore -/

section Restore

variable (t : Fin M) (n : Fin Nt) (e : Engine Nt M)

/-- What `wrap<N>` has checked before it instruments a call. -/
theorem wrapPath_instrumented (h : wrapPath t n e = .instrumented) :
    (e.data n).ready = true ∧ e.suppression t = false ∧
      ∀ u, (e.data n).suppression = some u → e.suppression u = false := by
  simp only [wrapPath] at h
  split_ifs at h with h₁ h₂ h₃
  have hs : (e.data n).ready = true ∧ suppressed t (e.data n) e = false := by simpa using h₃
  simp only [suppressed, Bool.or_eq_false_iff] at hs
  refine ⟨hs.1, hs.2.1, fun u hu ↦ ?_⟩
  simpa [hu] using hs.2.2

/-- `toggle_suppress_on` on a flag raises it, and records a raise unless it was raised already. -/
theorem toggleSuppressOn_some (u : Fin M) (did : Bool) :
    toggleSuppressOn (some u) did e =
      ({ e with suppression := Function.update e.suppression u true }, did || !e.suppression u) := by
  dsimp only [toggleSuppressOn]
  cases h : e.suppression u
  · simp
  · rw [Function.update_eq_self_iff.mpr h.symm]
    exact Prod.ext rfl (by simp)

/-- `toggle_suppress_off` on a flag lowers it only for the caller that recorded a raise. -/
theorem toggleSuppressOff_some (u : Fin M) (did : Bool) :
    toggleSuppressOff (some u) did e =
      ({ e with suppression := if did then Function.update e.suppression u false else e.suppression },
        did && !e.suppression u) := by
  dsimp only [toggleSuppressOff]
  cases did <;> cases h : e.suppression u
  · rfl
  · rfl
  · rw [Function.update_eq_self_iff.mpr h.symm]
    exact Prod.ext rfl (by simp)
  · simp

theorem restored {d : GotchaData M} {S : Fin M → Bool} (hd : d = e.data n)
    (hS : S = e.suppression) :
    { e with data := Function.update e.data n d, suppression := S } = e := by
  subst hd hS
  simp only [Function.update_eq_self]

/-- An instrumented call's phases leave the engine as they found it, wherever the slot's pointer
designates. -/
theorem wrapPhases_restore (h : wrapPath t n e = .instrumented) :
    wrapExit t n (wrapAfterCall t n (wrapBeforeCall t n (wrapEnter t n e).1 (wrapEnter t n e).2).1
      (wrapBeforeCall t n (wrapEnter t n e).1 (wrapEnter t n e).2).2).1
      (wrapAfterCall t n (wrapBeforeCall t n (wrapEnter t n e).1 (wrapEnter t n e).2).1
      (wrapBeforeCall t n (wrapEnter t n e).1 (wrapEnter t n e).2).2).2 = e := by
  obtain ⟨hready, hglob, hslot⟩ := wrapPath_instrumented t n e h
  rcases hds : (e.data n).suppression with _ | u
  · -- No slot flag: the global toggles raise and lower the calling thread's flag twice.
    simp [wrapExit, wrapAfterCall, wrapBeforeCall, wrapEnter, toggleSuppressOn_some,
      toggleSuppressOff_some, toggleSuppressOn, toggleSuppressOff, setSlotReady, Engine.modify, hds, hglob]
    exact restored n e (by rw [← hready, ← hds]) (Function.update_eq_self_iff.mpr hglob.symm)
  · have hsu := hslot u hds
    by_cases hu : u = t
    · -- The slot flag is the calling thread's own: only the slot toggles change it.
      subst hu
      simp [wrapExit, wrapAfterCall, wrapBeforeCall, wrapEnter, toggleSuppressOn_some,
        toggleSuppressOff_some, setSlotReady, Engine.modify, hds, hglob]
      exact restored n e (by rw [← hready, ← hds]) (Function.update_eq_self_iff.mpr hglob.symm)
    · -- Another thread's flag: each pair of toggles restores its own flag.
      simp [wrapExit, wrapAfterCall, wrapBeforeCall, wrapEnter, toggleSuppressOn_some,
        toggleSuppressOff_some, setSlotReady, Engine.modify, hds, hglob, hsu, Function.update_apply,
        hu, Ne.symm hu]
      refine restored n e (by rw [← hready, ← hds]) (funext fun v ↦ ?_)
      by_cases hvu : v = u
      · subst hvu; simp [hsu]
      · by_cases hvt : v = t
        · subst hvt; simp [hvu, hglob]
        · simp [hvu, hvt]

theorem setSlotReady_withdraw_restore (h : (e.data n).ready = true) :
    setSlotReady n true (setSlotReady n false e) = e := by
  simp only [setSlotReady, Engine.modify, Function.update_same, Function.update_idem]
  exact restored n e (by rw [← h]) rfl

end Restore

section RestoreRun

variable (replaces : Bool) (t : Fin M)

mutual

/-- A call through a dispatcher returns with the engine exactly as it found it. -/
theorem dispatch_fst (origin : Origin) :
    ∀ (c : Call Nt) (e : Engine Nt M), (dispatch replaces t origin c e).1 = e
  | .mk n pre body post dtor, e => by
    have hpre := dispatchList_fst .hook pre
    have hbody := dispatchList_fst origin body
    have hpost := dispatchList_fst .hook post
    have hdtor := dispatchList_fst .teardown dtor
    simp only [dispatch]
    split_ifs with hr hp
    · rw [hbody]
      exact setSlotReady_withdraw_restore n e (by simpa [replacePath] using hp)
    · exact hbody e
    · split
      · rfl
      · exact hbody e
      · next hw => simp only [hpre, hbody, hpost, hdtor]; exact wrapPhases_restore t n e hw

theorem dispatchList_fst (origin : Origin) :
    ∀ (cs : List (Call Nt)) (e : Engine Nt M), (dispatchList replaces t origin cs e).1 = e
  | [], _ => rfl
  | c :: cs, e => by
    simp only [dispatchList]
    rw [dispatchList_fst origin cs, dispatch_fst origin c]

end

/-- `wrap<N>` returns with the caller's flag, the pointer's flag and the slot's readiness as it
found them. -/
theorem wrap_restores_flags (origin : Origin) (n : Fin Nt) (pre body post dtor : List (Call Nt))
    (e : Engine Nt M) :
    (dispatch false t origin (.mk n pre body post dtor) e).1.suppression t = e.suppression t ∧
    (∀ u, (e.data n).suppression = some u →
      (dispatch false t origin (.mk n pre body post dtor) e).1.suppression u = e.suppression u) ∧
    ((dispatch false t origin (.mk n pre body post dtor) e).1.data n).ready = (e.data n).ready := by
  rw [dispatch_fst]
  exact ⟨rfl, fun _ _ ↦ rfl, rfl⟩

end RestoreRun

end TimemoryGotcha
