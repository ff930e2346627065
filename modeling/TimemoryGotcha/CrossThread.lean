import TimemoryGotcha.Interleaving
import TimemoryGotcha.Runs

/-!
# A suppression pointer across threads

A slot filled for a symbol registered with `add_global_suppression` keeps a pointer to the
suppression flag of the thread that filled it: `gotcha_suppression::get()` is thread-local. A call
through the slot's `wrap<N>`, on whichever thread, raises that flag on entry unless it is up, and
lowers it on return only if it raised it. Over every interleaving of the calls' phases with engine
calls, each raise is held by at most one call: the flag a call holds stays raised, so the pointer's
thread is silenced meanwhile. A call that found the flag up holds nothing, and the holder's return
lowers the flag under it.

Once no call is in flight, every flag is back as it was.
-/

namespace TimemoryGotcha

variable {Nt M : Nat}

/-! ## The phases of `wrap<N>` on the table and the flags -/

section Phases

variable (t : Fin M) (n : Fin Nt) (e : Engine Nt M) (g : Toggles)

@[simp] theorem setSlotReady_filled (m : Fin Nt) (value : Bool) :
    ((setSlotReady n value e).data m).filled = (e.data m).filled := by
  simp only [setSlotReady, Engine.modify_data_apply]; split_ifs with h <;> simp [h]

@[simp] theorem setSlotReady_pointer (m : Fin Nt) (value : Bool) :
    ((setSlotReady n value e).data m).suppression = (e.data m).suppression := by
  simp only [setSlotReady, Engine.modify_data_apply]; split_ifs with h <;> simp [h]

@[simp] theorem setSlotReady_suppression (value : Bool) :
    (setSlotReady n value e).suppression = e.suppression := rfl

@[simp] theorem toggleSuppressOn_none (did : Bool) : toggleSuppressOn none did e = (e, did) := rfl

@[simp] theorem toggleSuppressOff_none (did : Bool) : toggleSuppressOff none did e = (e, did) := rfl

@[simp] theorem wrapEnter_data : (wrapEnter t n e).1.data = (setSlotReady n false e).data := by
  simp [wrapEnter]

@[simp] theorem wrapBeforeCall_data : (wrapBeforeCall t n e g).1.data = (setSlotReady n true e).data := by
  simp [wrapBeforeCall, setSlotReady, Engine.modify]

@[simp] theorem wrapAfterCall_data : (wrapAfterCall t n e g).1.data = (setSlotReady n false e).data := by
  simp [wrapAfterCall, setSlotReady]

@[simp] theorem wrapExit_data : (wrapExit t n e g).data = (setSlotReady n true e).data := by
  simp [wrapExit, setSlotReady, Engine.modify]

/-- Entering raises the calling thread's flag and the one the slot's pointer designates. -/
theorem wrapEnter_suppression (v : Fin M) :
    (wrapEnter t n e).1.suppression v =
      (decide (v = t) || decide ((e.data n).suppression = some v) || e.suppression v) := by
  rcases hp : (e.data n).suppression with _ | u
  · simp [wrapEnter, toggleSuppressOn_some, hp, Function.update_apply]
  · simp [wrapEnter, toggleSuppressOn_some, hp, Function.update_apply, eq_comm, Bool.or_assoc]

/-- The global toggle records a raise unless the slot toggle or someone else raised the flag. -/
theorem wrapEnter_didGlob :
    (wrapEnter t n e).2.didGlob = !(decide ((e.data n).suppression = some t) || e.suppression t) := by
  rcases hp : (e.data n).suppression with _ | u
  · simp [wrapEnter, toggleSuppressOn_some, hp]
  · simp [wrapEnter, toggleSuppressOn_some, hp, Function.update_apply, eq_comm]

theorem wrapBeforeCall_suppression :
    (wrapBeforeCall t n e g).1.suppression =
      if g.didGlob then Function.update e.suppression t false else e.suppression := by
  simp [wrapBeforeCall, toggleSuppressOff_some]

theorem wrapBeforeCall_didGlob :
    (wrapBeforeCall t n e g).2.didGlob = (g.didGlob && !e.suppression t) := by
  simp [wrapBeforeCall, toggleSuppressOff_some]

theorem wrapAfterCall_suppression :
    (wrapAfterCall t n e g).1.suppression = Function.update e.suppression t true := by
  simp [wrapAfterCall, toggleSuppressOn_some]

theorem wrapAfterCall_didGlob :
    (wrapAfterCall t n e g).2.didGlob = (g.didGlob || !e.suppression t) := by
  simp [wrapAfterCall, toggleSuppressOn_some]

/-- The slot toggle records a raise exactly when the pointer's flag was lowered. -/
theorem wrapEnter_didData : (wrapEnter t n e).2.didData = true ↔
    ∃ u, (e.data n).suppression = some u ∧ e.suppression u = false := by
  rcases hp : (e.data n).suppression with _ | u
  · simp [wrapEnter, hp]
  · simp [wrapEnter, toggleSuppressOn_some, hp]

/-- The return lowers each flag whose raise its toggles recorded. -/
theorem wrapExit_suppression (v : Fin M) :
    (wrapExit t n e g).suppression v = (e.suppression v && !(decide (v = t) && g.didGlob) &&
      !(decide ((e.data n).suppression = some v) && g.didData)) := by
  rcases hp : (e.data n).suppression with _ | u <;> rcases hg : g.didGlob <;>
    rcases hd : g.didData <;>
    simp [wrapExit, toggleSuppressOff_some, hp, hg, hd, Function.update_apply, eq_comm,
      Bool.and_comm, Bool.and_left_comm]

theorem wrapPath_filled (h : wrapPath t n e = .instrumented) : (e.data n).filled = true := by
  simp only [wrapPath] at h
  split_ifs at h with h₁
  simpa using h₁

end Phases

/-! ## Who holds a raise of which flag -/

/-- The call's `did_glob_toggle`: it holds a raise of its own thread's flag. -/
def CallPc.didGlob : CallPc → Bool
  | .hooksIn g | .original g | .hooksOut g => g.didGlob
  | _ => false

/-- The call's `did_data_toggle`: it holds a raise of the flag the slot's pointer designates. -/
def CallPc.didData : CallPc → Bool
  | .hooksIn g | .original g | .hooksOut g => g.didData
  | _ => false

/-- A call through `wrap<N>` is past its entry tests. -/
def CallPc.wrapping : CallPc → Bool
  | .tested | .hooksIn _ | .original _ | .hooksOut _ => true
  | _ => false

theorem CallPc.wrapping_of_didGlob {pc : CallPc} (h : pc.didGlob = true) : pc.wrapping = true := by
  cases pc <;> simp_all [CallPc.didGlob, CallPc.wrapping]

theorem CallPc.wrapping_of_didData {pc : CallPc} (h : pc.didData = true) : pc.wrapping = true := by
  cases pc <;> simp_all [CallPc.didData, CallPc.wrapping]

/-- Some call in flight holds a raise of `v`'s flag: `v`'s own, or the pointer's slot toggle. -/
def Flights.Holds (n : Fin Nt) (s : Flights Nt M) (v : Fin M) : Prop :=
  (s.pcs v).didGlob = true ∨
    ((s.engine.data n).suppression = some v ∧ ∃ x, (s.pcs x).didData = true)

/-- The flags against their values `S` before the calls: up exactly when up before or held, each
held raise taken from lowered by one holder. -/
structure Flights.Balanced (n : Fin Nt) (S : Fin M → Bool) (s : Flights Nt M) : Prop where
  filled : ∀ x, (s.pcs x).wrapping = true → (s.engine.data n).filled = true
  flags : ∀ v, s.engine.suppression v = true ↔ S v = true ∨ s.Holds n v
  fresh : ∀ v, s.Holds n v → S v = false
  dataOnce : ∀ x y, (s.pcs x).didData = true → (s.pcs y).didData = true → x = y
  apart : ∀ v, (s.pcs v).didGlob = true → (s.engine.data n).suppression = some v →
    ∀ x, (s.pcs x).didData = false

section Balanced

variable {cfg : Config Nt} {n : Fin Nt} {S : Fin M → Bool}

theorem Flights.balanced_of_idle (s : Flights Nt M) (h : ∀ x, s.pcs x = .idle) :
    s.Balanced n s.engine.suppression where
  filled x hx := by simp [h x, CallPc.wrapping] at hx
  flags v := by simp [Flights.Holds, h, CallPc.didGlob, CallPc.didData]
  fresh v hv := by simp [Flights.Holds, h, CallPc.didGlob, CallPc.didData] at hv
  dataOnce x _ hx := by simp [h x, CallPc.didData] at hx
  apart v hv := by simp [h v, CallPc.didGlob] at hv

theorem Flights.Balanced.before_of_lowered {s : Flights Nt M} (b : s.Balanced n S) {v : Fin M}
    (hv : s.engine.suppression v = false) : S v = false ∧ ¬s.Holds n v := by
  have h := (b.flags v).not.mp (by simp [hv])
  exact ⟨by simpa using (not_or.mp h).1, (not_or.mp h).2⟩

theorem exists_didData_update {pcs : Fin M → CallPc} {x : Fin M} {pc : CallPc} :
    (∃ y, (Function.update pcs x pc y).didData = true) ↔
      pc.didData = true ∨ ∃ y, y ≠ x ∧ (pcs y).didData = true := by
  constructor
  · rintro ⟨y, hy⟩
    by_cases hyx : y = x
    · subst hyx; exact .inl (by simpa using hy)
    · exact .inr ⟨y, hyx, by rwa [Function.update_noteq hyx] at hy⟩
  · rintro (h | ⟨y, hyx, hy⟩)
    · exact ⟨x, by simpa using h⟩
    · exact ⟨y, by rwa [Function.update_noteq hyx]⟩

/-- Who holds a raise after thread `x`'s call moves to `pc`. -/
theorem Flights.holds_update {s : Flights Nt M} {x : Fin M} {e' : Engine Nt M} {pc : CallPc}
    (v : Fin M) : Flights.Holds n ⟨e', Function.update s.pcs x pc⟩ v ↔
      (if v = x then pc.didGlob else (s.pcs v).didGlob) = true ∨
      ((e'.data n).suppression = some v ∧
        (pc.didData = true ∨ ∃ y, y ≠ x ∧ (s.pcs y).didData = true)) := by
  unfold Flights.Holds
  dsimp only
  rw [exists_didData_update, Function.update_apply]
  by_cases hvx : v = x <;> simp [hvx]

theorem didGlob_update {pcs : Fin M → CallPc} {x : Fin M} {pc : CallPc} (y : Fin M) :
    (Function.update pcs x pc y).didGlob = if y = x then pc.didGlob else (pcs y).didGlob := by
  rw [Function.update_apply]; split_ifs <;> rfl

theorem didData_update {pcs : Fin M → CallPc} {x : Fin M} {pc : CallPc} (y : Fin M) :
    (Function.update pcs x pc y).didData = if y = x then pc.didData else (pcs y).didData := by
  rw [Function.update_apply]; split_ifs <;> rfl

theorem didData_update_keep {pcs : Fin M → CallPc} {x : Fin M} {pc : CallPc}
    (h : pc.didData = (pcs x).didData) (y : Fin M) :
    (Function.update pcs x pc y).didData = (pcs y).didData := by
  rw [didData_update]; split_ifs with hyx
  exacts [hyx ▸ h, rfl]

theorem didGlob_of_update {pcs : Fin M → CallPc} {x : Fin M} {pc : CallPc}
    (h : pc.didGlob = false) (y : Fin M) (hy : (Function.update pcs x pc y).didGlob = true) :
    (pcs y).didGlob = true := by
  rw [didGlob_update] at hy
  split_ifs at hy
  exacts [absurd hy (by simp [h]), hy]

theorem didData_of_update {pcs : Fin M → CallPc} {x : Fin M} {pc : CallPc}
    (h : pc.didData = false) (y : Fin M) (hy : (Function.update pcs x pc y).didData = true) :
    (pcs y).didData = true := by
  rw [didData_update] at hy
  split_ifs at hy
  exacts [absurd hy (by simp [h]), hy]

/-- Who holds a raise after a phase that keeps the pointer and the caller's slot toggle. -/
theorem Flights.holds_update_keep {s : Flights Nt M} {x : Fin M} {e' : Engine Nt M} {pc : CallPc}
    (hd : pc.didData = (s.pcs x).didData)
    (hp : (e'.data n).suppression = (s.engine.data n).suppression) (v : Fin M) :
    Flights.Holds n ⟨e', Function.update s.pcs x pc⟩ v ↔
      (if v = x then pc.didGlob else (s.pcs v).didGlob) = true ∨
      ((s.engine.data n).suppression = some v ∧ ∃ y, (s.pcs y).didData = true) := by
  unfold Flights.Holds
  dsimp only
  simp only [didGlob_update, didData_update_keep hd, hp]

theorem Flights.Balanced.filled_update {s : Flights Nt M} (b : s.Balanced n S) {x : Fin M}
    {e' : Engine Nt M} {pc : CallPc} (hf : (e'.data n).filled = (s.engine.data n).filled)
    (hw : pc.wrapping = true → (s.engine.data n).filled = true) (y : Fin M)
    (hy : (Function.update s.pcs x pc y).wrapping = true) : (e'.data n).filled = true := by
  rw [hf]
  rw [Function.update_apply] at hy
  split_ifs at hy
  exacts [hw hy, b.filled y hy]

/-- A phase that drops raises and keeps the pointer keeps the balance once the flags agree. -/
theorem Flights.Balanced.mono {s s' : Flights Nt M} (b : s.Balanced n S)
    (hp : (s'.engine.data n).suppression = (s.engine.data n).suppression)
    (hg : ∀ y, (s'.pcs y).didGlob = true → (s.pcs y).didGlob = true)
    (hd : ∀ y, (s'.pcs y).didData = true → (s.pcs y).didData = true)
    (hf : ∀ y, (s'.pcs y).wrapping = true → (s'.engine.data n).filled = true)
    (hflags : ∀ v, s'.engine.suppression v = true ↔ S v = true ∨ s'.Holds n v) :
    s'.Balanced n S := by
  have hholds {v : Fin M} : s'.Holds n v → s.Holds n v := by
    rintro (hv | ⟨hpv, y, hy⟩)
    exacts [.inl (hg v hv), .inr ⟨hp ▸ hpv, y, hd y hy⟩]
  refine ⟨hf, hflags, fun v hv ↦ b.fresh v (hholds hv),
    fun y z hy hz ↦ b.dataOnce y z (hd y hy) (hd z hz), fun v hv hpv y ↦ ?_⟩
  cases hy : (s'.pcs y).didData
  · rfl
  · simpa [hd y hy] using b.apart v (hg v hv) (hp ▸ hpv) y

/-- A step that moves no flag, pointer or filling and takes no raise: the tests and the replacing
phases. -/
theorem Flights.Balanced.quiet {s : Flights Nt M} (b : s.Balanced n S) {x : Fin M}
    {e' : Engine Nt M} {pc : CallPc} (hS : e'.suppression = s.engine.suppression)
    (hp : (e'.data n).suppression = (s.engine.data n).suppression)
    (hf : (e'.data n).filled = (s.engine.data n).filled)
    (hx : (s.pcs x).didGlob = false ∧ (s.pcs x).didData = false)
    (hpc : pc.didGlob = false ∧ pc.didData = false)
    (hw : pc.wrapping = true → (s.engine.data n).filled = true) :
    Flights.Balanced n S ⟨e', Function.update s.pcs x pc⟩ := by
  refine b.mono hp (didGlob_of_update hpc.1) (didData_of_update hpc.2) (b.filled_update hf hw)
    (fun v ↦ ?_)
  show e'.suppression v = true ↔ _
  rw [hS, Flights.holds_update_keep (hpc.2.trans hx.2.symm) hp, b.flags v, ← didGlob_update,
    Function.update_apply]
  by_cases hvx : v = x
  · subst hvx; simp [Flights.Holds, hx.1, hpc.1]
  · simp [Flights.Holds, hvx]

/-- An engine call moves no flag, and keeps the pointer of a slot a call is under way through. -/
theorem Flights.Balanced.op {s : Flights Nt M} (b : s.Balanced n S) (o : Op Nt M) :
    (s.step cfg n (.op o)).Balanced n S := by
  have hS : (o.apply cfg s.engine).suppression = s.engine.suppression :=
    (@stable_flags Nt M cfg s.engine.suppression).apply o _ rfl
  have hP (x : Fin M) (hx : (s.pcs x).wrapping = true) :=
    (@stable_pointer Nt M cfg n (s.engine.data n).suppression).apply o _ ⟨b.filled x hx, rfl⟩
  have hholds (v : Fin M) :
      Flights.Holds n ⟨o.apply cfg s.engine, s.pcs⟩ v ↔ s.Holds n v := by
    unfold Flights.Holds
    constructor
    · rintro (hg | ⟨hv, x, hx⟩)
      exacts [.inl hg, .inr ⟨(hP x (CallPc.wrapping_of_didData hx)).2 ▸ hv, x, hx⟩]
    · rintro (hg | ⟨hv, x, hx⟩)
      exacts [.inl hg, .inr ⟨(hP x (CallPc.wrapping_of_didData hx)).2.symm ▸ hv, x, hx⟩]
  refine ⟨fun x hx ↦ (hP x hx).1, fun v ↦ ?_, fun v hv ↦ b.fresh v ((hholds v).mp hv),
    b.dataOnce, fun v hv hpv ↦ b.apart v hv ((hP v (CallPc.wrapping_of_didGlob hv)).2 ▸ hpv)⟩
  show (o.apply cfg s.engine).suppression v = true ↔
    S v = true ∨ Flights.Holds n ⟨o.apply cfg s.engine, s.pcs⟩ v
  rw [hS, hholds, b.flags v]

/-- The entry writes: the call raises the pointer's flag and its own, and holds each raise it took
from a lowered flag. -/
theorem Flights.Balanced.enter {s : Flights Nt M} (b : s.Balanced n S) {x : Fin M}
    (hx : s.pcs x = .tested) :
    Flights.Balanced n S ⟨(wrapEnter x n s.engine).1,
      Function.update s.pcs x (.hooksIn (wrapEnter x n s.engine).2)⟩ := by
  set g := (wrapEnter x n s.engine).2
  have hp : ((wrapEnter x n s.engine).1.data n).suppression = (s.engine.data n).suppression := by
    rw [wrapEnter_data, setSlotReady_pointer]
  have hg : g.didGlob = !(decide ((s.engine.data n).suppression = some x) || s.engine.suppression x) :=
    wrapEnter_didGlob x n s.engine
  have hd : g.didData = true ↔
      ∃ u, (s.engine.data n).suppression = some u ∧ s.engine.suppression u = false :=
    wrapEnter_didData x n s.engine
  have hx0 : (s.pcs x).didGlob = false ∧ (s.pcs x).didData = false := by rw [hx]; exact ⟨rfl, rfl⟩
  have hex : (∃ y, y ≠ x ∧ (s.pcs y).didData = true) ↔ ∃ y, (s.pcs y).didData = true :=
    ⟨fun ⟨y, _, hy⟩ ↦ ⟨y, hy⟩, fun ⟨y, hy⟩ ↦ ⟨y, fun hyx ↦ by simp [hyx, hx0.2] at hy, hy⟩⟩
  have hholds (v : Fin M) : Flights.Holds n ⟨(wrapEnter x n s.engine).1,
      Function.update s.pcs x (.hooksIn g)⟩ v ↔
      (if v = x then g.didGlob else (s.pcs v).didGlob) = true ∨
        ((s.engine.data n).suppression = some v ∧
          (g.didData = true ∨ ∃ y, (s.pcs y).didData = true)) := by
    rw [Flights.holds_update, hp, ← hex]; rfl
  -- A data raise taken now found the pointer's flag lowered, so no one held it before.
  have hnew {u : Fin M} (hpu : (s.engine.data n).suppression = some u) (hdd : g.didData = true) :
      s.engine.suppression u = false := by
    obtain ⟨u', hpu', hu'⟩ := hd.mp hdd
    rw [hpu] at hpu'; cases hpu'; exact hu'
  have hold {v : Fin M} (hv : s.Holds n v) : s.engine.suppression v = true :=
    (b.flags v).mpr (.inr hv)
  refine ⟨b.filled_update (by simp) (fun _ ↦ b.filled x (by rw [hx]; rfl)), fun v ↦ ?_,
    fun v hv ↦ ?_, fun y z hy hz ↦ ?_, fun v hv hpv y ↦ ?_⟩
  · show (wrapEnter x n s.engine).1.suppression v = true ↔ _
    rw [hholds, wrapEnter_suppression]
    by_cases hvx : v = x
    · -- The caller's own flag is raised, by its own toggle or before.
      subst hvx
      simp only [decide_True, Bool.true_or, if_true, true_iff]
      by_cases hfv : s.engine.suppression v = true
      · rcases (b.flags v).mp hfv with hS | hg0 | ⟨hpv, y, hy⟩
        · exact .inl hS
        · exact absurd hg0 (by simp [hx0.1])
        · exact .inr (.inr ⟨hpv, .inr ⟨y, hy⟩⟩)
      · by_cases hpv : (s.engine.data n).suppression = some v
        · exact .inr (.inr ⟨hpv, .inl (hd.mpr ⟨v, hpv, by simpa using hfv⟩)⟩)
        · exact .inr (.inl (by rw [hg]; simp [hpv, hfv]))
    · simp only [hvx, decide_False, Bool.false_or, Bool.or_eq_true, decide_eq_true_eq, if_false]
      constructor
      · intro h
        by_cases hfv : s.engine.suppression v = true
        · rcases (b.flags v).mp hfv with hS | hg0 | ⟨hpv, y, hy⟩
          exacts [.inl hS, .inr (.inl hg0), .inr (.inr ⟨hpv, .inr ⟨y, hy⟩⟩)]
        · have hpv := h.resolve_right hfv
          exact .inr (.inr ⟨hpv, .inl (hd.mpr ⟨v, hpv, by simpa using hfv⟩)⟩)
      · rintro (hS | hg0 | ⟨hpv, -⟩)
        exacts [.inr ((b.flags v).mpr (.inl hS)), .inr (hold (.inl hg0)), .inl hpv]
  · rcases (hholds v).mp hv with hgl | ⟨hpv, hdd | ⟨y, hy⟩⟩
    · by_cases hvx : v = x
      · subst hvx
        rw [if_pos rfl, hg] at hgl
        exact (b.before_of_lowered (by simp at hgl; exact hgl.2)).1
      · rw [if_neg hvx] at hgl
        exact b.fresh v (.inl hgl)
    · exact (b.before_of_lowered (hnew hpv hdd)).1
    · exact b.fresh v (.inr ⟨hpv, y, hy⟩)
  · rw [didData_update] at hy hz
    -- A second holder would have found the pointer's flag raised.
    have hone {w : Fin M} (hw : (s.pcs w).didData = true) (hdd : g.didData = true) : False := by
      obtain ⟨u, hpu, hu⟩ := hd.mp hdd
      simpa [hu] using hold (.inr ⟨hpu, w, hw⟩)
    split_ifs at hy hz with hyx hzx hzx
    · exact hyx.trans hzx.symm
    · exact (hone hz hy).elim
    · exact (hone hy hz).elim
    · exact b.dataOnce y z hy hz
  · change ((wrapEnter x n s.engine).1.data n).suppression = some v at hpv
    rw [hp] at hpv
    rw [didGlob_update] at hv
    rw [didData_update]
    by_cases hvx : v = x
    · subst hvx
      rw [if_pos rfl] at hv
      change g.didGlob = true at hv
      simp [hg, hpv] at hv
    · rw [if_neg hvx] at hv
      split_ifs with hyx
      · change g.didData = false
        cases hdd : g.didData
        · rfl
        · simpa [hnew hpv hdd] using hold (.inl hv)
      · exact b.apart v hv hpv y

/-- Before the original call, the caller gives back its raise of its own flag. -/
theorem Flights.Balanced.beforeCall {s : Flights Nt M} (b : s.Balanced n S) {x : Fin M}
    {g : Toggles} (hx : s.pcs x = .hooksIn g) :
    Flights.Balanced n S ⟨(wrapBeforeCall x n s.engine g).1,
      Function.update s.pcs x (.original (wrapBeforeCall x n s.engine g).2)⟩ := by
  have hxg : (s.pcs x).didGlob = g.didGlob := by rw [hx]; rfl
  have hkeep : (CallPc.original (wrapBeforeCall x n s.engine g).2).didData = (s.pcs x).didData := by
    rw [hx]; rfl
  -- The raise the caller held is still up, so lowering it clears its toggle.
  have hg' : (CallPc.original (wrapBeforeCall x n s.engine g).2).didGlob = false := by
    show (wrapBeforeCall x n s.engine g).2.didGlob = false
    rw [wrapBeforeCall_didGlob]
    cases hgg : g.didGlob
    · rfl
    · simp [(b.flags x).mpr (.inr (.inl (hxg.trans hgg)))]
  have hp : ((wrapBeforeCall x n s.engine g).1.data n).suppression =
      (s.engine.data n).suppression := by rw [wrapBeforeCall_data, setSlotReady_pointer]
  refine b.mono hp (didGlob_of_update hg') (fun y hy ↦ by rwa [didData_update_keep hkeep] at hy)
    (b.filled_update (by simp) (fun _ ↦ b.filled x (by rw [hx]; rfl))) (fun v ↦ ?_)
  show (wrapBeforeCall x n s.engine g).1.suppression v = true ↔ _
  rw [Flights.holds_update_keep hkeep hp, wrapBeforeCall_suppression]
  by_cases hvx : v = x
  · subst hvx
    rw [if_pos rfl, hg']
    cases hgg : g.didGlob
    · simp only [Bool.false_eq_true, if_false, false_or, b.flags v, Flights.Holds, hxg, hgg]
    · -- The caller held the raise: no one else wants the flag up.
      have hH : s.Holds n v := .inl (hxg.trans hgg)
      simp only [if_true, Function.update_same, Bool.false_eq_true, false_or, false_iff,
        not_or, not_and, not_exists]
      refine ⟨by simp [b.fresh v hH], fun hpv y hy ↦ ?_⟩
      simp [b.apart v (hxg.trans hgg) hpv y] at hy
  · have hf : (if g.didGlob = true then Function.update s.engine.suppression x false
        else s.engine.suppression) v = s.engine.suppression v := by
      split_ifs <;> simp [Function.update_noteq hvx]
    rw [hf, if_neg hvx, b.flags v]
    rfl

/-- After the original call, the caller raises its own flag again, and holds the raise if it
found the flag lowered. -/
theorem Flights.Balanced.afterCall {s : Flights Nt M} (b : s.Balanced n S) {x : Fin M}
    {g : Toggles} (hx : s.pcs x = .original g) :
    Flights.Balanced n S ⟨(wrapAfterCall x n s.engine g).1,
      Function.update s.pcs x (.hooksOut (wrapAfterCall x n s.engine g).2)⟩ := by
  set g' := (wrapAfterCall x n s.engine g).2 with hgdef
  have hxg : (s.pcs x).didGlob = g.didGlob := by rw [hx]; rfl
  have hkeep : (CallPc.hooksOut g').didData = (s.pcs x).didData := by rw [hx]; rfl
  have hp : ((wrapAfterCall x n s.engine g).1.data n).suppression =
      (s.engine.data n).suppression := by rw [wrapAfterCall_data, setSlotReady_pointer]
  have hholds := Flights.holds_update_keep hkeep hp
  -- A raise the caller holds now either was held before or found the flag lowered.
  have hlow (h : (CallPc.hooksOut g').didGlob = true) :
      (s.pcs x).didGlob = true ∨ s.engine.suppression x = false := by
    change g'.didGlob = true at h
    rw [hgdef, wrapAfterCall_didGlob] at h
    rw [hxg]
    cases hfx : s.engine.suppression x <;> simp_all
  refine ⟨b.filled_update (by simp) (fun _ ↦ b.filled x (by rw [hx]; rfl)), fun v ↦ ?_,
    fun v hv ↦ ?_, fun y z hy hz ↦ ?_, fun v hv hpv y ↦ ?_⟩
  · show (wrapAfterCall x n s.engine g).1.suppression v = true ↔ _
    rw [hholds, wrapAfterCall_suppression]
    by_cases hvx : v = x
    · subst hvx
      simp only [Function.update_same, if_pos rfl, true_iff]
      cases hgg : (CallPc.hooksOut g').didGlob
      · -- The caller took no raise: the flag was up and someone else wanted it so.
        have hfx : s.engine.suppression v = true := by
          change g'.didGlob = false at hgg
          rw [hgdef, wrapAfterCall_didGlob] at hgg
          simpa using (Bool.or_eq_false_iff.mp hgg).2
        rcases (b.flags v).mp hfx with hS | hg0 | hdata
        · exact .inl hS
        · have : g'.didGlob = true := by rw [hgdef, wrapAfterCall_didGlob, ← hxg, hg0]; rfl
          exact absurd (this.symm.trans hgg) (by simp)
        · exact .inr (.inr hdata)
      · exact .inr (.inl rfl)
    · rw [Function.update_noteq hvx, if_neg hvx, b.flags v]
      rfl
  · rcases (hholds v).mp hv with hgl | hdata
    · by_cases hvx : v = x
      · subst hvx
        rw [if_pos rfl] at hgl
        rcases hlow hgl with hg0 | hfx
        exacts [b.fresh v (.inl hg0), (b.before_of_lowered hfx).1]
      · exact b.fresh v (.inl (by rwa [if_neg hvx] at hgl))
    · exact b.fresh v (.inr hdata)
  · rw [didData_update_keep hkeep] at hy hz
    exact b.dataOnce y z hy hz
  · change ((wrapAfterCall x n s.engine g).1.data n).suppression = some v at hpv
    rw [hp] at hpv
    rw [didGlob_update] at hv
    rw [didData_update_keep hkeep]
    by_cases hvx : v = x
    · subst hvx
      rw [if_pos rfl] at hv
      rcases hlow hv with hg0 | hfx
      · exact b.apart v hg0 hpv y
      · -- The flag was lowered, so no call held a raise of it through the pointer.
        cases hy : (s.pcs y).didData
        · rfl
        · simpa [hfx] using (b.flags v).mpr (.inr (.inr ⟨hpv, y, hy⟩))
    · rw [if_neg hvx] at hv
      exact b.apart v hv hpv y

/-- The return gives back every raise the call held. -/
theorem Flights.Balanced.exit {s : Flights Nt M} (b : s.Balanced n S) {x : Fin M} {g : Toggles}
    (hx : s.pcs x = .hooksOut g) :
    Flights.Balanced n S ⟨wrapExit x n s.engine g, Function.update s.pcs x .idle⟩ := by
  have hxg : (s.pcs x).didGlob = g.didGlob := by rw [hx]; rfl
  have hxd : (s.pcs x).didData = g.didData := by rw [hx]; rfl
  have hp : ((wrapExit x n s.engine g).data n).suppression = (s.engine.data n).suppression := by
    rw [wrapExit_data, setSlotReady_pointer]
  have hi : CallPc.idle.didGlob = false ∧ CallPc.idle.didData = false := ⟨rfl, rfl⟩
  refine b.mono hp (didGlob_of_update hi.1) (didData_of_update hi.2)
    (b.filled_update (by simp) nofun) (fun v ↦ ?_)
  show (wrapExit x n s.engine g).suppression v = true ↔ _
  rw [wrapExit_suppression, Flights.holds_update, hp]
  simp only [hi.1, hi.2, Bool.and_eq_true, Bool.not_eq_true', Bool.and_eq_false_imp,
    decide_eq_true_eq, Bool.false_eq_true, false_or]
  constructor
  · rintro ⟨⟨hfv, hgx⟩, hdx⟩
    rcases (b.flags v).mp hfv with hS | hg0 | ⟨hpv, y, hy⟩
    · exact .inl hS
    · by_cases hvx : v = x
      · subst hvx; simp [hxg, hgx rfl] at hg0
      · exact .inr (.inl (by rwa [if_neg hvx]))
    · refine .inr (.inr ⟨hpv, y, fun hyx ↦ ?_, hy⟩)
      simp [hyx, hxd, hdx hpv] at hy
  · rintro (hS | hg0 | ⟨hpv, y, hyx, hy⟩)
    · -- A flag wanted up before the calls was not the call's to lower.
      refine ⟨⟨(b.flags v).mpr (.inl hS), fun hvx ↦ ?_⟩, fun hpv ↦ ?_⟩
      · cases hgg : g.didGlob
        · rfl
        · simpa [hS] using b.fresh v (.inl (hvx ▸ hxg.trans hgg))
      · cases hdd : g.didData
        · rfl
        · simpa [hS] using b.fresh v (.inr ⟨hpv, x, hxd.trans hdd⟩)
    · by_cases hvx : v = x
      · simp [hvx] at hg0
      · rw [if_neg hvx] at hg0
        refine ⟨⟨(b.flags v).mpr (.inr (.inl hg0)), fun h ↦ absurd h hvx⟩, fun hpv ↦ ?_⟩
        rw [← hxd]
        exact b.apart v hg0 hpv x
    · refine ⟨⟨(b.flags v).mpr (.inr (.inr ⟨hpv, y, hy⟩)), fun hvx ↦ ?_⟩, fun _ ↦ ?_⟩
      · cases hgg : g.didGlob
        · rfl
        · simpa [hy] using b.apart v (hvx ▸ hxg.trans hgg) hpv y
      · cases hdd : g.didData
        · rfl
        · exact absurd (b.dataOnce x y (hxd.trans hdd) hy).symm hyx

/-- Every move keeps the balance, whatever the dispatcher replaces. -/
theorem Flights.Balanced.step {s : Flights Nt M} (b : s.Balanced n S) (m : Move Nt M) :
    (s.step cfg n m).Balanced n S := by
  cases m with
  | op o => exact b.op o
  | advance x =>
    show Flights.Balanced n S ⟨(advanceCall cfg.replaces n x s.engine (s.pcs x)).1,
      Function.update s.pcs x (advanceCall cfg.replaces n x s.engine (s.pcs x)).2⟩
    have hx0 {pc : CallPc} (h : s.pcs x = pc) (hpc : pc.didGlob = false ∧ pc.didData = false) :
        (s.pcs x).didGlob = false ∧ (s.pcs x).didData = false := h ▸ hpc
    cases hx : s.pcs x with
    | idle =>
      -- A test writes nothing; one that passes found the slot filled.
      rw [advanceCall_idle_engine]
      refine b.quiet rfl rfl rfl (hx0 hx ⟨rfl, rfl⟩) ?_ ?_ <;> simp only [advanceCall] <;>
        split_ifs with h₁ h₂ h₃ <;> simp [CallPc.wrapping, CallPc.didGlob, CallPc.didData]
      exact wrapPath_filled x n s.engine h₃
    | tested => exact b.enter hx
    | hooksIn g => exact b.beforeCall hx
    | original g => exact b.afterCall hx
    | hooksOut g => exact b.exit hx
    | replaceTested =>
      exact b.quiet (by simp [advanceCall]) (by simp [advanceCall]) (by simp [advanceCall])
        (hx0 hx ⟨rfl, rfl⟩) ⟨rfl, rfl⟩ nofun
    | replacing =>
      exact b.quiet (by simp [advanceCall]) (by simp [advanceCall]) (by simp [advanceCall])
        (hx0 hx ⟨rfl, rfl⟩) ⟨rfl, rfl⟩ nofun

theorem Flights.Balanced.run {s : Flights Nt M} (b : s.Balanced n S) (ms : List (Move Nt M)) :
    (s.run cfg n ms).Balanced n S := by
  induction ms generalizing s with
  | nil => exact b
  | cons m ms ih => exact ih (b.step m)

/-- With no call in flight, every flag is back to its value before the calls. -/
theorem Flights.Balanced.suppression_of_idle {s : Flights Nt M} (b : s.Balanced n S)
    (h : ∀ x, s.pcs x = .idle) : s.engine.suppression = S := funext fun v ↦ by
  have hflag := b.flags v
  simp only [Flights.Holds, h, CallPc.didGlob, CallPc.didData, Bool.false_eq_true, false_or,
    exists_false, and_false, or_false] at hflag
  exact Bool.eq_iff_iff.mpr hflag

end Balanced

/-! ## What the pointer's raise silences -/

/-- A call that found the pointer's flag raised holds nothing: the holder's return lowers it under
that call. -/
example :
    let cfg : Config 1 := ⟨id, false, [(0, "free", 0, "tool")]⟩
    let s : Flights 1 3 :=
      ⟨start cfg 0 false (addGlobalSuppression "free" (Engine.init 1 3)), fun _ ↦ .idle⟩
    let s' := s.run cfg 0 ([1, 2, 1, 2, 1, 1, 1].map .advance)
    s'.engine.suppression 0 = false ∧ s'.pcs 2 ≠ .idle ∧ (s'.pcs 2).didData = false := by
  decide

/-! ## The flags balance over every interleaving -/

end TimemoryGotcha
