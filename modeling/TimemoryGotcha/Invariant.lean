import TimemoryGotcha.Activation

/-!
# The slot representation invariant

A slot is filled by `construct<N>` and by nothing else. Filling records a non-empty symbol the
filter accepted, its label and priority, both closures, and one backend `wrap` request; an empty
slot has no closures and has sent no `wrap`. A slot is active only when it is filled. Every
operation of the engine keeps this, and none changes what a filled slot records: only readiness,
activity, finalization and the suppression pointer move afterwards.
-/

namespace TimemoryGotcha

variable {Nt M : Nat}

/-- What a slot records when it is filled, and keeps from then on. -/
def GotchaData.ident (d : GotchaData M) :
    Bool × String × String × Int × Option (String × Int × String) × Bool :=
  (d.filled, d.wrapId, d.toolId, d.priority, d.constructor, d.destructor)

/-- The representation invariant of slot `n`. -/
structure SlotInv (cfg : Config Nt) (e : Engine Nt M) (n : Fin Nt) : Prop where
  active : (e.data n).isActive → (e.data n).filled
  empty : (e.data n).filled = false →
    (e.data n).constructor = none ∧ (e.data n).destructor = false
  symbol : (e.data n).filled → (e.data n).wrapId ≠ "" ∧ e.permits cfg (e.data n).wrapId
  closures : (e.data n).filled → (e.data n).destructor = true ∧
    ∃ tool, (e.data n).constructor = some ((e.data n).wrapId, (e.data n).priority, tool) ∧
      (e.data n).toolId = toolLabel cfg.demangle (e.data n).wrapId tool
  requested : (e.data n).filled → .wrap n (e.data n).wrapId (e.data n).toolId ∈ e.requests
  wraps : wrapCount n e.requests = if (e.data n).filled then 1 else 0

/-- Every slot satisfies the representation invariant. -/
def Engine.Wf (cfg : Config Nt) (e : Engine Nt M) : Prop := ∀ n, SlotInv cfg e n

theorem Engine.Blank.wf {e : Engine Nt M} (h : e.Blank) (cfg : Config Nt) : e.Wf cfg := fun n ↦ by
  have hd := h.slots n
  exact ⟨by simp [hd], fun _ ↦ by simp [hd], fun hf ↦ by simp [hd] at hf,
    fun hf ↦ by simp [hd] at hf, fun hf ↦ by simp [hd] at hf, by simp [hd, h.requests]⟩

/-- Every slot filled in `e` is still filled in `e'` and records the same. -/
def Engine.Keeps (e e' : Engine Nt M) : Prop :=
  ∀ n, (e.data n).filled → (e'.data n).ident = (e.data n).ident

theorem GotchaData.filled_of_ident {d d' : GotchaData M} (h : d.ident = d'.ident) :
    d.filled = d'.filled :=
  congrArg Prod.fst h

theorem Engine.Keeps.refl (e : Engine Nt M) : e.Keeps e := fun _ _ ↦ rfl

theorem Engine.Keeps.trans {e e' e'' : Engine Nt M} (h : e.Keeps e') (h' : e'.Keeps e'') :
    e.Keeps e'' := fun n hn ↦ by
  have h₁ := h n hn
  exact (h' n ((GotchaData.filled_of_ident h₁).trans hn)).trans h₁

/-- An operation of the engine keeps the invariant and what every filled slot records. -/
def Preserves (cfg : Config Nt) (f : Engine Nt M → Engine Nt M) : Prop :=
  ∀ e, e.Wf cfg → (f e).Wf cfg ∧ e.Keeps (f e)

namespace Preserves

variable {cfg : Config Nt} {f g : Engine Nt M → Engine Nt M}

theorem id : Preserves cfg (M := M) fun e ↦ e := fun _ h ↦ ⟨h, .refl _⟩

theorem comp (hf : Preserves cfg f) (hg : Preserves cfg g) : Preserves cfg (g ∘ f) :=
  fun e h ↦ ⟨(hg _ (hf e h).1).1, (hf e h).2.trans (hg _ (hf e h).1).2⟩

theorem ite {c : Engine Nt M → Prop} [DecidablePred c] (hf : Preserves cfg f)
    (hg : Preserves cfg g) : Preserves cfg fun e ↦ if c e then f e else g e := fun e h ↦ by
  by_cases hc : c e
  · simpa only [if_pos hc] using hf e h
  · simpa only [if_neg hc] using hg e h

theorem foldl {α : Type} (step : Engine Nt M → α → Engine Nt M)
    (hs : ∀ a, Preserves cfg (step · a)) (l : List α) : Preserves cfg (l.foldl step ·) := by
  induction l with
  | nil => exact id
  | cons a l ih => exact fun e h ↦ ((hs a).comp ih) e h

end Preserves

/-! ## Changes that leave what a slot records alone -/

section Soft

variable {cfg : Config Nt}

/-- A change that keeps what a slot records, only appends requests and sends no `wrap` keeps its
invariant. -/
theorem SlotInv.of_ident {e e' : Engine Nt M} {n : Fin Nt} (h : SlotInv cfg e n)
    (hid : (e'.data n).ident = (e.data n).ident)
    (hactive : (e'.data n).isActive → (e'.data n).filled)
    (hpermits : e'.permits cfg = e.permits cfg) (hlog : e.requests <+: e'.requests)
    (hwraps : wrapCount n e'.requests = wrapCount n e.requests) : SlotInv cfg e' n := by
  simp only [GotchaData.ident, Prod.mk.injEq] at hid
  obtain ⟨hf, hw, ht, hp, hc, hd⟩ := hid
  exact ⟨hactive, by rw [hf, hc, hd]; exact h.empty, by rw [hf, hw, hpermits]; exact h.symbol,
    by rw [hf, hw, ht, hp, hc, hd]; exact h.closures,
    fun hn ↦ hlog.subset (by rw [hw, ht]; exact h.requested (hf ▸ hn)),
    by rw [hwraps, hf]; exact h.wraps⟩

/-- `e'` differs from `e` at most in readiness, finalization, pointers, and outside the table, log
and lists. -/
structure Engine.Soft (e e' : Engine Nt M) : Prop where
  ident : ∀ m, (e'.data m).ident = (e.data m).ident
  isActive : ∀ m, (e'.data m).isActive = (e.data m).isActive
  requests : e'.requests = e.requests
  permitList : e'.permitList = e.permitList
  rejectList : e'.rejectList = e.rejectList

theorem Engine.Soft.refl (e : Engine Nt M) : e.Soft e :=
  ⟨fun _ ↦ rfl, fun _ ↦ rfl, rfl, rfl, rfl⟩

theorem Engine.Soft.trans {e e' e'' : Engine Nt M} (h : e.Soft e') (h' : e'.Soft e'') :
    e.Soft e'' :=
  ⟨fun m ↦ (h'.ident m).trans (h.ident m), fun m ↦ (h'.isActive m).trans (h.isActive m),
    h'.requests.trans h.requests, h'.permitList.trans h.permitList,
    h'.rejectList.trans h.rejectList⟩

/-- An operation that only makes soft changes keeps the invariant. -/
theorem preserves_of_soft {f : Engine Nt M → Engine Nt M} (hf : ∀ e : Engine Nt M, e.Soft (f e)) :
    Preserves cfg f := fun e h ↦
  have hs := hf e
  have hp : (f e).permits cfg = e.permits cfg := by
    funext func; simp [Engine.permits, hs.permitList, hs.rejectList]
  ⟨fun m ↦ (h m).of_ident (hs.ident m)
    (fun ha ↦ (GotchaData.filled_of_ident (hs.ident m)).trans ((h m).active ((hs.isActive m) ▸ ha)))
    hp (by rw [hs.requests]) (by rw [hs.requests]),
  fun m _ ↦ hs.ident m⟩

/-- Rewriting every slot by a rule that keeps what it records and its activity. -/
theorem soft_mapData (e : Engine Nt M) (g : Fin Nt → GotchaData M → GotchaData M)
    (hg : ∀ i d, (g i d).ident = d.ident ∧ (g i d).isActive = d.isActive) : e.Soft (e.mapData g) :=
  ⟨fun m ↦ (hg m _).1, fun m ↦ (hg m _).2, rfl, rfl, rfl⟩

theorem soft_modify (e : Engine Nt M) (n : Fin Nt) (g : GotchaData M → GotchaData M)
    (hg : ∀ d, (g d).ident = d.ident ∧ (g d).isActive = d.isActive) : e.Soft (e.modify n g) := by
  have hm (m : Fin Nt) := Engine.modify_data_apply e n m g
  refine ⟨fun m ↦ ?_, fun m ↦ ?_, rfl, rfl, rfl⟩ <;> rw [hm] <;> split_ifs with h
  all_goals first | rfl | exact h ▸ (hg _).1 | exact h ▸ (hg _).2

theorem preserves_mapData (g : Engine Nt M → Fin Nt → GotchaData M → GotchaData M)
    (hg : ∀ e i d, (g e i d).ident = d.ident ∧ (g e i d).isActive = d.isActive) :
    Preserves cfg fun e ↦ e.mapData (g e) :=
  preserves_of_soft fun e ↦ soft_mapData e _ (hg e)

theorem preserves_modify (n : Fin Nt) (g : GotchaData M → GotchaData M)
    (hg : ∀ d, (g d).ident = d.ident ∧ (g d).isActive = d.isActive) :
    Preserves cfg fun e ↦ e.modify n g :=
  preserves_of_soft fun e ↦ soft_modify e n g hg

theorem preserves_record (r : Round) : Preserves cfg (M := M) fun e ↦ e.record r :=
  preserves_of_soft fun _ ↦ ⟨fun _ ↦ rfl, fun _ ↦ rfl, rfl, rfl, rfl⟩

theorem preserves_counters (s : Int) (ts : Fin M → Int) :
    Preserves cfg fun e ↦ { e with started := s, threadStarted := ts } :=
  preserves_of_soft fun _ ↦ ⟨fun _ ↦ rfl, fun _ ↦ rfl, rfl, rfl, rfl⟩

theorem preserves_isConfigured (b : Bool) :
    Preserves cfg (M := M) fun e ↦ { e with isConfigured := b } :=
  preserves_of_soft fun _ ↦ ⟨fun _ ↦ rfl, fun _ ↦ rfl, rfl, rfl, rfl⟩

theorem preserves_addGlobalSuppression (func : String) :
    Preserves cfg (M := M) (addGlobalSuppression func) :=
  preserves_of_soft fun _ ↦ ⟨fun _ ↦ rfl, fun _ ↦ rfl, rfl, rfl, rfl⟩

theorem preserves_setReady (values : Fin Nt → Bool) :
    Preserves cfg (M := M) fun e ↦ (setReady values e).2 :=
  preserves_mapData (fun _ i d ↦ if d.filled then { d with ready := values i } else d)
    fun _ _ _ ↦ by dsimp only; split_ifs <;> exact ⟨rfl, rfl⟩

theorem preserves_threadInit : Preserves cfg (M := M) threadInit :=
  preserves_mapData (fun e _ d ↦ { d with ready := d.filled && e.defaultReady })
    fun _ _ _ ↦ ⟨rfl, rfl⟩

end Soft

/-! ## `construct` and `revert` -/

section Binding

variable {cfg : Config Nt} (n : Fin Nt) (func : String) (priority : Int) (tool : String) (t : Fin M)

/-- An accepted `construct<N>` leaves slot `N` recording what it recorded if it was filled, and
what the fill block writes otherwise. -/
theorem construct_ident {e : Engine Nt M} (hf : func ≠ "") (hp : e.permits cfg func = true) :
    ((construct cfg n func priority tool t e).2.data n).ident =
      (if (e.data n).filled then e.data n
        else fillData cfg e func priority tool t (e.data n)).ident := by
  rw [construct_data_self _ _ _ _ _ _ _ hf hp]
  dsimp only
  split_ifs <;> rfl

theorem construct_slotInv_self {e : Engine Nt M} (hf : func ≠ "") (hp : e.permits cfg func = true)
    (h : SlotInv cfg e n) : SlotInv cfg (construct cfg n func priority tool t e).2 n := by
  have hid := construct_ident n func priority tool t hf hp
  have hperm := permits_of_onlyTable cfg (construct_onlyTable cfg n func priority tool t e)
  have hw := construct_wrapCount cfg n func priority tool t e n
  have hlog := (construct_onlyTable cfg n func priority tool t e).requests
  by_cases hfl : (e.data n).filled
  · rw [if_pos hfl] at hid
    exact h.of_ident hid (fun _ ↦ (GotchaData.filled_of_ident hid).trans hfl) hperm hlog
      (by simp [hw, hfl])
  · rw [if_neg hfl] at hid
    simp only [GotchaData.ident, Prod.mk.injEq, fillData_filled, fillData_wrapId, fillData_toolId,
      fillData_priority, fillData_constructor, fillData_destructor] at hid
    obtain ⟨h₁, h₂, h₃, h₄, h₅, h₆⟩ := hid
    have hw₀ : wrapCount n e.requests = 0 := by simpa [hfl] using h.wraps
    refine ⟨fun _ ↦ h₁, by simp [h₁], fun _ ↦ ?_, fun _ ↦ ⟨h₆, tool, ?_, ?_⟩, fun _ ↦ ?_, ?_⟩
    · rw [h₂, hperm]; exact ⟨hf, hp⟩
    · rw [h₅, h₂, h₄]
    · rw [h₃, h₂]
    · refine (construct_requests_of_fill cfg n func priority tool t e hf hp
        (Bool.eq_false_iff.mpr hfl)).subset ?_
      rw [h₂, h₃]; simp [fill]
    · simp [hw, hw₀, h₁, hf, hp, hfl]

/-- `construct<N>` keeps the invariant and never changes what a filled slot records. -/
theorem preserves_construct : Preserves cfg fun e ↦ (construct cfg n func priority tool t e).2 := by
  intro e h
  by_cases hacc : func ≠ "" ∧ e.permits cfg func = true
  · obtain ⟨hf, hp⟩ := hacc
    have hperm := permits_of_onlyTable cfg (construct_onlyTable cfg n func priority tool t e)
    refine ⟨fun m ↦ ?_, fun m hm ↦ ?_⟩
    · by_cases hmn : m = n
      · subst hmn; exact construct_slotInv_self m func priority tool t hf hp (h m)
      · have hd := construct_data_of_ne cfg n m func priority tool t e hmn
        refine (h m).of_ident (by rw [hd]) (by rw [hd]; exact (h m).active) hperm
          (construct_onlyTable cfg n func priority tool t e).requests ?_
        simp [construct_wrapCount, Fin.val_ne_of_ne (Ne.symm hmn)]
    · by_cases hmn : m = n
      · subst hmn; rw [construct_ident m func priority tool t hf hp, if_pos hm]
      · rw [construct_data_of_ne cfg n m func priority tool t e hmn]
  · simp only [construct_of_rejected cfg n func priority tool t e hacc]
    exact ⟨h, .refl e⟩

/-- `revert<N>()` keeps the invariant: it only deactivates a slot and resets its readiness. -/
theorem preserves_revert : Preserves cfg (M := M) fun e ↦ (revert n e).2 := by
  intro e h
  have hperm := permits_of_onlyTable cfg (revert_onlyTable n e)
  have hd (m : Fin Nt) : ((revert n e).2.data m).ident = (e.data m).ident := by
    rw [revert_data]; split_ifs with hm
    · rw [hm.1]; rfl
    · rfl
  refine ⟨fun m ↦ (h m).of_ident (hd m) (fun ha ↦ ?_) hperm (revert_onlyTable n e).requests
    (revert_wrapCount n e m), fun m _ ↦ hd m⟩
  rw [revert_data] at ha ⊢
  by_cases hm : m = n ∧ (e.data n).filled ∧ (e.data n).isActive
  · simp [hm] at ha
  · rw [if_neg hm] at ha ⊢; exact (h m).active ha

theorem preserves_configureList (funcs : List String) :
    Preserves cfg (configureList cfg n funcs priority tool t) := by
  induction funcs with
  | nil => exact Preserves.id
  | cons func rest ih =>
    intro e h
    have hc := preserves_construct n func priority tool t e h
    simp only [configureList]
    split_ifs
    · exact hc
    · exact ⟨(ih _ hc.1).1, hc.2.trans (ih _ hc.1).2⟩

end Binding

/-! ## The activation calls -/

section Activation

variable {cfg : Config Nt} (t : Fin M)

theorem preserves_runInitializer : Preserves cfg (runInitializer cfg t) :=
  Preserves.foldl (fun e (c : Fin Nt × String × Int × String) ↦
      (construct cfg c.1 c.2.1 c.2.2.1 c.2.2.2 t e).2)
    (fun c ↦ preserves_construct c.1 c.2.1 c.2.2.1 c.2.2.2 t) cfg.initializer

theorem preserves_configure : Preserves cfg (configure cfg t) :=
  Preserves.ite (c := fun e ↦ e.isConfigured = true) .id
    ((preserves_isConfigured true).comp (preserves_runInitializer t))

theorem preserves_invokeConstructor (n : Fin Nt) :
    Preserves cfg fun e ↦ invokeConstructor cfg t e n := fun e h ↦ by
  dsimp only [invokeConstructor]
  split
  · exact preserves_construct _ _ _ _ t e h
  · exact ⟨h, .refl e⟩

theorem preserves_runConstructors : Preserves cfg (runConstructors cfg t) :=
  Preserves.foldl _ (fun n ↦ .ite (c := fun e ↦ (e.data n).isFinalized = true) .id
    (preserves_invokeConstructor t n)) _

theorem preserves_invokeDestructor (n : Fin Nt) :
    Preserves cfg (M := M) fun e ↦ invokeDestructor e n :=
  .ite (c := fun e ↦ (e.data n).destructor = true) (preserves_revert n) .id

theorem preserves_runDestructors : Preserves cfg (M := M) runDestructors :=
  Preserves.foldl _ (fun n ↦ .ite (c := fun e ↦ (e.data n).isFinalized = true) .id
    (preserves_invokeDestructor n)) _

theorem preserves_start (fin : Bool) : Preserves cfg (start cfg t fin) := by
  intro e h
  have h₁ : Preserves cfg fun x ↦
      if e.threadStarted t = 0 ∧ !x.isConfigured then configure cfg t x else x :=
    .ite (preserves_configure t) .id
  have h₂ : Preserves cfg fun x ↦
      if e.started = 0 then (runConstructors cfg t (configure cfg t x)).record .install else x :=
    .ite (((preserves_configure t).comp (preserves_runConstructors t)).comp (preserves_record _))
      .id
  have h₃ : Preserves cfg fun (x : Engine Nt M) ↦
      if e.threadStarted t = 0 then x.mapData fun _ d ↦ { d with ready := d.filled } else x :=
    .ite (preserves_mapData (fun _ _ d ↦ { d with ready := d.filled }) fun _ _ _ ↦ ⟨rfl, rfl⟩) .id
  exact Preserves.ite (c := fun _ ↦ fin = true) .id
    ((((preserves_counters _ _).comp h₁).comp h₂).comp h₃) e h

theorem preserves_stop : Preserves cfg fun e : Engine Nt M ↦ stop t e := by
  intro e h
  have h₁ : Preserves cfg fun (x : Engine Nt M) ↦
      if e.threadStarted t - 1 = 0 then x.mapData fun _ d ↦ { d with ready := false } else x :=
    .ite (preserves_mapData (fun _ _ d ↦ { d with ready := false }) fun _ _ _ ↦ ⟨rfl, rfl⟩) .id
  have h₂ : Preserves cfg fun (x : Engine Nt M) ↦
      if e.started - 1 = 0 then (runDestructors x).record .teardown else x :=
    .ite (preserves_runDestructors.comp (preserves_record _)) .id
  exact (((preserves_counters _ _).comp h₁).comp h₂) e h

theorem preserves_disable : Preserves cfg (M := M) disable :=
  .ite (c := fun e ↦ e.isConfigured = true)
    ((preserves_isConfigured false).comp (Preserves.foldl _ (fun n ↦
      .ite (c := fun e ↦ (e.data n).isFinalized = true) .id
        ((preserves_modify n (fun d ↦ { d with isFinalized := true }) fun _ ↦ ⟨rfl, rfl⟩).comp
          (preserves_invokeDestructor n))) _))
    .id

theorem preserves_globalFinalize : Preserves cfg fun e : Engine Nt M ↦ globalFinalize t e := fun e ↦
  ((preserves_counters _ _).comp preserves_disable) e

end Activation

end TimemoryGotcha
