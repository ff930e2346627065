import TimemoryGotcha.Runs

/-!
# What the backend is told

The GOTCHA backend learns about a slot only from the requests the engine sends it: one `wrap` when
the slot is filled, and a `set_priority` each time the slot becomes active, with its priority, or
is reverted, with `-1`. Along every run from the engine before any call, a slot has sent nothing
while it is empty; once it is filled, it has sent its `wrap` request followed by `set_priority`
requests under its label that alternate between its priority and `-1`, starting with its priority,
and the slot is active exactly when it has sent an odd number of them. So the priority the backend
last received from a slot is the slot's own while the slot is active, and `-1`, or none at all,
while it is not.

The model tags each request with the slot that sent it. The backend keys requests by label, and
two slots may share one.
-/

namespace TimemoryGotcha

variable {Nt M : Nat}

/-- The slot that sent a request. -/
def Request.index : Request → Nat
  | .wrap index _ _ => index
  | .setPriority index _ _ => index

/-- The requests slot `n` has sent, in order. -/
def slotLog (n : Nat) (requests : List Request) : List Request :=
  requests.filter (·.index = n)

@[simp] theorem slotLog_nil (n : Nat) : slotLog n [] = [] := rfl

@[simp] theorem slotLog_append (n : Nat) (rs rs' : List Request) :
    slotLog n (rs ++ rs') = slotLog n rs ++ slotLog n rs' :=
  List.filter_append _ _

@[simp] theorem slotLog_singleton (n : Nat) (r : Request) :
    slotLog n [r] = if r.index = n then [r] else [] := by
  by_cases h : r.index = n <;> simp [slotLog, h]

/-- The `set_priority` requests of a slot's first `k` activations and reverts: its priority, then
`-1`, in turn, under its label. -/
def priorityRequests (n : Nat) (toolId : String) (priority : Int) (k : Nat) : List Request :=
  (List.range k).map fun i ↦ .setPriority n toolId (if i % 2 = 0 then priority else -1)

theorem priorityRequests_succ (n : Nat) (toolId : String) (priority : Int) (k : Nat) :
    priorityRequests n toolId priority (k + 1) =
      priorityRequests n toolId priority k ++ [.setPriority n toolId (if k % 2 = 0 then priority else -1)] := by
  simp [priorityRequests, List.range_succ]

/-- What slot `n` has sent after `k` activations and reverts: its `wrap` request, then the
`set_priority` ones. -/
def expectedLog (n : Nat) (d : GotchaData M) (k : Nat) : List Request :=
  if d.filled then .wrap n d.wrapId d.toolId :: priorityRequests n d.toolId d.priority k else []

theorem expectedLog_of_ident {d d' : GotchaData M} (h : d'.ident = d.ident) (n k : Nat) :
    expectedLog n d' k = expectedLog n d k := by
  simp only [GotchaData.ident, Prod.mk.injEq] at h
  simp only [expectedLog, priorityRequests, h]

/-- The priority the backend last received from slot `n`, if any. -/
def lastPriority (n : Nat) (requests : List Request) : Option Int :=
  ((slotLog n requests).filterMap fun
    | .setPriority _ _ priority => some priority
    | .wrap .. => none).getLast?

theorem lastPriority_of_log {n : Nat} {requests : List Request} {d : GotchaData M} {k : Nat}
    (h : slotLog n requests = expectedLog n d k) :
    lastPriority n requests =
      if d.filled ∧ 0 < k then some (if (k - 1) % 2 = 0 then d.priority else -1) else none := by
  unfold lastPriority
  rw [h, expectedLog]
  by_cases hf : d.filled
  · cases k with
    | zero => simp [hf, priorityRequests]
    | succ j => simp [hf, priorityRequests_succ]
  · simp [hf]

/-! ## The log of each slot -/

/-- Slot `n` is active only when filled, and has sent `expectedLog` for an activation count of its
parity. -/
structure LogInv (e : Engine Nt M) (n : Fin Nt) : Prop where
  active : (e.data n).isActive = true → (e.data n).filled = true
  log : ∃ k, slotLog n e.requests = expectedLog n (e.data n) k ∧
    (k % 2 = 1 ↔ (e.data n).isActive = true)

section Log

variable {cfg : Config Nt} {e e' : Engine Nt M}

/-- A change that keeps what slot `n` records, its activity and its log keeps its invariant. -/
theorem LogInv.of_view {n : Fin Nt} (h : LogInv e n) (hid : (e'.data n).ident = (e.data n).ident)
    (ha : (e'.data n).isActive = (e.data n).isActive)
    (hl : slotLog n e'.requests = slotLog n e.requests) : LogInv e' n := by
  obtain ⟨k, hk, hodd⟩ := h.log
  refine ⟨fun h' ↦ ?_, k, by rw [hl, hk, expectedLog_of_ident hid], by rw [ha]; exact hodd⟩
  rw [GotchaData.filled_of_ident hid]
  exact h.active (ha ▸ h')

/-- Slot `m` keeps its invariant while another slot changes and sends requests. -/
theorem LogInv.of_other {m : Fin Nt} {rs : List Request} (h : LogInv e m)
    (hd : e'.data m = e.data m) (hr : e'.requests = e.requests ++ rs) (hrs : ∀ r ∈ rs, r.index ≠ m) :
    LogInv e' m :=
  h.of_view (by rw [hd]) (by rw [hd]) (by
    rw [hr, slotLog_append, List.append_right_eq_self]
    exact List.filter_eq_nil_iff.mpr fun r hr' ↦ by simpa using hrs r hr')

theorem activate_requests (n : Fin Nt) (e : Engine Nt M) : (activate n e).requests = e.requests ++
    if (e.data n).isActive then [] else [.setPriority n (e.data n).toolId (e.data n).priority] := by
  by_cases h : (e.data n).isActive <;> simp [activate, h]

variable (n : Fin Nt) (func : String) (priority : Int) (tool : String) (t : Fin M)

/-- The fill block: an empty slot's log becomes its `wrap` request. -/
theorem logInv_fill (h : ∀ m, LogInv e m) (hfl : (e.data n).filled = false) (m : Fin Nt) :
    LogInv (fill cfg n func priority tool t e) m := by
  by_cases hmn : m = n
  · subst hmn
    obtain ⟨k, hk, -⟩ := (h m).log
    have ha : (e.data m).isActive = false := Bool.eq_false_iff.mpr fun ha ↦ by
      simpa [hfl] using (h m).active ha
    refine ⟨fun _ ↦ by simp [fill_data], 0, ?_, by simp [fill_data, ha]⟩
    rw [expectedLog, if_neg (by simp [hfl])] at hk
    simp [fill, hk, expectedLog, priorityRequests, fill_data, Request.index]
  · exact (h m).of_other (by simp [fill_data, hmn]) rfl
      (by simpa [Request.index] using Fin.val_ne_of_ne (Ne.symm hmn))

/-- The activation block on a filled slot: an inactive slot sends its priority. -/
theorem logInv_activate (h : ∀ m, LogInv e m) (hf : (e.data n).filled = true) (m : Fin Nt) :
    LogInv (activate n e) m := by
  by_cases hmn : m = n
  · subst hmn
    by_cases ha : (e.data m).isActive
    · simpa [activate, ha] using h m
    obtain ⟨k, hk, hodd⟩ := (h m).log
    have hk2 : k % 2 = 0 := by simp [ha] at hodd; omega
    refine ⟨fun _ ↦ by simp [activate_data, hf], k + 1, ?_, by simp [activate_data]; omega⟩
    rw [activate_requests, slotLog_append, hk, if_neg ha]
    simp [expectedLog, hf, activate_data, priorityRequests_succ, hk2, Request.index]
  · refine (h m).of_other (by simp [activate_data, hmn]) (activate_requests n e) ?_
    split_ifs <;> simp [Request.index, Fin.val_ne_of_ne (Ne.symm hmn)]

/-- `revert<N>()`: a filled, active slot sends `-1`. -/
theorem logInv_revert (h : ∀ m, LogInv e m) (m : Fin Nt) : LogInv (revert n e).2 m := by
  by_cases hmn : m = n
  · subst hmn
    by_cases hfa : (e.data m).filled ∧ (e.data m).isActive
    · obtain ⟨k, hk, hodd⟩ := (h m).log
      have hk2 : k % 2 = 1 := hodd.mpr hfa.2
      refine ⟨fun _ ↦ by simp [revert_data, hfa], k + 1, ?_, by simp [revert_data, hfa]; omega⟩
      rw [revert_requests, if_pos hfa, slotLog_append, hk]
      simp [expectedLog, hfa, revert_data, priorityRequests_succ, hk2, Request.index]
    · exact (h m).of_view (by simp [revert_data, hfa]) (by simp [revert_data, hfa])
        (by simp [revert_requests, hfa])
  · refine (h m).of_other (by simp [revert_data, hmn]) (revert_requests n e) ?_
    split_ifs <;> simp [Request.index, Fin.val_ne_of_ne (Ne.symm hmn)]

/-- The end of an accepted `construct<N>`: activate the filled slot, then revert it unless ready. -/
theorem logInv_finish (h : ∀ m, LogInv e m) (hf : (e.data n).filled = true) (m : Fin Nt) :
    LogInv (if ((activate n e).data n).ready then activate n e else (revert n (activate n e)).2) m := by
  split_ifs
  · exact logInv_activate n h hf m
  · exact logInv_revert n (logInv_activate n h hf) m

theorem logInv_construct (h : ∀ m, LogInv e m) (m : Fin Nt) :
    LogInv (construct cfg n func priority tool t e).2 m := by
  by_cases hacc : func ≠ "" ∧ e.permits cfg func = true
  · rw [construct_of_accepted cfg n func priority tool t e hacc.1 hacc.2]
    -- The slot is filled before the activation block, by the fill block or already.
    have h₁ : ∀ m, LogInv (if (e.data n).filled then e else fill cfg n func priority tool t e) m := by
      split_ifs with hfl
      · exact h
      · exact logInv_fill n func priority tool t h (Bool.eq_false_iff.mpr hfl)
    have hf : ((if (e.data n).filled then e else fill cfg n func priority tool t e).data n).filled := by
      split_ifs with hfl
      · exact hfl
      · simp [fill_data]
    exact logInv_finish n h₁ hf m
  · rw [construct_of_rejected cfg n func priority tool t e hacc]
    exact h m

theorem stable_logInv : Stable cfg fun e : Engine Nt M ↦ ∀ n, LogInv e n where
  construct n func priority tool t _ h := logInv_construct n func priority tool t h
  revert n _ h := logInv_revert n h
  frame _ _ hd _ hr _ _ h m := (h m).of_view (by rw [hd]) (by rw [hd]) (by rw [hr])
  ready _ _ _ h m := (h m).of_view rfl rfl rfl
  finalize n e h m := by
    by_cases hm : m = n
    · subst hm
      exact (h m).of_view (by simp [GotchaData.ident]) (by simp) rfl
    · exact (h m).of_view (by simp [hm]) (by simp [hm]) rfl

theorem Engine.Blank.logInv {e : Engine Nt M} (h : e.Blank) (n : Fin Nt) : LogInv e n :=
  ⟨by simp [h.slots n], 0, by simp [h.requests, h.slots n, expectedLog], by simp [h.slots n]⟩

end Log

/-- From a blank engine, a slot sends one `wrap` once filled, then `set_priority` alternating
between its priority and `-1`. -/
theorem backend_log_alternates {cfg : Config Nt} (e₀ : Engine Nt M) (he : e₀.Blank)
    (ops : List (Op Nt M)) (n : Fin Nt) :
    let e := runOps cfg ops e₀
    (∃ k, slotLog n e.requests = expectedLog n (e.data n) k ∧
      (k % 2 = 1 ↔ (e.data n).isActive = true)) ∧
    ((e.data n).isActive = true → lastPriority n e.requests = some (e.data n).priority) ∧
    ((e.data n).isActive = false →
      lastPriority n e.requests = none ∨ lastPriority n e.requests = some (-1)) := by
  intro e
  have h : ∀ m, LogInv e m := (@stable_logInv Nt M cfg).runOps ops _ he.logInv
  obtain ⟨k, hk, hodd⟩ := (h n).log
  refine ⟨⟨k, hk, hodd⟩, fun ha ↦ ?_, fun ha ↦ ?_⟩
  · have hk2 : k % 2 = 1 := hodd.mpr ha
    rw [lastPriority_of_log hk, if_pos ⟨(h n).active ha, by omega⟩, if_pos (by omega)]
  · have hk2 : k % 2 = 0 := by simp [ha] at hodd; omega
    rw [lastPriority_of_log hk]
    split_ifs with h₁ h₂
    · omega
    · exact .inr rfl
    · exact .inl rfl

/-- A permit list and `default_ready = true`: the first `start()` of thread `0`, then its `stop()`
and a second `start()`. -/
theorem backend_log_alternates_malloc :
    let cfg : Config 1 := ⟨id, false, [(0, "malloc", 0, "tool")]⟩
    let e₀ : Engine 1 1 := { Engine.init 1 1 with permitList := ["malloc"], defaultReady := true }
    let e := runOps cfg [.start 0 false, .stop 0, .start 0 false] e₀
    e₀.Blank ∧
    (∃ k, slotLog (0 : Fin 1) e.requests = expectedLog (0 : Fin 1) (e.data 0) k ∧
      (k % 2 = 1 ↔ (e.data 0).isActive = true)) ∧
    ((e.data 0).isActive = true → lastPriority (0 : Fin 1) e.requests = some (e.data 0).priority) ∧
    ((e.data 0).isActive = false →
      lastPriority (0 : Fin 1) e.requests = none ∨ lastPriority (0 : Fin 1) e.requests = some (-1)) :=
  ⟨⟨fun _ ↦ rfl, rfl, fun _ ↦ rfl⟩, backend_log_alternates _ ⟨fun _ ↦ rfl, rfl, fun _ ↦ rfl⟩ _ 0⟩

end TimemoryGotcha
