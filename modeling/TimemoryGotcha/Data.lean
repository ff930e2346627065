import Mathlib.Logic.Function.Basic
import Mathlib.Tactic.Common
import Mathlib.Data.List.FinRange

/-!
# Slots and engine state of the gotcha component

`gotcha<Nt, BundleT, DiffT>` keeps a fixed array of `Nt` slots (`gotcha_data`), one per wrapped
symbol, next to a few values shared by the whole process: the nested start counter, one start
counter per thread, the configured flag, the readiness given to new slots, the names under
global suppression and the permit and reject lists. This module fixes that state as one record,
`Engine`, over `Nt` slots and `M` threads. The requests the engine sends to the GOTCHA backend
(`backend::gotcha::wrap` and `set_priority`) are kept in order, since installing and reverting a
binding is visible only through them; so are the constructor and destructor rounds run by
`start()` and `stop()`.

Each thread has its own suppression flag (`gotcha_suppression::get()` is thread-local); a slot's
`suppression` pointer, when set, designates the flag of the thread that filled the slot.
-/

namespace TimemoryGotcha

/-- A request sent to the GOTCHA backend by slot `index`. -/
inductive Request where
  /-- `backend::gotcha::wrap(binding, tool_id)`, the binding built from `wrap_id`. -/
  | wrap (index : Nat) (wrapId toolId : String)
  /-- `backend::gotcha::set_priority(tool_id, priority)`. -/
  | setPriority (index : Nat) (toolId : String) (priority : Int)
  deriving DecidableEq, Repr

/-- Whether a request is slot `n`'s `backend::gotcha::wrap`. -/
def Request.wrapsSlot (n : Nat) : Request → Bool
  | .wrap index _ _ => index = n
  | .setPriority .. => false

/-- How many `wrap` requests slot `n` has sent. -/
def wrapCount (n : Nat) (requests : List Request) : Nat :=
  requests.countP (Request.wrapsSlot n)

@[simp] theorem wrapCount_nil (n : Nat) : wrapCount n [] = 0 := rfl

@[simp] theorem wrapCount_append (n : Nat) (rs rs' : List Request) :
    wrapCount n (rs ++ rs') = wrapCount n rs + wrapCount n rs' :=
  List.countP_append _ _ _

@[simp] theorem wrapCount_setPriority (n index : Nat) (toolId : String) (priority : Int) :
    wrapCount n [.setPriority index toolId priority] = 0 := rfl

@[simp] theorem wrapCount_wrap (n index : Nat) (wrapId toolId : String) :
    wrapCount n [.wrap index wrapId toolId] = if index = n then 1 else 0 := by
  by_cases h : index = n <;> simp [wrapCount, Request.wrapsSlot, h]

/-- The loops `start()` and `stop()` run over the slots when the global counter crosses zero. -/
inductive Round where
  /-- Every slot's constructor, on a `start()` that finds `started = 0`. -/
  | install
  /-- Every slot's destructor, on a `stop()` that leaves `started = 0`. -/
  | teardown
  deriving DecidableEq, Repr

/-- One interception slot, `gotcha_data`. The constructor closure is kept as the arguments it
captured; the destructor closure, once assigned, calls `revert<N>()`. -/
structure GotchaData (M : Nat) where
  ready : Bool := false
  filled : Bool := false
  isActive : Bool := false
  isFinalized : Bool := false
  priority : Int := 0
  toolId : String := ""
  wrapId : String := ""
  suppression : Option (Fin M) := none
  constructor : Option (String × Int × String) := none
  destructor : Bool := false
  deriving DecidableEq, Repr

/-- The state of one `gotcha<Nt, ...>` instantiation seen by `M` threads. -/
structure Engine (Nt M : Nat) where
  data : Fin Nt → GotchaData M
  started : Int := 0
  threadStarted : Fin M → Int := fun _ ↦ 0
  isConfigured : Bool := false
  defaultReady : Bool := false
  suppresses : List String := []
  permitList : List String := []
  rejectList : List String := []
  suppression : Fin M → Bool := fun _ ↦ false
  requests : List Request := []
  rounds : List Round := []

/-- What a program fixes about its gotcha type: the demangler, whether it replaces functions, and
the initializer. -/
structure Config (Nt : Nat) where
  demangle : String → String
  replaces : Bool
  initializer : List (Fin Nt × String × Int × String)

namespace Engine

variable {Nt M : Nat}

/-- The engine before any call: every slot empty, every counter zero. -/
def init (Nt M : Nat) : Engine Nt M where
  data := fun _ ↦ {}

/-- Every slot empty, nothing sent to the backend, every flag lowered; the lists, the suppressed
names, `default_ready` and the counters are free. -/
structure Blank (e : Engine Nt M) : Prop where
  slots : ∀ n, e.data n = {}
  requests : e.requests = []
  lowered : ∀ u, e.suppression u = false

theorem blank_init : (init Nt M).Blank := ⟨fun _ ↦ rfl, rfl, fun _ ↦ rfl⟩

/-- Change slot `n` and nothing else. -/
@[simps]
def modify (e : Engine Nt M) (n : Fin Nt) (f : GotchaData M → GotchaData M) : Engine Nt M :=
  { e with data := Function.update e.data n (f (e.data n)) }

/-- Change every slot, each by its own rule. -/
@[simps]
def mapData (e : Engine Nt M) (f : Fin Nt → GotchaData M → GotchaData M) : Engine Nt M :=
  { e with data := fun i ↦ f i (e.data i) }

/-- Send one request to the backend. -/
@[simps]
def request (e : Engine Nt M) (r : Request) : Engine Nt M :=
  { e with requests := e.requests ++ [r] }

/-- Record a constructor or destructor round. -/
@[simps]
def record (e : Engine Nt M) (r : Round) : Engine Nt M :=
  { e with rounds := e.rounds ++ [r] }

theorem modify_data_apply (e : Engine Nt M) (n m : Fin Nt) (f : GotchaData M → GotchaData M) :
    (e.modify n f).data m = if m = n then f (e.data n) else e.data m := by
  by_cases h : m = n
  · subst h; simp
  · simp [h]

/-- `e'` agrees with `e` but in the slot table and in requests appended to the backend log. -/
structure OnlyTable (e e' : Engine Nt M) : Prop where
  started : e'.started = e.started
  threadStarted : e'.threadStarted = e.threadStarted
  isConfigured : e'.isConfigured = e.isConfigured
  defaultReady : e'.defaultReady = e.defaultReady
  suppresses : e'.suppresses = e.suppresses
  permitList : e'.permitList = e.permitList
  rejectList : e'.rejectList = e.rejectList
  suppression : e'.suppression = e.suppression
  rounds : e'.rounds = e.rounds
  requests : e.requests <+: e'.requests

namespace OnlyTable

variable {e e' e'' : Engine Nt M}

@[refl]
theorem refl (e : Engine Nt M) : OnlyTable e e :=
  ⟨rfl, rfl, rfl, rfl, rfl, rfl, rfl, rfl, rfl, List.prefix_refl _⟩

theorem trans (h : OnlyTable e e') (h' : OnlyTable e' e'') : OnlyTable e e'' :=
  ⟨h'.1.trans h.1, h'.2.trans h.2, h'.3.trans h.3, h'.4.trans h.4, h'.5.trans h.5,
    h'.6.trans h.6, h'.7.trans h.7, h'.8.trans h.8, h'.9.trans h.9, h.10.trans h'.10⟩

theorem modify (e : Engine Nt M) (n : Fin Nt) (f : GotchaData M → GotchaData M) :
    OnlyTable e (e.modify n f) :=
  ⟨rfl, rfl, rfl, rfl, rfl, rfl, rfl, rfl, rfl, List.prefix_refl _⟩

theorem mapData (e : Engine Nt M) (f : Fin Nt → GotchaData M → GotchaData M) :
    OnlyTable e (e.mapData f) :=
  ⟨rfl, rfl, rfl, rfl, rfl, rfl, rfl, rfl, rfl, List.prefix_refl _⟩

theorem request (e : Engine Nt M) (r : Request) : OnlyTable e (e.request r) :=
  ⟨rfl, rfl, rfl, rfl, rfl, rfl, rfl, rfl, rfl, List.prefix_append _ _⟩

theorem foldl {α : Type} {f : Engine Nt M → α → Engine Nt M}
    (hf : ∀ e a, OnlyTable e (f e a)) (l : List α) (e : Engine Nt M) :
    OnlyTable e (l.foldl f e) := by
  induction l generalizing e with
  | nil => exact refl e
  | cons a l ih => exact (hf e a).trans (ih (f e a))

theorem ite {c : Prop} [Decidable c] {e₁ e₂ : Engine Nt M} (h₁ : OnlyTable e e₁)
    (h₂ : OnlyTable e e₂) : OnlyTable e (if c then e₁ else e₂) := by
  split_ifs <;> assumption

end OnlyTable

/-! ## Loops over the slots -/

section Loop

variable {f : Engine Nt M → Fin Nt → Engine Nt M} {n : Fin Nt}

theorem foldl_data_of_not_mem (hne : ∀ e i m, m ≠ i → (f e i).data m = e.data m) :
    ∀ (l : List (Fin Nt)) (e : Engine Nt M), n ∉ l → (l.foldl f e).data n = e.data n
  | [], _, _ => rfl
  | i :: l, e, h => by
    rw [List.mem_cons, not_or] at h
    rw [List.foldl_cons, foldl_data_of_not_mem hne l _ h.2, hne _ _ _ h.1]

theorem foldl_data_of_mem (hf : ∀ e i, OnlyTable e (f e i))
    (hne : ∀ e i m, m ≠ i → (f e i).data m = e.data m) :
    ∀ (l : List (Fin Nt)) (e : Engine Nt M), l.Nodup → n ∈ l →
      ∃ e', OnlyTable e e' ∧ e'.data n = e.data n ∧ (l.foldl f e).data n = (f e' n).data n
  | [], _, _, h => absurd h (List.not_mem_nil n)
  | i :: l, e, hnd, hmem => by
    rw [List.nodup_cons] at hnd
    by_cases h : i = n
    · subst h
      exact ⟨e, .refl e, rfl, foldl_data_of_not_mem hne l _ hnd.1⟩
    · have hl : n ∈ l := (List.mem_cons.mp hmem).resolve_left (Ne.symm h)
      obtain ⟨e', he', hd, hfold⟩ := foldl_data_of_mem hf hne l (f e i) hnd.2 hl
      exact ⟨e', (hf e i).trans he', hd.trans (hne e i n (Ne.symm h)), hfold⟩

/-- In a loop over the slots whose step touches only its own slot, slot `n` ends as its own step
leaves it. -/
theorem foldl_finRange_data (hf : ∀ e i, OnlyTable e (f e i))
    (hne : ∀ e i m, m ≠ i → (f e i).data m = e.data m) (e : Engine Nt M) (n : Fin Nt) :
    ∃ e', OnlyTable e e' ∧ e'.data n = e.data n ∧
      ((List.finRange Nt).foldl f e).data n = (f e' n).data n :=
  foldl_data_of_mem hf hne _ e (List.nodup_finRange Nt) (List.mem_finRange n)

end Loop

end Engine

end TimemoryGotcha
