import TimemoryGotcha.Data
import Mathlib.Data.List.Infix

/-!
# Symbol filter and slot labels

`is_permitted<N>(func)` decides whether a symbol may be wrapped: a measurement gotcha never wraps
the MPI functions known to deadlock under instrumentation, matched both as written and in their
Fortran form; then the reject list denies, and a non-empty permit list denies whatever it does
not name. `construct<N>` labels a newly filled slot with the demangled symbol, prefixed by the
tool name and with doubled slashes squeezed out one at a time.

The substring test in front of the MPI deny list never lets a listed name through, so the filter
denies exactly the listed names, the rejected ones and those missing from a non-empty permit list.
The squeezing loop ends within as many rounds as the label has characters, with every run of
slashes replaced by one.

Strings are compared through their character lists, which is what `std::string::find` and
`operator==` look at.
-/

namespace TimemoryGotcha

/-- `func.find(sub) != std::string::npos`. -/
def hasSubstr (func sub : String) : Bool :=
  decide (sub.data <:+: func.data)

/-- The MPI functions a measurement gotcha refuses to wrap (`mpi_reject_list`). -/
def mpiRejectList : List String :=
  ["MPI_Pcontrol", "MPI_T_init_thread", "MPI_Comm_split", "MPI_Abort", "MPI_Comm_split_type"]

/-- The `tofortran` lambda: lower-case every character and append `_` unless the name already
ends with one. -/
def tofortran (name : String) : String :=
  let fort := name.data.map Char.toLower
  if fort.getLast? = some '_' then ⟨fort⟩ else ⟨fort ++ ['_']⟩

/-- `gotcha::is_permitted<N>(func)`. `replaces` is true for a replacement gotcha, whose
`operator_type` is not `void`; only a measurement gotcha applies the MPI deny list. -/
def isPermitted (replaces : Bool) (permitList rejectList : List String) (func : String) : Bool :=
  if !replaces && (hasSubstr func "MPI_" || hasSubstr func "mpi_") &&
      mpiRejectList.any (fun itr ↦ func = itr || func = tofortran itr) then false
  else if func ∈ rejectList then false
  else if !permitList.isEmpty && func ∉ permitList then false
  else true

/-- `is_permitted` as `construct` calls it, with the engine's current lists. -/
def Engine.permits {Nt M : Nat} (cfg : Config Nt) (e : Engine Nt M) (func : String) : Bool :=
  isPermitted cfg.replaces e.permitList e.rejectList func

/-! ## What the filter denies -/

/-- Every MPI deny name passes the substring test in front of the deny loop. -/
theorem mpiRejectList_prechecked :
    ∀ itr ∈ mpiRejectList, hasSubstr itr "MPI_" = true ∧ hasSubstr (tofortran itr) "mpi_" = true := by
  decide

theorem mpiReject_any_iff (func : String) :
    mpiRejectList.any (fun itr ↦ func = itr || func = tofortran itr) = true ↔
      func ∈ mpiRejectList ∨ func ∈ mpiRejectList.map tofortran := by
  simp only [List.any_eq_true, Bool.or_eq_true, decide_eq_true_eq, List.mem_map]
  constructor
  · rintro ⟨itr, hmem, rfl | rfl⟩
    · exact .inl hmem
    · exact .inr ⟨itr, hmem, rfl⟩
  · rintro (hmem | ⟨itr, hmem, rfl⟩)
    · exact ⟨func, hmem, .inl rfl⟩
    · exact ⟨itr, hmem, .inr rfl⟩

theorem precheck_of_mpiReject {func : String}
    (h : func ∈ mpiRejectList ∨ func ∈ mpiRejectList.map tofortran) :
    (hasSubstr func "MPI_" || hasSubstr func "mpi_") = true := by
  rcases h with hmem | h
  · simp [(mpiRejectList_prechecked func hmem).1]
  · obtain ⟨itr, hmem, rfl⟩ := List.mem_map.mp h
    simp [(mpiRejectList_prechecked itr hmem).2]

/-- `is_permitted<N>` denies the MPI names (measuring only), the rejected names, and names a
non-empty permit list lacks. -/
theorem isPermitted_eq_false_iff (replaces : Bool) (permitList rejectList : List String)
    (func : String) :
    isPermitted replaces permitList rejectList func = false ↔
      (replaces = false ∧ (func ∈ mpiRejectList ∨ func ∈ mpiRejectList.map tofortran)) ∨
        func ∈ rejectList ∨ (permitList ≠ [] ∧ func ∉ permitList) := by
  have hdeny : (!replaces && (hasSubstr func "MPI_" || hasSubstr func "mpi_") &&
      mpiRejectList.any (fun itr ↦ func = itr || func = tofortran itr)) = true ↔
      replaces = false ∧ (func ∈ mpiRejectList ∨ func ∈ mpiRejectList.map tofortran) := by
    rw [← mpiReject_any_iff]
    constructor
    · intro h
      simp only [Bool.and_eq_true, Bool.not_eq_true'] at h
      exact ⟨h.1.1, h.2⟩
    · rintro ⟨hr, h⟩
      simp only [hr, Bool.not_false, Bool.true_and, h, Bool.and_true,
        precheck_of_mpiReject ((mpiReject_any_iff func).mp h)]
  have hpermit : (!permitList.isEmpty && decide (func ∉ permitList)) = true ↔
      permitList ≠ [] ∧ func ∉ permitList := by
    simp
  unfold isPermitted
  rw [← hdeny, ← hpermit]
  split_ifs with h₁ h₂ h₃
  · exact iff_of_true rfl (.inl h₁)
  · exact iff_of_true rfl (.inr (.inl h₂))
  · exact iff_of_true rfl (.inr (.inr h₃))
  · exact iff_of_false not_false fun h ↦ h.elim h₁ (Or.elim · h₂ h₃)

/-! ## Labels -/

/-- `label.erase(label.find("//"), 1)`: drop the first slash of the first `//`, or `none` when
the label has no `//`. -/
def eraseDoubleSlash : List Char → Option (List Char)
  | '/' :: '/' :: rest => some ('/' :: rest)
  | c :: rest => (eraseDoubleSlash rest).map (c :: ·)
  | [] => none

/-- The loop erasing the first `/` of each `//`, for at most `fuel` rounds. -/
def collapseSlashes : Nat → List Char → List Char
  | 0, label => label
  | fuel + 1, label =>
    match eraseDoubleSlash label with
    | none => label
    | some shorter => collapseSlashes fuel shorter

/-- The `tool_id` `construct<N>` gives a slot: the demangled symbol, prefixed by `tool + "/"`,
slashes collapsed. -/
def toolLabel (demangle : String → String) (func tool : String) : String :=
  let label := demangle func
  if tool ≠ "" ∧ ¬ (tool ++ "/").data <+: label.data then
    let joined := (tool ++ "/" ++ label).data
    ⟨collapseSlashes joined.length joined⟩
  else label

/-- The spec-side reading of the label: every run of `/` squeezed to one. `prev` is the character
before. -/
def squeezeSlashes (prev : Option Char) : List Char → List Char
  | [] => []
  | c :: rest => (if c = '/' ∧ prev = some '/' then [] else [c]) ++ squeezeSlashes (some c) rest

theorem eraseDoubleSlash_length {l l' : List Char} (h : eraseDoubleSlash l = some l') :
    l'.length + 1 = l.length := by
  induction l using eraseDoubleSlash.induct generalizing l' with
  | case1 rest => cases h; rfl
  | case2 c rest hne ih =>
    rw [eraseDoubleSlash.eq_2 c rest hne, Option.map_eq_some'] at h
    obtain ⟨r, hr, rfl⟩ := h
    simp [← ih hr]
  | case3 => cases h

/-- `label.find("//") == npos` exactly when `erase` finds nothing to erase. -/
theorem eraseDoubleSlash_eq_none_iff (l : List Char) :
    eraseDoubleSlash l = none ↔ ¬ ['/', '/'] <:+: l := by
  induction l using eraseDoubleSlash.induct with
  | case1 rest =>
    exact iff_of_false (by simp [eraseDoubleSlash])
      (not_not.mpr (List.prefix_append ['/', '/'] rest).isInfix)
  | case2 c rest hne ih =>
    have hpre : ¬ ['/', '/'] <+: c :: rest := by
      rintro ⟨t, ht⟩
      simp only [List.cons_append, List.nil_append, List.cons.injEq] at ht
      exact hne t ht.1.symm ht.2.symm
    rw [eraseDoubleSlash.eq_2 c rest hne, Option.map_eq_none', ih, List.infix_cons_iff,
      or_iff_right hpre]
  | case3 => simp [eraseDoubleSlash]

/-- Erasing the first slash of a `//` does not change the label the spec describes. -/
theorem squeezeSlashes_of_eraseDoubleSlash {l l' : List Char} (h : eraseDoubleSlash l = some l')
    (prev : Option Char) : squeezeSlashes prev l' = squeezeSlashes prev l := by
  induction l using eraseDoubleSlash.induct generalizing l' prev with
  | case1 rest => cases h; simp [squeezeSlashes]
  | case2 c rest hne ih =>
    rw [eraseDoubleSlash.eq_2 c rest hne, Option.map_eq_some'] at h
    obtain ⟨r, hr, rfl⟩ := h
    simp only [squeezeSlashes, ih hr]
  | case3 => cases h

/-- A label without `//` is its own squeeze. -/
theorem squeezeSlashes_of_eraseDoubleSlash_none {l : List Char} (h : eraseDoubleSlash l = none)
    (prev : Option Char) (hprev : prev = some '/' → l.head? ≠ some '/') :
    squeezeSlashes prev l = l := by
  induction l using eraseDoubleSlash.induct generalizing prev with
  | case1 rest => simp [eraseDoubleSlash] at h
  | case2 c rest hne ih =>
    rw [eraseDoubleSlash.eq_2 c rest hne, Option.map_eq_none'] at h
    have hc : ¬(c = '/' ∧ prev = some '/') := fun ⟨hc, hp⟩ ↦ hprev hp (by simp [hc])
    rw [squeezeSlashes, if_neg hc, ih h (some c) fun hsc hrest ↦ ?_]
    · rfl
    cases rest with
    | nil => simp at hrest
    | cons x t =>
      simp only [List.head?_cons, Option.some.injEq] at hsc hrest
      exact hne t hsc (by rw [hrest])
  | case3 => rfl

theorem squeezeSlashes_no_double (prev : Option Char) (l : List Char) :
    ¬ ['/', '/'] <:+: squeezeSlashes prev l ∧
      (prev = some '/' → (squeezeSlashes prev l).head? ≠ some '/') := by
  induction l generalizing prev with
  | nil => simp [squeezeSlashes]
  | cons c rest ih =>
    obtain ⟨ih₁, ih₂⟩ := ih (some c)
    by_cases h : c = '/' ∧ prev = some '/'
    · rw [squeezeSlashes, if_pos h, List.nil_append]
      exact ⟨ih₁, fun _ ↦ ih₂ (by rw [h.1])⟩
    · rw [squeezeSlashes, if_neg h, List.singleton_append]
      refine ⟨fun hin ↦ ?_, fun hp hc ↦ h ⟨by simpa using hc, hp⟩⟩
      rcases List.infix_cons_iff.mp hin with ⟨t, ht⟩ | hin
      · simp only [List.cons_append, List.nil_append, List.cons.injEq] at ht
        exact ih₂ (by rw [← ht.1]) (by rw [← ht.2]; rfl)
      · exact ih₁ hin

theorem squeezeSlashes_sublist (prev : Option Char) (l : List Char) :
    List.Sublist (squeezeSlashes prev l) l := by
  induction l generalizing prev with
  | nil => exact .slnil
  | cons c rest ih =>
    rw [squeezeSlashes]
    split_ifs
    · exact (ih _).cons c
    · exact (ih _).cons₂ c

theorem squeezeSlashes_filter (prev : Option Char) (l : List Char) :
    (squeezeSlashes prev l).filter (· != '/') = l.filter (· != '/') := by
  induction l generalizing prev with
  | nil => rfl
  | cons c rest ih =>
    rw [squeezeSlashes]
    split_ifs with h
    · simp [h.1, ih]
    · simp [List.filter_cons, ih]

/-- With at least as many rounds as the label has characters, the find/erase loop ends at the
label the spec describes. -/
theorem collapseSlashes_eq_squeeze {fuel : Nat} {l : List Char} (h : l.length ≤ fuel) :
    collapseSlashes fuel l = squeezeSlashes none l := by
  induction fuel generalizing l with
  | zero => rw [List.eq_nil_of_length_eq_zero (Nat.le_zero.mp h)]; rfl
  | succ fuel ih =>
    rw [collapseSlashes]
    split
    · next hn => exact (squeezeSlashes_of_eraseDoubleSlash_none hn none (by simp)).symm
    · next l' hs =>
      have := eraseDoubleSlash_length hs
      rw [ih (by omega), squeezeSlashes_of_eraseDoubleSlash hs]

/-- The find/erase loop ends within the label's length and squeezes every run of slashes into
one. -/
theorem toolLabel_collapses (demangle : String → String) (func tool : String) (htool : tool ≠ "")
    (hlead : ¬ (tool ++ "/").data <+: (demangle func).data) :
    (toolLabel demangle func tool).data = squeezeSlashes none (tool ++ "/" ++ demangle func).data ∧
    (∀ fuel, (tool ++ "/" ++ demangle func).data.length ≤ fuel →
      collapseSlashes fuel (tool ++ "/" ++ demangle func).data = (toolLabel demangle func tool).data) ∧
    hasSubstr (toolLabel demangle func tool) "//" = false ∧
    List.Sublist (toolLabel demangle func tool).data (tool ++ "/" ++ demangle func).data ∧
    (toolLabel demangle func tool).data.filter (· != '/') =
      (tool ++ "/" ++ demangle func).data.filter (· != '/') := by
  have hlabel : (toolLabel demangle func tool).data =
      squeezeSlashes none (tool ++ "/" ++ demangle func).data := by
    rw [toolLabel, if_pos ⟨htool, hlead⟩]
    exact collapseSlashes_eq_squeeze le_rfl
  refine ⟨hlabel, fun fuel hfuel ↦ hlabel ▸ collapseSlashes_eq_squeeze hfuel, ?_, ?_, ?_⟩
  · simpa [hasSubstr, hlabel] using (squeezeSlashes_no_double none _).1
  · exact hlabel ▸ squeezeSlashes_sublist none _
  · rw [hlabel, squeezeSlashes_filter]

/-- `toolLabel_collapses` on a symbol with slashes at both ends and a doubled one inside. -/
theorem toolLabel_collapses_tool :
    "tool/" ≠ "" ∧ ¬ ("tool/" ++ "/").data <+: (id "/x//y/").data ∧
    (toolLabel id "/x//y/" "tool/").data = squeezeSlashes none ("tool/" ++ "/" ++ id "/x//y/").data ∧
    (∀ fuel, ("tool/" ++ "/" ++ id "/x//y/").data.length ≤ fuel →
      collapseSlashes fuel ("tool/" ++ "/" ++ id "/x//y/").data = (toolLabel id "/x//y/" "tool/").data) ∧
    hasSubstr (toolLabel id "/x//y/" "tool/") "//" = false ∧
    List.Sublist (toolLabel id "/x//y/" "tool/").data ("tool/" ++ "/" ++ id "/x//y/").data ∧
    (toolLabel id "/x//y/" "tool/").data.filter (· != '/') =
      ("tool/" ++ "/" ++ id "/x//y/").data.filter (· != '/') :=
  ⟨by decide, by decide, toolLabel_collapses id "/x//y/" "tool/" (by decide) (by decide)⟩

example : toolLabel id "/x//y/" "tool/" = "tool/x/y/" := by decide

end TimemoryGotcha
