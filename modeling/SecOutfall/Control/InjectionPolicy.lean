import SecOutfall.Control.Requests
import SecOutfall.Injection.Engine

/-! `IOCTL_SECOUTFALL_SET_INJECTION_POLICY` and `InjectionSetPolicy`
(`driver/secoutfall/Injection.cpp`).

A push is meant to replace the policy. The path and the flag are replaced by every push that
succeeds; the exclusions only when the push carries some, and then by a list in which no name at
all stands for everything. -/
namespace SecOutfall.Control
open CLayout Bytes Wire Injection
set_option autoImplicit false

/-! ## The handler -/

/-- What the handler takes from an input it accepts. -/
structure InjectionRequest where
  enabled : Bool
  dllPath : List UInt16
  exclusions : List UInt16
  deriving DecidableEq, Repr

def injectionRequest (input : List UInt8) : Option InjectionRequest :=
  let header := sizeof InjectionPolicy.fields
  let pathBytes := readUlong input InjectionPolicy.dllPathBytes
  let exclBytes := readUlong input InjectionPolicy.exclusionsBytes
  if input.length < header ∨ readUchar input InjectionPolicy.enabled > 1 then none
  else if pathBytes < 4 ∨ pathBytes % 2 ≠ 0 ∨ pathBytes > maxFilePathBytes ∨ exclBytes % 2 ≠ 0 ∨
      input.length ≠ header + pathBytes + exclBytes then none
  else some
    { enabled := readUchar input InjectionPolicy.enabled ≠ 0
      dllPath := readWide input header (pathBytes - 2)
      exclusions := readWide input (header + pathBytes) exclBytes }

/-- The exclusion half of `InjectionSetPolicy`: `none` when array or blob cannot be had. The list
stays as it is when there is nothing to read. -/
def setExclusions (extra : FileWatch) (exclusions : Option (List UInt16)) (alloc : ℕ → Bool) :
    Option FileWatch :=
  match exclusions with
  | none => some extra
  | some units =>
    if units = [] then some extra
    else
      let names := NulList.names 0 units
      if names ≠ [] ∧ !(alloc 1 && alloc 2) then none
      -- a name without an entry ends the list
      else some ⟨true, NulList.keep (fun i => alloc (3 + i)) names⟩

/-- `none` is the return of false. -/
def injectionSetPolicy (policy : Policy) (enabled : Bool) (dllPath : List UInt16)
    (exclusions : Option (List UInt16)) (alloc : ℕ → Bool) : Option Policy :=
  if dllPath ≠ [] ∧ !alloc 0 then none
  else
    (setExclusions policy.extraBlocklist exclusions alloc).map fun extra =>
      { injectionEnabled := enabled && !dllPath.isEmpty
        sensorDllPath := if dllPath = [] then none else some dllPath
        extraBlocklist := extra }

def setInjectionPolicy (policy : Policy) (input : List UInt8) (alloc : ℕ → Bool) : Status × Policy :=
  match injectionRequest input with
  | none => (.invalidParameter, policy)
  | some request =>
    let exclusions := if request.exclusions = [] then none else some (ushortString request.exclusions)
    match injectionSetPolicy policy request.enabled request.dllPath exclusions alloc with
    | none => (.insufficientResources, policy)
    | some policy => (.success, policy)

/-! ## What a push is meant to do -/

section
variable (upcase : UInt16 → UInt16)

def InjectionRequest.wantsProcess (request : InjectionRequest) (pid : UInt32)
    (imageFileName : Option (List UInt16)) : Bool :=
  request.enabled && !(pid ≤ 4 : Bool) &&
    match imageFileName with
    | none => true
    | some name => !(defaultBlocklist.any (suffixMatches upcase name)) &&
        !((NulList.names 0 request.exclusions).any (suffixMatches upcase name))

/-- A push that succeeds leaves a policy that is the request's; one that fails leaves the old. -/
def Replaces (s : Engine) (input : List UInt8) (alloc : ℕ → Bool) : Prop :=
  match setInjectionPolicy s.policy input alloc with
  | (.success, policy) => ∀ request ∈ injectionRequest input, ∀ pid image,
      injectionWantsProcess upcase { s with policy } pid image = request.wantsProcess upcase pid image
  | (_, policy) => policy = s.policy

/-! ## When it does -/

/-- Each of the names ends in one of the others or in a compiled one. -/
def Subsumed (names others : List (List UInt16)) : Prop :=
  ∀ name ∈ names, (defaultBlocklist ++ others).any (suffixMatches upcase name) = true

/-- The list excludes what these names exclude. -/
def Agrees (watch : FileWatch) (names : List (List UInt16)) : Prop :=
  if watch.enabled then
    watch.extensions ≠ [] ∧ Subsumed upcase watch.extensions names ∧ Subsumed upcase names watch.extensions
  else Subsumed upcase names []

/-- The request is disabled, memory fails before anything is changed, or what is in force
afterwards agrees with the request: the old list when the cast leaves nothing to read, and
otherwise the names that can be read and kept. -/
def Replaceable (policy : Policy) (request : InjectionRequest) (alloc : ℕ → Bool) : Prop :=
  let names := NulList.names 0 request.exclusions
  let seen := ushortString request.exclusions
  let readable := NulList.names 0 seen
  request.enabled = false ∨ alloc 0 = false ∨
    if seen = [] then Agrees upcase policy.extraBlocklist names
    else (readable ≠ [] ∧ (alloc 1 && alloc 2) = false) ∨
      Agrees upcase ⟨true, NulList.keep (fun i => alloc (3 + i)) readable⟩ names

variable {upcase}

theorem Subsumed.any {names others : List (List UInt16)} (h : Subsumed upcase names others)
    {image : List UInt16} (hdefault : defaultBlocklist.any (suffixMatches upcase image) = false)
    (hany : names.any (suffixMatches upcase image) = true) :
    others.any (suffixMatches upcase image) = true := by
  obtain ⟨name, hname, hmatch⟩ := List.any_eq_true.mp hany
  obtain ⟨suffix, hsuffix, hends⟩ := List.any_eq_true.mp (h name hname)
  have himage := suffixMatches_trans hmatch hends
  rcases List.mem_append.mp hsuffix with hcompiled | hother
  · exact absurd himage (List.any_eq_false.mp hdefault suffix hcompiled)
  · exact List.any_eq_true.mpr ⟨suffix, hother, himage⟩

theorem subsumed_of_any {names others : List (List UInt16)}
    (h : ∀ name ∈ names, defaultBlocklist.any (suffixMatches upcase name) = false →
      others.any (suffixMatches upcase name) = true) : Subsumed upcase names others := by
  intro name hname
  rw [List.any_append]
  cases hdefault : defaultBlocklist.any (suffixMatches upcase name) with
  | true => rfl
  | false => rw [h name hname hdefault, Bool.or_true]

theorem any_self {names : List (List UInt16)} {name : List UInt16} (h : name ∈ names) :
    names.any (suffixMatches upcase name) = true :=
  List.any_eq_true.mpr ⟨name, h, suffixMatches_self name⟩

theorem any_nil {names : List (List UInt16)} (h : ∀ name ∈ names, name ≠ []) :
    names.any (suffixMatches upcase []) = false := by
  rw [List.any_eq_false]
  intro name hname
  exact Bool.eq_false_iff.mp (suffixMatches_nil (h name hname))

/-- The names themselves are the images on which two lists could differ. -/
theorem agrees_iff {watch : FileWatch} {names : List (List UInt16)} (hnames : ∀ name ∈ names, name ≠ []) :
    Agrees upcase watch names ↔ ∀ image, defaultBlocklist.any (suffixMatches upcase image) = false →
      watch.covers upcase image = names.any (suffixMatches upcase image) := by
  obtain ⟨enabled, extensions⟩ := watch
  cases enabled with
  | false =>
    constructor
    · intro h image hdefault
      have hsubsumed : Subsumed upcase names [] := h
      show false = names.any (suffixMatches upcase image)
      symm
      rw [Bool.eq_false_iff]
      intro hany
      cases hsubsumed.any hdefault hany
    · intro h
      apply subsumed_of_any
      intro name hname hdefault
      have hcovers := h name hdefault
      rw [any_self hname] at hcovers
      cases hcovers
  | true =>
    have hcovers : ∀ image, extensions ≠ [] → FileWatch.covers upcase ⟨true, extensions⟩ image =
        extensions.any (suffixMatches upcase image) := by
      intro image hne
      simp [FileWatch.covers, hne]
    constructor
    · rintro ⟨hne, hext, hreq⟩ image hdefault
      rw [hcovers image hne, Bool.eq_iff_iff]
      exact ⟨hext.any hdefault, hreq.any hdefault⟩
    · intro h
      have hne : extensions ≠ [] := by
        rintro rfl
        have hall := h [] (any_nil (by decide))
        rw [any_nil hnames] at hall
        cases hall
      refine ⟨hne, ?_, ?_⟩
      · apply subsumed_of_any
        intro name hname hdefault
        rw [← h name hdefault, hcovers name hne]
        exact any_self hname
      · apply subsumed_of_any
        intro name hname hdefault
        rw [← hcovers name hne, h name hdefault]
        exact any_self hname

theorem requestNames_ne_nil (request : InjectionRequest) :
    ∀ name ∈ NulList.names 0 request.exclusions, name ≠ [] :=
  fun _ h => (NulList.isName_of_mem_names 0 h).1

theorem wantsProcess_eq_iff (s : Engine) (request : InjectionRequest) (path : Option (List UInt16))
    (extra : FileWatch) :
    (∀ pid image, injectionWantsProcess upcase { s with policy := ⟨request.enabled, path, extra⟩ } pid image =
        request.wantsProcess upcase pid image) ↔
      request.enabled = false ∨ Agrees upcase extra (NulList.names 0 request.exclusions) := by
  have hcompiled : ∀ name, FileWatch.covers upcase ⟨true, defaultBlocklist⟩ name =
      defaultBlocklist.any (suffixMatches upcase name) := fun _ => rfl
  rw [agrees_iff (requestNames_ne_nil request)]
  cases henabled : request.enabled with
  | false =>
    simp [injectionWantsProcess, InjectionRequest.wantsProcess, henabled]
  | true =>
    constructor
    · intro h
      right
      intro image hdefault
      have himage := h 5 (some image)
      simpa [injectionWantsProcess, InjectionRequest.wantsProcess, henabled, hcompiled, hdefault] using himage
    · rintro (hfalse | hagrees) pid image
      · cases hfalse
      · cases image with
        | none => simp [injectionWantsProcess, InjectionRequest.wantsProcess, henabled]
        | some name =>
          cases hdefault : defaultBlocklist.any (suffixMatches upcase name) with
          | true => simp [injectionWantsProcess, InjectionRequest.wantsProcess, henabled, hcompiled, hdefault]
          | false =>
            have hextra := hagrees name hdefault
            simp [injectionWantsProcess, InjectionRequest.wantsProcess, henabled, hcompiled, hdefault, hextra]

theorem injectionRequest_path {input : List UInt8} {request : InjectionRequest}
    (h : injectionRequest input = some request) : request.dllPath ≠ [] := by
  unfold injectionRequest at h
  simp only at h
  split at h
  · cases h
  · split at h
    · cases h
    · rename_i hchecks
      obtain rfl := Option.some.inj h
      simp only [InjectionPolicy.sizeof_eq, not_or, not_lt] at hchecks ⊢
      apply List.ne_nil_of_length_pos
      rw [readWide, Utf16.unitsOf_length, slice, List.length_take, List.length_drop]
      omega

theorem setExclusions_eq (extra : FileWatch) (units : List UInt16) (alloc : ℕ → Bool) :
    setExclusions extra (if units = [] then none else some (ushortString units)) alloc =
      if ushortString units = [] then some extra
      else if NulList.names 0 (ushortString units) ≠ [] ∧ (alloc 1 && alloc 2) = false then none
      else some ⟨true, NulList.keep (fun i => alloc (3 + i)) (NulList.names 0 (ushortString units))⟩ := by
  by_cases hunits : units = []
  · rw [if_pos hunits, hunits]
    rfl
  · rw [if_neg hunits, setExclusions]
    simp only [Bool.not_eq_true']

theorem setInjectionPolicy_eq {input : List UInt8} {request : InjectionRequest}
    (h : injectionRequest input = some request) (policy : Policy) (alloc : ℕ → Bool) :
    setInjectionPolicy policy input alloc =
      if alloc 0 = false then (.insufficientResources, policy)
      else
        match setExclusions policy.extraBlocklist
          (if request.exclusions = [] then none else some (ushortString request.exclusions)) alloc with
        | none => (.insufficientResources, policy)
        | some extra => (.success, ⟨request.enabled, some request.dllPath, extra⟩) := by
  have hpath := injectionRequest_path h
  have hempty : request.dllPath.isEmpty = false := by simpa using hpath
  simp only [setInjectionPolicy, h, injectionSetPolicy]
  by_cases hzero : alloc 0 = false
  · simp [hzero, hpath]
  · rw [Bool.not_eq_false] at hzero
    cases setExclusions policy.extraBlocklist
        (if request.exclusions = [] then none else some (ushortString request.exclusions)) alloc with
    | none => simp [hzero]
    | some extra => simp [hzero, hempty, hpath]

theorem replaces_of_success {s : Engine} {input : List UInt8} {alloc : ℕ → Bool}
    {request : InjectionRequest} {path : Option (List UInt16)} {extra : FileWatch}
    (hrequest : injectionRequest input = some request)
    (h : setInjectionPolicy s.policy input alloc = (.success, ⟨request.enabled, path, extra⟩)) :
    Replaces upcase s input alloc ↔
      request.enabled = false ∨ Agrees upcase extra (NulList.names 0 request.exclusions) := by
  rw [← wantsProcess_eq_iff s request path extra, Replaces, h, hrequest]
  simp

theorem replaces_of_refused {s : Engine} {input : List UInt8} {alloc : ℕ → Bool}
    (h : setInjectionPolicy s.policy input alloc = (.insufficientResources, s.policy)) :
    Replaces upcase s input alloc := by
  rw [Replaces, h]

/-- A push replaces the policy exactly if the condition on request, list in force and memory holds. -/
theorem push_replaces_iff (upcase : UInt16 → UInt16) (s : Engine) (input : List UInt8) (alloc : ℕ → Bool) :
    Replaces upcase s input alloc ↔
      ∀ request ∈ injectionRequest input, Replaceable upcase s.policy request alloc := by
  cases hrequest : injectionRequest input with
  | none => simp [Replaces, setInjectionPolicy, hrequest]
  | some request =>
    have hone : (∀ r ∈ some request, Replaceable upcase s.policy r alloc) ↔
        Replaceable upcase s.policy request alloc := by simp
    have hpush := setInjectionPolicy_eq hrequest s.policy alloc
    rw [setExclusions_eq] at hpush
    rw [hone, Replaceable]
    by_cases hzero : alloc 0 = false
    · rw [if_pos hzero] at hpush
      exact iff_of_true (replaces_of_refused hpush) (.inr (.inl hzero))
    rw [if_neg hzero] at hpush
    by_cases hseen : ushortString request.exclusions = []
    · rw [if_pos hseen] at hpush
      rw [replaces_of_success hrequest hpush]
      simp only [hzero, hseen, if_true, reduceCtorEq, false_or]
    rw [if_neg hseen] at hpush
    by_cases hfails : NulList.names 0 (ushortString request.exclusions) ≠ [] ∧ (alloc 1 && alloc 2) = false
    · rw [if_pos hfails] at hpush
      apply iff_of_true (replaces_of_refused hpush)
      simp only [hseen, if_false]
      exact .inr (.inr (.inl hfails))
    · rw [if_neg hfails] at hpush
      rw [replaces_of_success hrequest hpush]
      simp only [hzero, hseen, if_false, reduceCtorEq, false_or, hfails]

end

/-- Armed with the path `x`, excluding `a`. -/
def excludingPush : List UInt8 := [1, 0, 0, 0, 4, 0, 0, 0, 6, 0, 0, 0, 120, 0, 0, 0, 97, 0, 0, 0, 0, 0]

/-- Armed with the path `x`, excluding nothing. -/
def barePush : List UInt8 := [1, 0, 0, 0, 4, 0, 0, 0, 0, 0, 0, 0, 120, 0, 0, 0]

def excluding : Engine :=
  init (setInjectionPolicy ⟨false, none, ⟨false, []⟩⟩ excludingPush fun _ => true).2

/-- A push without exclusions keeps those of the push before it. -/
theorem stale_exclusions_stay : ¬ Replaces id excluding barePush fun _ => true := by
  intro h
  have hreplaced : ∀ request ∈ injectionRequest barePush, ∀ pid image,
      injectionWantsProcess id { excluding with
        policy := (setInjectionPolicy excluding.policy barePush fun _ => true).2 } pid image =
          request.wantsProcess id pid image := h
  have hwants := hreplaced ⟨true, [120], []⟩ (by decide) 5 (some [97])
  exact absurd hwants (by decide)

end SecOutfall.Control
