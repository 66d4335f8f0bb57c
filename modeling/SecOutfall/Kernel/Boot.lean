import Mathlib.Data.List.Basic
import Mathlib.Tactic.Common

/-! Boot and shutdown of the plugins: `KernelService` of `app/services/kernel_service.rs`.

A plugin is what its hooks answer in this boot; `boot` calls none of them twice. A failed `stop` is only
logged. -/
namespace SecOutfall.Kernel
set_option autoImplicit false

/-! ## Model -/

structure Plugin (Error : Type) where
  name : String
  init : Except Error Unit
  start : Except Error Unit
  stop : Except Error Unit

inductive Hook where
  | init | start | stop
  deriving DecidableEq, Repr

/-- A hook that was called, on the plugin registered as number `plugin`, with its answer. -/
structure Call (Error : Type) where
  plugin : ℕ
  hook : Hook
  answer : Except Error Unit

inductive KernelError (Error : Type) where
  | lifecycle (plugin : String) (source : Error)

section
variable {Error : Type}

/-- Best-effort `stop` of the first `count` plugins, the last of them first. -/
def rollback (plugins : List (Plugin Error)) (count : ℕ) : List (Call Error) :=
  (plugins.take count).zipIdx.reverse.map fun (plugin, index) => ⟨index, .stop, plugin.stop⟩

/-- One loop of `boot`, at the plugin `index`: the calls it makes, and how it ends. A failure rolls
`extent index` plugins back. -/
def hookLoop (hook : Hook) (answer : Plugin Error → Except Error Unit) (extent : ℕ → ℕ)
    (plugins : List (Plugin Error)) : ℕ → List (Plugin Error) → List (Call Error) × Except (KernelError Error) Unit
  | _, [] => ([], .ok ())
  | index, plugin :: rest =>
    match answer plugin with
    | .error source =>
      (⟨index, hook, .error source⟩ :: rollback plugins (extent index), .error (.lifecycle plugin.name source))
    | .ok () =>
      let (calls, result) := hookLoop hook answer extent plugins (index + 1) rest
      (⟨index, hook, .ok ()⟩ :: calls, result)

def initAll (plugins : List (Plugin Error)) : List (Call Error) × Except (KernelError Error) Unit :=
  hookLoop .init (·.init) id plugins 0 plugins

/-- The failing plugin is stopped too: its partial start may hold resources. -/
def startAll (plugins : List (Plugin Error)) : List (Call Error) × Except (KernelError Error) Unit :=
  hookLoop .start (·.start) (· + 1) plugins 0 plugins

def boot (plugins : List (Plugin Error)) : List (Call Error) × Except (KernelError Error) Unit :=
  match initAll plugins with
  | (calls, .error error) => (calls, .error error)
  | (calls, .ok ()) =>
    let (more, result) := startAll plugins
    (calls ++ more, result)

def shutdown (plugins : List (Plugin Error)) : List (Call Error) :=
  plugins.zipIdx.reverse.map fun (plugin, index) => ⟨index, .stop, plugin.stop⟩

/-! ## What a failed boot has to leave -/

/-- The plugins whose `stop` was called, in call order. -/
def stopped (calls : List (Call Error)) : List ℕ := (calls.filter (·.hook = .stop)).map (·.plugin)

/-- Of the calls: everything whose `init` succeeded was stopped once, the last registered first, a plugin
whose `start` failed with it, and nothing else was stopped. -/
structure RolledBack (calls : List (Call Error)) : Prop where
  once : ∀ call ∈ calls, call.hook = .init → call.answer.isOk → (stopped calls).count call.plugin = 1
  reversed : (stopped calls).Pairwise (· > ·)
  failing : ∀ call ∈ calls, call.hook = .start → ¬call.answer.isOk → (stopped calls).count call.plugin = 1
  only : ∀ plugin ∈ stopped calls, ∃ call ∈ calls, call.plugin = plugin ∧ call.hook = .init ∧ call.answer.isOk

def LeavesNothingHalfLive (plugins : List (Plugin Error)) : Prop :=
  ∀ error, (boot plugins).2 = .error error → RolledBack (boot plugins).1

/-- No plugin but the last one registered refuses to start, unless some `init` fails before any starts. -/
def bootsUndone (plugins : List (Plugin Error)) : Bool :=
  plugins.any (!·.init.isOk) || plugins.dropLast.all (·.start.isOk)

/-! ## Rollback -/

@[simp] theorem stopped_append (calls more : List (Call Error)) :
    stopped (calls ++ more) = stopped calls ++ stopped more := by
  simp [stopped]

theorem rollback_hook {plugins : List (Plugin Error)} {count : ℕ} {call : Call Error}
    (hcall : call ∈ rollback plugins count) : call.hook = .stop := by
  obtain ⟨_, -, rfl⟩ := List.mem_map.mp hcall
  rfl

theorem stopped_rollback (plugins : List (Plugin Error)) {count : ℕ} (hcount : count ≤ plugins.length) :
    stopped (rollback plugins count) = (List.range count).reverse := by
  have hnumbers : (plugins.take count).zipIdx.map (·.2) = List.range count := by
    rw [List.zipIdx_map_snd, List.length_take, Nat.min_eq_left hcount, ← List.range_eq_range']
  rw [stopped, List.filter_eq_self.mpr fun call hcall => by simpa using rollback_hook hcall, rollback,
    List.map_map, List.map_reverse, ← hnumbers]
  rfl

/-- Where the first `count` plugins were stopped, it is enough to know whose `init` succeeded and whose
`start` failed. -/
theorem rolledBack_iff {calls : List (Call Error)} {count : ℕ} (hstopped : stopped calls = (List.range count).reverse) :
    RolledBack calls ↔
      (∀ call ∈ calls, call.hook = .init → call.answer.isOk → call.plugin < count) ∧
      (∀ call ∈ calls, call.hook = .start → ¬call.answer.isOk → call.plugin < count) ∧
      ∀ plugin < count, ∃ call ∈ calls, call.plugin = plugin ∧ call.hook = .init ∧ call.answer.isOk := by
  have hone (plugin : ℕ) : (stopped calls).count plugin = 1 ↔ plugin < count := by
    rw [hstopped, List.count_reverse, List.count_range]
    split <;> simp_all
  constructor
  · intro h
    refine ⟨fun call hcall hinit hok => (hone _).mp (h.once call hcall hinit hok),
      fun call hcall hstart hfailed => (hone _).mp (h.failing call hcall hstart hfailed), fun plugin hlt => ?_⟩
    exact h.only plugin (by rw [hstopped]; simpa using hlt)
  · rintro ⟨honce, hfailing, honly⟩
    refine ⟨fun call hcall hinit hok => (hone _).mpr (honce call hcall hinit hok), ?_,
      fun call hcall hstart hfailed => (hone _).mpr (hfailing call hcall hstart hfailed), fun plugin hmem => ?_⟩
    · rw [hstopped, List.pairwise_reverse]
      exact List.pairwise_lt_range
    · exact honly plugin (by rw [hstopped] at hmem; simpa using hmem)

/-! ## The loops -/

/-- The calls of a loop in which every plugin agrees. -/
def agreed (hook : Hook) (plugins : List (Plugin Error)) (index : ℕ) : List (Call Error) :=
  (plugins.zipIdx index).map fun (_, index) => ⟨index, hook, .ok ()⟩

theorem mem_agreed {hook : Hook} {plugins : List (Plugin Error)} {index : ℕ} {call : Call Error} :
    call ∈ agreed hook plugins index ↔
      ∃ plugin, index ≤ plugin ∧ plugin < index + plugins.length ∧ call = ⟨plugin, hook, .ok ()⟩ := by
  constructor
  · intro hcall
    obtain ⟨⟨plugin, number⟩, hmem, rfl⟩ := List.mem_map.mp hcall
    obtain ⟨hle, hlt, -⟩ := List.mem_zipIdx hmem
    exact ⟨number, hle, hlt, rfl⟩
  · rintro ⟨number, hle, hlt, rfl⟩
    have hin : number - index < plugins.length := by omega
    refine List.mem_map.mpr ⟨(plugins[number - index], number), ?_, rfl⟩
    rw [List.mem_zipIdx_iff_le_and_getElem?_sub]
    exact ⟨hle, List.getElem?_eq_getElem _⟩

theorem stopped_agreed {hook : Hook} (hhook : hook ≠ .stop) (plugins : List (Plugin Error)) (index : ℕ) :
    stopped (agreed hook plugins index) = [] := by
  rw [stopped, List.filter_eq_nil_iff.mpr, List.map_nil]
  intro call hcall
  obtain ⟨_, -, -, rfl⟩ := mem_agreed.mp hcall
  simpa using hhook

section
variable {hook : Hook} {answer : Plugin Error → Except Error Unit} {extent : ℕ → ℕ} {plugins : List (Plugin Error)}

theorem hookLoop_agreed {rest : List (Plugin Error)} (hok : ∀ plugin ∈ rest, answer plugin = .ok ()) (index : ℕ) :
    hookLoop hook answer extent plugins index rest = (agreed hook rest index, .ok ()) := by
  induction rest generalizing index with
  | nil => rfl
  | cons plugin rest ih =>
    obtain ⟨hfirst, hrest⟩ := List.forall_mem_cons.mp hok
    rw [hookLoop, hfirst, ih hrest]
    rfl

/-- The loop ends at the first plugin that refuses. -/
theorem hookLoop_refused {before rest : List (Plugin Error)} {plugin : Plugin Error} {source : Error}
    (hok : ∀ plugin ∈ before, answer plugin = .ok ()) (hrefused : answer plugin = .error source) (index : ℕ) :
    hookLoop hook answer extent plugins index (before ++ plugin :: rest) =
      (agreed hook before index ++ ⟨index + before.length, hook, .error source⟩ ::
        rollback plugins (extent (index + before.length)), .error (.lifecycle plugin.name source)) := by
  induction before generalizing index with
  | nil => rw [List.nil_append, hookLoop, hrefused]; rfl
  | cons first before ih =>
    obtain ⟨hfirst, hrest⟩ := List.forall_mem_cons.mp hok
    rw [List.cons_append, hookLoop, hfirst, ih hrest (index + 1), List.length_cons, Nat.add_right_comm,
      ← Nat.add_assoc]
    rfl

theorem agrees_or_refuses (answer : Plugin Error → Except Error Unit) (plugins : List (Plugin Error)) :
    (∀ plugin ∈ plugins, answer plugin = .ok ()) ∨
      ∃ before plugin rest source, plugins = before ++ plugin :: rest ∧ (∀ other ∈ before, answer other = .ok ()) ∧
        answer plugin = .error source := by
  induction plugins with
  | nil => exact .inl fun _ => nofun
  | cons first rest ih =>
    cases hfirst : answer first with
    | error source => exact .inr ⟨[], first, rest, source, rfl, fun _ => nofun, hfirst⟩
    | ok =>
      obtain hall | ⟨before, plugin, rest, source, rfl, hok, hrefused⟩ := ih
      · exact .inl (List.forall_mem_cons.mpr ⟨hfirst, hall⟩)
      · exact .inr ⟨first :: before, plugin, rest, source, rfl, List.forall_mem_cons.mpr ⟨hfirst, hok⟩, hrefused⟩

end

/-! ## The three ways a boot ends -/

section
variable {plugins before rest : List (Plugin Error)} {plugin : Plugin Error} {source : Error}

theorem boot_agreed (hinit : ∀ plugin ∈ plugins, plugin.init = .ok ())
    (hstart : ∀ plugin ∈ plugins, plugin.start = .ok ()) :
    boot plugins = (agreed .init plugins 0 ++ agreed .start plugins 0, .ok ()) := by
  rw [boot, initAll, hookLoop_agreed hinit, startAll, hookLoop_agreed hstart]

/-- What a loop calls up to a plugin that refuses, and behind it. -/
theorem mem_refused {hook : Hook} {stops : ℕ} {call : Call Error}
    (h : call ∈ agreed hook before 0 ++ ⟨before.length, hook, .error source⟩ :: rollback plugins stops) :
    (∃ number < before.length, call = ⟨number, hook, .ok ()⟩) ∨
      call = ⟨before.length, hook, .error source⟩ ∨ call.hook = .stop := by
  rw [List.mem_append, List.mem_cons] at h
  obtain hagreed | hfailed | hstop := h
  · obtain ⟨number, -, hlt, rfl⟩ := mem_agreed.mp hagreed
    exact .inl ⟨number, by rwa [Nat.zero_add] at hlt, rfl⟩
  · exact .inr (.inl hfailed)
  · exact .inr (.inr (rollback_hook hstop))

theorem stopped_refused {hook : Hook} {stops : ℕ} (hhook : hook ≠ .stop) (hle : stops ≤ plugins.length) :
    stopped (agreed hook before 0 ++ ⟨before.length, hook, .error source⟩ :: rollback plugins stops) =
      (List.range stops).reverse := by
  have hfailed : stopped (⟨before.length, hook, .error source⟩ :: rollback plugins stops) =
      stopped (rollback plugins stops) := by
    rw [stopped, stopped, List.filter_cons_of_neg (by simpa using hhook)]
  rw [stopped_append, stopped_agreed hhook, List.nil_append, hfailed, stopped_rollback plugins hle]

theorem boot_initRefused (hplugins : plugins = before ++ plugin :: rest) (hok : ∀ other ∈ before, other.init = .ok ())
    (hrefused : plugin.init = .error source) :
    boot plugins = (agreed .init before 0 ++ ⟨before.length, .init, .error source⟩ :: rollback plugins before.length,
      .error (.lifecycle plugin.name source)) := by
  have hloop : hookLoop .init (·.init) id plugins 0 (before ++ plugin :: rest) = _ :=
    hookLoop_refused hok hrefused 0
  rw [← hplugins, Nat.zero_add] at hloop
  rw [boot, initAll, hloop]
  rfl

theorem boot_startRefused (hinit : ∀ plugin ∈ plugins, plugin.init = .ok ())
    (hplugins : plugins = before ++ plugin :: rest) (hok : ∀ other ∈ before, other.start = .ok ())
    (hrefused : plugin.start = .error source) :
    boot plugins = (agreed .init plugins 0 ++ (agreed .start before 0 ++
      ⟨before.length, .start, .error source⟩ :: rollback plugins (before.length + 1)),
      .error (.lifecycle plugin.name source)) := by
  have hloop : hookLoop .start (·.start) (· + 1) plugins 0 (before ++ plugin :: rest) = _ :=
    hookLoop_refused hok hrefused 0
  rw [← hplugins, Nat.zero_add] at hloop
  rw [boot, initAll, hookLoop_agreed hinit, startAll, hloop]

end

/-! ## The rollback of a failed boot -/

section
variable {plugins before rest : List (Plugin Error)} {plugin : Plugin Error} {source : Error}

theorem initRefused_rolledBack (hplugins : plugins = before ++ plugin :: rest)
    (hok : ∀ other ∈ before, other.init = .ok ()) (hrefused : plugin.init = .error source) :
    RolledBack (boot plugins).1 := by
  rw [boot_initRefused hplugins hok hrefused]
  have hshort : before.length ≤ plugins.length := by rw [hplugins, List.length_append]; omega
  refine (rolledBack_iff (stopped_refused (by decide) hshort)).mpr ⟨fun call hmem hinit hsucceeded => ?_, fun call hmem hstart _ => ?_,
    fun number hlt => ?_⟩
  · obtain ⟨number, hlt, rfl⟩ | rfl | hstop := mem_refused hmem
    · exact hlt
    · cases hsucceeded
    · cases hstop.symm.trans hinit
  · obtain ⟨number, hlt, rfl⟩ | rfl | hstop := mem_refused hmem
    · cases hstart
    · cases hstart
    · cases hstop.symm.trans hstart
  · exact ⟨_, List.mem_append_left _ (mem_agreed.mpr ⟨number, Nat.zero_le _, by simpa using hlt, rfl⟩), rfl, rfl, rfl⟩

/-- After a refused `start` the plugins behind the failing one are left. -/
theorem startRefused_rolledBack_iff (hinit : ∀ plugin ∈ plugins, plugin.init = .ok ())
    (hplugins : plugins = before ++ plugin :: rest) (hok : ∀ other ∈ before, other.start = .ok ())
    (hrefused : plugin.start = .error source) : RolledBack (boot plugins).1 ↔ rest = [] := by
  rw [boot_startRefused hinit hplugins hok hrefused]
  have hlength : plugins.length = before.length + 1 + rest.length := by
    rw [hplugins, List.length_append, List.length_cons]; omega
  have hshort : before.length + 1 ≤ plugins.length := by omega
  have hstopped : stopped (agreed .init plugins 0 ++ (agreed .start before 0 ++
      ⟨before.length, .start, .error source⟩ :: rollback plugins (before.length + 1))) =
        (List.range (before.length + 1)).reverse := by
    rw [stopped_append, stopped_agreed (by decide), List.nil_append, stopped_refused (by decide) hshort]
  have hinits (number : ℕ) (hlt : number < plugins.length) :
      ⟨number, .init, .ok ()⟩ ∈ agreed .init plugins 0 ++ (agreed .start before 0 ++
        ⟨before.length, .start, .error source⟩ :: rollback plugins (before.length + 1)) :=
    List.mem_append_left _ (mem_agreed.mpr ⟨number, Nat.zero_le _, by rwa [Nat.zero_add], rfl⟩)
  rw [rolledBack_iff hstopped]
  constructor
  · rintro ⟨hbelow, -, -⟩
    by_contra hrest
    have hbehind : before.length + 1 < plugins.length := by
      have := List.length_pos_of_ne_nil hrest
      omega
    exact absurd (hbelow _ (hinits _ hbehind) rfl rfl) (Nat.lt_irrefl _)
  · intro hrest
    rw [hrest, List.length_nil, Nat.add_zero] at hlength
    refine ⟨fun call hmem hcalled _ => ?_, fun call hmem hcalled hfailed => ?_,
      fun number hlt => ⟨_, hinits number (hlength ▸ hlt), rfl, rfl, rfl⟩⟩
    all_goals obtain hagreed | hrefusal := List.mem_append.mp hmem
    · obtain ⟨number, -, hlt, rfl⟩ := mem_agreed.mp hagreed
      rwa [Nat.zero_add, hlength] at hlt
    · obtain ⟨_, -, rfl⟩ | rfl | hstop := mem_refused hrefusal
      · cases hcalled
      · cases hcalled
      · cases hstop.symm.trans hcalled
    · obtain ⟨_, -, -, rfl⟩ := mem_agreed.mp hagreed
      cases hcalled
    · obtain ⟨_, -, rfl⟩ | rfl | hstop := mem_refused hrefusal
      · cases hfailed rfl
      · exact Nat.lt_succ_self _
      · cases hstop.symm.trans hcalled

/-- A failed boot rolls back what it has to exactly where `bootsUndone` says so. -/
theorem leavesNothing_iff (plugins : List (Plugin Error)) :
    LeavesNothingHalfLive plugins ↔ bootsUndone plugins = true := by
  obtain hinit | ⟨before, plugin, rest, source, hplugins, hok, hrefused⟩ := agrees_or_refuses (·.init) plugins
  case inr =>
    have hundone : bootsUndone plugins = true := by
      have hany : plugins.any (!·.init.isOk) = true :=
        List.any_eq_true.mpr ⟨plugin, by simp [hplugins], by rw [hrefused]; rfl⟩
      rw [bootsUndone, hany, Bool.true_or]
    exact ⟨fun _ => hundone, fun _ _ _ => initRefused_rolledBack hplugins hok hrefused⟩
  have hany : plugins.any (!·.init.isOk) = false := by
    rw [List.any_eq_false]
    intro plugin hmem
    rw [hinit plugin hmem]
    exact Bool.false_ne_true
  rw [bootsUndone, hany, Bool.false_or]
  obtain hstart | ⟨before, plugin, rest, source, hplugins, hok, hrefused⟩ := agrees_or_refuses (·.start) plugins
  case inl =>
    refine ⟨fun _ => List.all_eq_true.mpr fun plugin hmem => ?_, fun _ error herror => ?_⟩
    · rw [hstart plugin (List.dropLast_subset _ hmem)]
      rfl
    · rw [boot_agreed hinit hstart] at herror
      cases herror
  have herror : (boot plugins).2 = .error (.lifecycle plugin.name source) := by
    rw [boot_startRefused hinit hplugins hok hrefused]
  have hlast : plugins.dropLast.all (·.start.isOk) = true ↔ rest = [] := by
    constructor
    · intro hall
      by_contra hrest
      have hmem : plugin ∈ plugins.dropLast := by
        rw [hplugins, List.dropLast_append_of_ne_nil (List.cons_ne_nil _ _), List.dropLast_cons_of_ne_nil hrest]
        simp
      have hagrees := List.all_eq_true.mp hall plugin hmem
      rw [hrefused] at hagrees
      cases hagrees
    · rintro rfl
      rw [hplugins, List.dropLast_concat, List.all_eq_true]
      intro other hmem
      rw [hok other hmem]
      rfl
  rw [hlast, ← startRefused_rolledBack_iff hinit hplugins hok hrefused]
  exact ⟨fun h => h _ herror, fun h _ _ => h⟩

/-- The first start fails: the second plugin keeps what its `init` acquired. -/
theorem firstStart_leavesSecond :
    ¬ LeavesNothingHalfLive [⟨"first", .ok (), .error "refused", .ok ()⟩, ⟨"second", .ok (), .ok (), .ok ()⟩] := by
  intro h
  have honce := (h _ rfl).once ⟨1, .init, .ok ()⟩ (by simp [boot, initAll, hookLoop, startAll]) rfl rfl
  exact absurd honce (by decide)

end

/-! ## Shutdown -/

/-- Shutdown stops every plugin once, the last registered first. -/
theorem shutdown_stops (plugins : List (Plugin Error)) :
    stopped (shutdown plugins) = (List.range plugins.length).reverse := by
  have hall : shutdown plugins = rollback plugins plugins.length := by rw [rollback, List.take_length]; rfl
  rw [hall, stopped_rollback plugins (Nat.le_refl _)]

end
end SecOutfall.Kernel
