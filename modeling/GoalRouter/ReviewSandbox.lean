import GoalRouter.SandboxAlignment

namespace GoalRouter
open Library
set_option autoImplicit true

/-- The configuration gives its completion task a read-only sandbox. -/
def RouterConfig.reviewsReadOnly (config : RouterConfig) : Prop :=
  ∀ policy, config.tasks.get? config.completionTask = some policy → policy.sandbox = .readOnly

/-- The configuration gives the task of the pending completion item a read-only sandbox. -/
def RunState.KeepsReview (s : RunState) (config : RouterConfig) : Prop :=
  s.isUnfinished completionId = true → ∀ item policy, s.workItems.get? completionId = some item →
    config.tasks.get? item.task = some policy → policy.sandbox = .readOnly

/-- Every configuration that the run is continued with gives its completion task a read-only
sandbox, and every one that is adopted gives one to the task of the pending completion item. -/
structure ReviewKept (log : List Event) : Prop where
  began : ∀ config, .began config ∈ log → config.reviewsReadOnly
  adopted : ∀ later e earlier s config, log = later ++ e :: earlier → e.adopted? = some s →
    currentConfig earlier = some config → s.KeepsReview config

/-- The completion item is read-only as long as it is pending. -/
def RunState.ReviewReadOnly (s : RunState) : Prop :=
  s.isUnfinished completionId = true → ∀ item decision, s.workItems.get? completionId = some item →
    s.routes.get? completionId = some decision → decision.sandbox = .readOnly

/-- The event dispatches no completion review that may write. -/
def Event.reviewsReadOnly : Event → Bool
  | .answered (.startTurn t) _ => match t.subject with
    | .item item => item.id ≠ completionId || t.route.sandbox = .readOnly
    | _ => true
  | _ => true

namespace ReviewKept

theorem suffix {log log' : List Event} (h : ReviewKept log) (hs : log' <:+ log) :
    ReviewKept log' := by
  obtain ⟨front, rfl⟩ := hs
  constructor
  · exact fun config hm => h.began config (List.mem_append_right _ hm)
  · intro later e earlier s config hl
    exact h.adopted (front ++ later) e earlier s config (by rw [hl, List.append_assoc])

end ReviewKept

namespace RunState.ReviewReadOnly

variable {s : RunState}

theorem persisted (h : s.ReviewReadOnly) : s.persisted.ReviewReadOnly := by
  intro hu item decision hi hr
  rw [isUnfinished_persisted] at hu
  rw [RunState.persisted, get?_persistDict, Option.map_eq_some_iff] at hi hr
  obtain ⟨item', hi, rfl⟩ := hi
  obtain ⟨decision', hr, rfl⟩ := hr
  exact h hu item' decision' hi hr

theorem withResult (h : s.ReviewReadOnly) (ht : r.status.isResumable = false) :
    (s.withResult r).ReviewReadOnly := by
  intro hu
  rw [isUnfinished_withResult] at hu
  split at hu
  · rw [ht] at hu
    cases hu
  · exact h hu

theorem adopted {s' : RunState} (ha : s.adoptCurrentConfiguration host config = .ok s')
    (hk : s'.KeepsReview config) : s'.ReviewReadOnly := by
  obtain ⟨routes, rfl, _⟩ := adoptCurrentConfiguration_ok ha
  intro hu item decision hi hr
  obtain ⟨decision', hd, hr'⟩ := adopted_route ha hi hu
  rw [hr] at hr'
  cases hr'
  obtain ⟨policy, hp, hs⟩ := route_sandbox hd
  rw [hs]
  exact hk hu item policy hi hp

theorem appended {config : RouterConfig} (hc : config.reviewsReadOnly)
    (hr : route host config (completionItem s config.completionTask) none = .ok decision) :
    (s.withCompletion config.completionTask decision).ReviewReadOnly := by
  intro _ item decision' _ hr'
  rw [withCompletion, Dict.get?_set_self] at hr'
  cases hr'
  obtain ⟨policy, hp, hs⟩ := route_sandbox hr
  rw [hs]
  exact hc policy hp

end RunState.ReviewReadOnly

theorem Fresh.reviewReadOnly {app : Application host} (h : Fresh app s) : s.ReviewReadOnly := by
  intro _ item _ hi _
  cases h with
  | planned _ hc _ _ _ =>
    obtain ⟨e, he, heq⟩ := List.mem_map.1 (Dict.mem_of_get?_ofList hi)
    have hid := (Prod.mk.inj heq).1
    exact absurd (List.mem_map.2 ⟨e, he, hid⟩) hc
  | explicit he _ _ =>
    have hid := (explicitItem_aligned he).1
    have hm := List.mem_singleton.1 (Dict.mem_of_get?_ofList hi)
    rw [hid] at hm
    exact absurd (Prod.mk.inj hm).1 (by decide)

/-- As long as the configurations keep the review read-only. -/
def ReviewGuarded (log : List Event) (s : RunState) : Prop := ReviewKept log → s.ReviewReadOnly

theorem ReviewGuarded.cons (h : ReviewGuarded log s) (e : Event) : ReviewGuarded (e :: log) s :=
  fun hk => h (hk.suffix (List.suffix_cons e log))

theorem reviewGuarded_invariant (host : Host) : ValidInvariant host ReviewGuarded where
  event _ h := h.cons _
  landed _ h := h.cons _
  fresh _ hf _ _ := hf.reviewReadOnly
  loaded hv h hl hk := by
    rw [hv.load hl]
    exact (h hk).persisted
  approved _ _ _ _ h ha := by
    obtain ⟨_, _, _, _, _, _, _, _, _, _, rfl⟩ := approve_ok ha
    exact h.cons _
  adopted _ hc _ _ ha hk := RunState.ReviewReadOnly.adopted ha (hk.adopted [] _ _ _ _ rfl rfl hc)
  blocked _ h _ hk := (h hk).withResult rfl
  finished _ h hf hk := by
    apply (h hk).withResult
    rcases hf.terminal with ht | ht <;> rw [ht] <;> rfl
  statusSet _ h _ := h
  concluded _ h _ _ := h
  appended _ hc _ _ _ _ _ hr hk :=
    RunState.ReviewReadOnly.appended (hk.began _ (began_of_currentConfig hc)) hr

/-- As long as every configuration gives the review a read-only sandbox, no review that may write
is dispatched. -/
theorem review_dispatched_readOnly (h : Reachable host w) (hk : ReviewKept w.log) :
    ∀ e ∈ w.log, e.reviewsReadOnly = true := by
  intro e hm
  obtain ⟨m, hw⟩ := h.alive
  obtain ⟨later, earlier, hl⟩ := List.append_of_mem hm
  obtain ⟨w₀, rfl, ho⟩ := hw.origin hl
  have hk₀ : ReviewKept w₀.log := hk.suffix ⟨later ++ [e], by rw [hl, List.append_assoc]; rfl⟩
  rw [Event.reviewsReadOnly.eq_def]
  split
  · rename_i t r
    split
    · rename_i item hsubject
      rcases ho with ⟨s, item', hturn⟩ | ⟨_, _, hplanner⟩
      · obtain ⟨hr, hs⟩ := dispatchTurn_ok hturn.turn
        rw [hs] at hsubject
        cases hsubject
        obtain ⟨hv, hg⟩ := ((reviewGuarded_invariant host).kept hturn.alive).memory s rfl
        obtain ⟨hi, hu⟩ := hv.dispatchable hturn.dispatchable
        by_cases hid : item.id = completionId
        · rw [hid] at hi hu hr
          simp [hg hk₀ hu item t.route hi hr]
        · simp [hid]
      · rcases hplanner.subject with hs | hs <;> rw [hs] at hsubject <;> cases hsubject
    · rfl
  · rfl

section Sample

/-- The sample configuration with the review done by the task that works. -/
def selfReviewYaml : Json :=
  match sampleYaml .automatic .automatic .workspaceWrite with
  | .obj fields => .obj (fields.map fun e =>
      if e.1 = text "completion-task" then (e.1, .str (text "work")) else e)
  | j => j

def selfReviewConfig : RouterConfig :=
  { sampleConfig .automatic .automatic .workspaceWrite with completionTask := text "work" }

def selfReviewApplication : Application sampleHost :=
  ⟨⟨selfReviewConfig, samplePath, selfReviewYaml, text "digest", by decide +kernel⟩, samplePath⟩

/-- A run whose review may write. -/
theorem writing_review_dispatched :
    ¬∀ (host : Host) (w : World), Reachable host w → ∀ e ∈ w.log, e.reviewsReadOnly = true := by
  intro h
  have hw := (sampleScript singlePlan ["a"]).session_reachable selfReviewApplication
    (.runObjective samplePath (text "Go") none) sampleWorld_reachable
  have hall := List.all_eq_true.2 (h sampleHost _ hw)
  exact absurd hall (by decide +kernel)

/-- The event begins with no configuration whose review may write, and adopts none. -/
def Event.keepsReview : Event → Bool
  | .began config => ((config.tasks.get? config.completionTask).map fun policy =>
      decide (policy.sandbox = .readOnly)).getD true
  | .answered (.note (.adopted _)) _ => false
  | _ => true

theorem ReviewKept.of_keepsReview {log : List Event} (h : log.all Event.keepsReview = true) :
    ReviewKept log := by
  have hall := List.all_eq_true.1 h
  constructor
  · intro config hm policy hp
    have hb := hall _ hm
    rw [Event.keepsReview, hp] at hb
    exact of_decide_eq_true hb
  · intro later e earlier s config hl ha
    have hb := hall e (by rw [hl]; exact List.mem_append_right _ List.mem_cons_self)
    rw [Event.adopted?.eq_def] at ha
    split at ha
    · cases hb
    · cases ha

/-- The review of a run under the sample configuration is read-only. -/
theorem review_dispatched_readOnly_sample :
    ((sampleScript singlePlan ["a"]).session plainApplication
      (.runObjective samplePath (text "Go") none) sampleWorld).log.all
        Event.reviewsReadOnly = true :=
  List.all_eq_true.2 (review_dispatched_readOnly
    ((sampleScript singlePlan ["a"]).session_reachable plainApplication _ sampleWorld_reachable)
    (.of_keepsReview (by decide +kernel)))

end Sample

end GoalRouter
