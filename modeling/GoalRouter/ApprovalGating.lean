import GoalRouter.OperationRefinement
import GoalRouter.ScriptedWorld

namespace GoalRouter
open Library
set_option autoImplicit true

/-- An approval record that matches the route was validated. -/
def ValidatedFor (host : Host) (log : List Event) (decision : RouteDecision) : Prop :=
  ∃ s workItemId r record, .answered (.note (.validated s workItemId)) r ∈ log ∧
    s.routes.get? workItemId = some decision ∧ s.approvals.get? workItemId = some record ∧
    record.runId = s.runId ∧ record.configurationDigest = s.configurationDigest ∧
    fingerprint host s workItemId = .ok record.fingerprint

/-- No turn is started on a route that requires approval before a record was validated for it. -/
def TurnsValidated (host : Host) (log : List Event) : Prop :=
  ∀ later t r earlier, log = later ++ .answered (.startTurn t) r :: earlier →
    t.route.approval = .required → ValidatedFor host earlier t.route

/-- The router requires no approval for the planner's task. -/
def PlannerAutomatic (host : Host) (config : RouterConfig) : Prop :=
  ∀ objective decision, route host config (plannerWorkItem objective config) none = .ok decision →
    decision.approval = .automatic

theorem itemTurn_validated (hw : Lifecycle host m w)
    (hl : w.log = later ++ .answered (.startTurn t) r :: earlier)
    (hs : t.subject = .item item) (ha : t.route.approval = .required) :
    ValidatedFor host earlier t.route := by
  obtain ⟨w₀, rfl, ho⟩ := hw.origin hl
  rcases ho with ⟨s, item', ho⟩ | ⟨app, objective, ho⟩
  · obtain ⟨s₀, r₀, hm, hroutes⟩ := ho.validated
    obtain ⟨after, before, hv⟩ := List.append_of_mem hm
    obtain ⟨w₁, _, _, hd⟩ := ho.alive.origin hv
    obtain ⟨_, decision, _, hr, happ⟩ := requireDispatchable_ok hd
    have ht := (dispatchTurn_ok ho.turn).1
    rw [← hroutes, hr] at ht
    cases ht
    rcases happ with happ | ⟨record, hrec, hrun, hdig, hprint⟩
    · rw [ha] at happ
      cases happ
    · exact ⟨s₀, item'.id, r₀, record, hm, hr, hrec, hrun, hdig, hprint⟩
  · rcases ho.subject with hp | hp <;> rw [hs] at hp <;> cases hp

theorem turns_validated (h : Reachable host w)
    (hc : ∀ config, .began config ∈ w.log → PlannerAutomatic host config) :
    TurnsValidated host w.log := by
  intro later t r earlier hl ha
  obtain ⟨m, hw⟩ := h.alive
  obtain ⟨w₀, rfl, ho⟩ := hw.origin hl
  rcases ho with ⟨s, item, ho⟩ | ⟨app, objective, ho⟩
  · exact itemTurn_validated hw hl (dispatchTurn_ok ho.turn).2 ha
  · have hb : .began app.config ∈ w.log := by
      rw [hl]
      exact List.mem_append_right _ (List.mem_cons_of_mem _ ho.began)
    rw [hc _ hb objective _ ho.route] at ha
    cases ha

theorem validateModels_all (config : RouterConfig) :
    validateModels config (config.modelAliases.values.map ModelAlias.model) = .ok () := by
  have hnil : (config.modelAliases.values.map ModelAlias.model).filter
      (· ∉ config.modelAliases.values.map ModelAlias.model) = [] := by
    apply List.filter_eq_nil_iff.2
    intro model hm
    simpa using hm
  rw [validateModels, hnil]
  rfl

/-- Up to its first turn, planning makes only calls that mark no point of the run. -/
theorem planObjectiveUnlocked_steps (app : Application host) (w : World) (prompt rid : Text)
    (hr : ∀ objective, route host app.config (plannerWorkItem objective app.config) none =
      .ok decision) :
    ∃ q t new w', Prog.Steps (Next host)
      (app.planObjectiveUnlocked (PurePath.ofText (text "/")) prompt rid) w q w' ∧
        w'.log = .answered (.startTurn t) (.ok ()) :: (new ++ w.log) ∧ t.route = decision ∧
          ∀ e ∈ new, ∃ c r, e = .answered c r ∧ c.quiet = true := by
  let path := PurePath.ofText (text "/")
  let repository : RepositoryContext := ⟨path, false, none, [], [], [], [], []⟩
  let models := app.config.modelAliases.values.map ModelAlias.model
  let time : DateTime := { year := 2026, month := 1, day := 1, hour := 0, minute := 0, second := 0,
                           microsecond := 0, offset := some 0, valid := by decide }
  let objective : Objective := ⟨rid, prompt, path, none, app.configPath, time⟩
  let turn := planningTurn objective decision (buildPrompt objective repository app.config [])
  let w₁ := w.push (.inspect path) (.ok repository)
  let w₂ := w₁.push .availableModels (.ok models)
  let w₃ := w₂.push .now (.ok time)
  let w₄ := w₃.push .loadSchema (.ok [])
  have hinventory : Prog.Steps (Next host) app.validateModelInventory w₁ (.pure ()) w₂ := by
    apply Prog.Steps.answer (.availableModels models)
    rw [validateModels_all]
    exact .refl
  have hobjective : Prog.Steps (Next host) (app.objectiveOf path prompt none rid) w₂
      (.pure objective) w₃ := Prog.Steps.answer (.now time nofun) .refl
  have hplan : ∃ q, Prog.Steps (Next host) (plan host app.config objective repository) w₃ q
      (w₄.push (.startTurn turn) (.ok ())) := by
    apply Exists.intro
    apply Prog.Steps.answer (.loadSchema [])
    rw [hr objective]
    exact (Prog.Steps.answer .startTurn .refl).bind _
  obtain ⟨q, hplan⟩ := hplan
  refine ⟨_, turn, [_, _, _, _], _, Prog.Steps.answer (.inspect repository)
    (hinventory.seq (hobjective.seq (hplan.bind _))), rfl, rfl, ?_⟩
  intro e he
  simp only [List.mem_cons, List.not_mem_nil, or_false] at he
  rcases he with rfl | rfl | rfl | rfl <;> exact ⟨_, _, rfl, rfl⟩

theorem planner_turn_unvalidated (app : Application host)
    (h : ¬PlannerAutomatic host app.config) :
    ∃ w, Reachable host w ∧ (∀ config, .began config ∈ w.log → config = app.config) ∧
      ¬TurnsValidated host w.log := by
  simp only [PlannerAutomatic, not_forall] at h
  obtain ⟨objective, decision, hr, ha⟩ := h
  have ha : decision.approval = .required := by
    cases hd : decision.approval with
    | automatic => exact absurd hd ha
    | required => rfl
  let w₀ := World.begin ⟨text "run", .absent, []⟩ app.config
  let w₁ := w₀.push (.acquireRun (text "run")) (.ok ())
  obtain ⟨q, t, new, w, hs, hlog, ht, hnew⟩ := planObjectiveUnlocked_steps app w₁ []
    (text "run") fun objective => (route_congr rfl rfl).trans hr
  have hrun : validateRunId host (text "run") = .ok (text "run") := by
    rw [validateRunId, if_pos (by decide)]
  have hlease : ∃ q, Prog.Steps (Next host) (withRunLease host (text "run")
      (app.planObjectiveUnlocked (PurePath.ofText (text "/")) [] (text "run"))) w₀ q w := by
    rw [withRunLease, hrun]
    exact ⟨_, Prog.Steps.answer .acquireRun ((hs.attempt).bind _)⟩
  obtain ⟨q, hlease⟩ := hlease
  refine ⟨w, .session app (.planObjective (PurePath.ofText (text "/")) [] (some (text "run")))
    (.initial (text "run")) (hlease.bind _), ?_, ?_⟩
  · intro config hm
    rw [hlog, List.mem_cons, List.mem_append] at hm
    rcases hm with hm | hm | hm
    · cases hm
    · obtain ⟨_, _, he, _⟩ := hnew _ hm
      cases he
    · rcases List.mem_cons.1 hm with hm | hm
      · cases hm
      · cases List.mem_singleton.1 hm
        rfl
  · intro hv
    obtain ⟨s, k, r, _, hm, _⟩ := hv [] t _ _ hlog (ht ▸ ha)
    rcases List.mem_append.1 hm with hm | hm
    · obtain ⟨c, r, he, hc⟩ := hnew _ hm
      cases he
      cases hc
    · rcases List.mem_cons.1 hm with hm | hm
      · cases hm
      · cases List.mem_singleton.1 hm

theorem Next.began (h : Next host w c r w') (hm : .began config ∈ w'.log) :
    .began config ∈ w.log := by
  cases h <;> simpa using hm

/-- The sessions of a run work under accepted configurations. -/
theorem Reachable.began (h : Reachable host w) (hm : .began config ∈ w.log) :
    ∃ app : Application host, app.config = config := by
  induction h with
  | initial => cases hm
  | @session w _ _ app op _ hs ih =>
    have hb : .began config ∈ (w.begin app.config).log :=
      hs.back (F := fun w => .began config ∈ w.log) (fun _ _ _ _ hn hm => hn.began hm) hm
    rcases List.mem_cons.1 hb with hb | hb
    · cases hb
      exact ⟨app, rfl⟩
    · exact ih hb

/-- Whatever configurations a run works under, each turn on a route that requires approval is
preceded by the validation of a matching record exactly if none of them requires approval for
planning. -/
theorem turns_validated_iff (allowed : RouterConfig → Prop) :
    (∀ w, Reachable host w → (∀ config, .began config ∈ w.log → allowed config) →
      TurnsValidated host w.log) ↔
    ∀ app : Application host, allowed app.config → PlannerAutomatic host app.config := by
  constructor
  · intro h app ha
    by_contra hn
    obtain ⟨w, hw, hc, hv⟩ := planner_turn_unvalidated app hn
    exact hv (h w hw fun config hm => hc config hm ▸ ha)
  · intro h w hw hc
    apply turns_validated hw
    intro config hm
    obtain ⟨app, rfl⟩ := hw.began hm
    exact h app (hc _ hm)

/-- A configuration whose planning task requires approval is accepted, and its planner's turn is
started without any. -/
theorem required_planning_unvalidated :
    ¬∀ (host : Host) (w : World), Reachable host w → TurnsValidated host w.log := by
  intro h
  let app := sampleApplication .required .automatic .readOnly (by decide +kernel)
  have hn : ¬PlannerAutomatic sampleHost app.config := by
    intro ha
    let objective : Objective :=
      ⟨text "run", text "Go", samplePath, none, samplePath, (sampleScript singlePlan []).time⟩
    have hr : (route sampleHost app.config (plannerWorkItem objective app.config) none).map
        RouteDecision.approval = .ok .required := by decide +kernel
    cases hd : route sampleHost app.config (plannerWorkItem objective app.config) none with
    | error e =>
      rw [hd] at hr
      cases hr
    | ok decision =>
      rw [hd] at hr
      have hreq : decision.approval = .required := Except.ok.inj hr
      rw [ha objective decision hd] at hreq
      cases hreq
  obtain ⟨w, hw, _, hv⟩ := planner_turn_unvalidated app hn
  exact hv (h _ w hw)

end GoalRouter
