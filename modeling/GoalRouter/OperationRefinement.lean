import GoalRouter.SchedulerRefinement

namespace GoalRouter
open Library
set_option autoImplicit true

variable {host : Host} {app : Application host}

section Planning

theorem runTurn_lives {t : Turn} (h : Lifecycle host m w) (hc : .began app.config ∈ w.log)
    (hr : route host app.config (plannerWorkItem objective app.config) none = .ok t.route)
    (ht : t.subject = .planner ∨ t.subject = .correction) :
    Lives host (fun _ w' => Lifecycle host m w' ∧ .began app.config ∈ w'.log) (runTurn t) w := by
  apply Prog.Safe.bind (Q := fun _ w' => Lifecycle host m w' ∧ .began app.config ∈ w'.log)
  · apply Prog.Safe.invoke
    intro r w' hn
    cases hn with
    | raises hc => cases hc
    | startTurn =>
      have hw := h.planning app hc hr ht
      exact ⟨⟨m, hw⟩, hw, List.mem_cons_of_mem _ hc⟩
  · rintro _ w₁ ⟨h₁, hc⟩
    apply (invoke_lives h₁ rfl).bind
    rintro ⟨t', outcome⟩ w₂ ⟨h₂, hn⟩
    apply (ofExcept_lives h₂ _).mono
    · rintro _ _ ⟨_, rfl⟩
      exact ⟨h₂, hn.mem_log hc⟩
    · exact fun _ _ hw => hw

theorem plan_lives (h : Lifecycle host m w) (hc : .began app.config ∈ w.log)
    (objective : Objective) (repository : RepositoryContext) :
    Lives host (fun items w' => Lifecycle host m w' ∧ ∃ content,
      parseAndValidate host app.config objective.projectPath content = .ok items)
      (plan host app.config objective repository) w := by
  apply (invoke_lives h rfl).bind
  rintro schema w₁ ⟨h₁, hn⟩
  have hc := hn.mem_log hc
  apply (ofExcept_lives h₁ _).bind
  rintro decision _ ⟨hr, rfl⟩
  apply (runTurn_lives h₁ hc hr (.inl rfl)).bind
  rintro result w₂ ⟨h₂, hc⟩
  split
  · rename_i items hp
    exact ⟨h₂, _, hp⟩
  · split
    · split
      · exact ⟨m, h₂⟩
      · apply (runTurn_lives h₂ hc hr (.inr rfl)).bind
        rintro corrected w₃ ⟨h₃, _⟩
        apply (ofExcept_lives h₃ _).mono
        · rintro items _ ⟨hp, rfl⟩
          exact ⟨h₃, _, hp⟩
        · exact fun _ _ hw => hw
    · exact ⟨m, h₂⟩

end Planning

section Operations

theorem validateModelInventory_lives (h : Lifecycle host m w) (app : Application host) :
    Lives host (fun _ w' => Lifecycle host m w' ∧ ∀ e ∈ w.log, e ∈ w'.log)
      app.validateModelInventory w := by
  apply (invoke_lives h rfl).bind
  rintro _ w₁ ⟨h₁, hn⟩
  apply (ofExcept_lives h₁ _).mono
  · rintro _ _ ⟨_, rfl⟩
    exact ⟨h₁, fun e he => hn.mem_log he⟩
  · exact fun _ _ hw => hw

theorem objectiveOf_lives (h : Lifecycle host m w) (projectPath : PurePath) (prompt : Text)
    (explicitTask : Option Text) (rid : Text) :
    Lives host (fun o w' => Lifecycle host m w' ∧ (∀ e ∈ w.log, e ∈ w'.log) ∧
      o.projectPath = projectPath ∧ o.explicitTask = explicitTask ∧ o.createdAt.offset ≠ none)
      (app.objectiveOf projectPath prompt explicitTask rid) w := by
  apply (invoke_lives h rfl).bind
  rintro _ w₁ ⟨h₁, hn⟩
  have hl (e : Event) (he : e ∈ w.log) : e ∈ w₁.log := hn.mem_log he
  cases hn with
  | now _ ht => exact ⟨h₁, hl, rfl, rfl, ht⟩

theorem planObjectiveUnlocked_lives (h : Lifecycle host m w) (hc : .began app.config ∈ w.log)
    (projectPath : PurePath) (prompt rid : Text) :
    Lives host (fun s w' => Lifecycle host (some s) w')
      (app.planObjectiveUnlocked projectPath prompt rid) w := by
  apply (invoke_lives h rfl).bind
  rintro (repository : RepositoryContext) w₁ ⟨h₁, hn⟩
  apply (validateModelInventory_lives h₁ app).bind
  rintro _ w₂ ⟨h₂, hl₂⟩
  apply (objectiveOf_lives h₂ _ _ _ _).bind
  rintro objective w₃ ⟨h₃, hl₃, _, ho, ht⟩
  apply (plan_lives h₃ (hl₃ _ (hl₂ _ (hn.mem_log hc))) _ _).bind
  rintro items w₄ ⟨h₄, content, hp⟩
  simp only
  split
  · exact ⟨m, h₄⟩
  · rename_i hid
    apply (ofExcept_lives h₄ _).bind
    rintro routes _ ⟨hr, rfl⟩
    have hids : completionId ∉ items.map WorkItem.id := by
      intro hm
      obtain ⟨item, hi, he⟩ := List.mem_map.1 hm
      exact hid (List.any_eq_true.2 ⟨item, hi, by simpa using he⟩)
    have hf : Fresh app (app.initialState objective repository
        (Dict.ofList (items.map fun item => (item.id, item))) routes) :=
      .planned hp hids hr ho ht
    apply (createRun_lives h₄ hf).bind
    intro _ w₅ h₅
    apply (recordEvent_lives h₅ _ (text "objective-planned") _ _ (by decide)).bind
    exact fun _ _ hw => hw

theorem runTaskUnlocked_lives (h : Lifecycle host m w) (projectPath : PurePath)
    (task prompt : Text) (paths : List PurePath) (rid : Text) :
    Lives host (fun s w' => Lifecycle host (some s) w')
      (app.runTaskUnlocked projectPath task prompt paths rid) w := by
  apply (invoke_lives h rfl).bind
  rintro (repository : RepositoryContext) w₁ ⟨h₁, _⟩
  apply (validateModelInventory_lives h₁ app).bind
  rintro _ w₂ ⟨h₂, _⟩
  apply (ofExcept_lives h₂ _).bind
  rintro ⟨item, decision⟩ _ ⟨he, rfl⟩
  apply (objectiveOf_lives h₂ _ _ _ _).bind
  rintro objective w₃ ⟨h₃, _, _, ho, ht⟩
  have hf : Fresh app (app.initialState objective repository (Dict.ofList [(item.id, item)])
      (Dict.ofList [(item.id, decision)])) := .explicit he ho ht
  apply (createRun_lives h₃ hf).bind
  intro _ w₄ h₄
  apply (recordEvent_lives h₄ _ (text "task-created") _ _ (by decide)).bind
  intro _ w₅ h₅
  apply (runReady_lives h₅ _).bind
  intro s w₆ h₆
  apply (writeReport_lives h₆ s).bind
  exact fun _ _ hw => hw

theorem appendCompletion_lives (h : Lifecycle host (some s) w)
    (hc : currentConfig w.log = some app.config) (ho : s.objective.explicitTask = none)
    (hb : s.baseWorkSucceeded = true) (hn : completionId ∉ s.workItems.keys) :
    Lives host (fun s' w' => Lifecycle host (some s') w') (app.appendCompletion s) w := by
  apply (ofExcept_lives h _).bind
  rintro decision _ ⟨hr, rfl⟩
  apply (saveRun_lives (h.appended app hc ho hb hn hr)).bind
  intro _ w₁ h₁
  apply (recordEvent_lives h₁ _ (text "completion-review-appended") _ _ (by decide)).bind
  exact fun _ _ hw => hw

theorem reviewCompletion_lives (h : Lifecycle host (some s) w)
    (hc : currentConfig w.log = some app.config) (ho : s.objective.explicitTask = none)
    (hb : s.baseWorkSucceeded = true) :
    Lives host (fun s' w' => Lifecycle host (some s') w') (app.reviewCompletion s) w := by
  have tail {s : RunState} {w : World} (h : Lifecycle host (some s) w) :
      Lives host (fun s' w' => Lifecycle host (some s') w')
        (if s.results.contains completionId then pure s
          else runReady host app.maxReadConcurrency s) w := by
    split
    · exact h
    · exact runReady_lives h _
  rw [Application.reviewCompletion]
  split
  · exact tail h
  · rename_i hn
    apply (appendCompletion_lives h hc ho hb (mt Dict.contains_iff.2 hn)).bind
    exact fun _ _ hw => tail hw

theorem continueRun_lives (h : Lifecycle host (some s) w)
    (hc : currentConfig w.log = some app.config) :
    Lives host (fun s' w' => Lifecycle host (some s') w') (app.continueRun s) w := by
  have tail {s : RunState} {w : World} (h : Lifecycle host (some s) w) :
      Lives host (fun s' w' => Lifecycle host (some s') w')
        (do let _ ← writeReport host s; return s) w := by
    apply (writeReport_lives h s).bind
    exact fun _ _ hw => hw
  apply (configured_lives (runReady_lives h _) hc).bind
  rintro s w₁ ⟨h₁, hc₁⟩
  simp only
  split
  · rename_i hbase
    apply (reviewCompletion_lives h₁ hc₁ hbase.1 hbase.2).bind
    exact fun _ _ hw => tail hw
  · exact tail h₁

theorem approveUnlocked_lives (h : Lifecycle host m w) (rid workItemId approvedBy : Text) :
    Lives host (fun s w' => Lifecycle host (some s) w')
      (app.approveUnlocked rid workItemId approvedBy) w := by
  apply (loadRun_lives h _ _ _).bind
  rintro s w₁ ⟨h₁, hl⟩
  apply Prog.Safe.bind (Q := fun _ w' => Lifecycle host (some s) w' ∧
    loadSync host w'.runId w'.dir = .ok s)
  · apply (invoke_lives h₁ rfl).mono
    · rintro time w₂ ⟨h₂, hn⟩
      rw [hn.quiet rfl] at h₂ ⊢
      exact ⟨h₂, hl⟩
    · exact fun _ _ hw => hw
  · rintro approvedAt w₂ ⟨h₂, hl⟩
    apply (ofExcept_lives h₂ _).bind
    rintro s' _ ⟨ha, rfl⟩
    apply Prog.Safe.bind (Q := fun _ w' => Lifecycle host (some s') w')
    · apply Prog.Safe.invoke
      intro r w' hn
      cases hn with
      | raises hc => cases hc
      | note =>
        have hw := h₂.approved hl ha
        exact ⟨⟨_, hw⟩, hw⟩
    · intro _ w₃ h₃
      apply (saveRun_lives h₃).bind
      intro _ w₄ h₄
      apply (recordEvent_lives h₄ _ (text "approval-recorded") _ _ (by decide)).bind
      intro _ w₅ h₅
      apply (writeReport_lives h₅ s').bind
      exact fun _ _ hw => hw

theorem acknowledgeChange_lives (h : Lifecycle host (some s) w)
    (hc : currentConfig w.log = some app.config) :
    Lives host (fun s' w' => Lifecycle host (some s') w') (app.acknowledgeChange s) w := by
  rw [Application.acknowledgeChange]
  split
  · apply (ofExcept_lives h _).bind
    rintro s' _ ⟨ha, rfl⟩
    apply Prog.Safe.bind (Q := fun _ w' => Lifecycle host (some s') w')
    · apply Prog.Safe.invoke
      intro r w' hn
      cases hn with
      | raises hc => cases hc
      | note =>
        have hw := h.adopted app hc ha
        exact ⟨⟨_, hw⟩, hw⟩
    · intro _ w₁ h₁
      apply (saveRun_lives h₁).bind
      intro _ w₂ h₂
      apply (recordEvent_lives h₂ _ (text "configuration-change-acknowledged") _ _ (by decide)).bind
      exact fun _ _ hw => hw
  · exact h

theorem resumeUnlocked_lives (h : Lifecycle host m w) (hc : currentConfig w.log = some app.config)
    (rid : Text) (acknowledge : Bool) :
    Lives host (fun s w' => Lifecycle host (some s) w') (app.resumeUnlocked rid acknowledge) w := by
  apply (configured_lives (loadRun_lives h _ _ _) hc).bind
  rintro s w₁ ⟨⟨h₁, _⟩, hc₁⟩
  apply (configured_lives (acknowledgeChange_lives h₁ hc₁) hc₁).bind
  rintro s w₂ ⟨h₂, hc₂⟩
  apply (configured_lives (validateModelInventory_lives h₂ app) hc₂).bind
  rintro _ w₃ ⟨⟨h₃, _⟩, hc₃⟩
  exact continueRun_lives h₃ hc₃

theorem withRunLease_lives {body : Program α} (h : Lifecycle host m w) (rid : Text)
    (hb : ∀ w', Lifecycle host m w' → (∀ e ∈ w.log, e ∈ w'.log) →
      currentConfig w'.log = currentConfig w.log → Lives host (fun _ w' => Alive host w') body w') :
    Lives host (fun _ w' => Alive host w') (withRunLease host rid body) w := by
  have hfin {w' : World} (hw : Alive host w') :
      Lives host (fun _ w' => Alive host w') (invoke (.releaseRun rid)) w' := by
    obtain ⟨m, hw⟩ := hw
    exact (invoke_lives hw rfl).mono (fun _ _ hw => ⟨m, hw.1⟩) fun _ _ hw => hw
  apply (ofExcept_lives h _).bind
  rintro _ _ ⟨_, rfl⟩
  apply (invoke_lives h rfl).bind
  rintro _ w₁ ⟨h₁, hn⟩
  apply (hb w₁ h₁ (fun e he => hn.mem_log he) hn.currentConfig).ensure
  · exact fun _ _ hw => hfin hw
  · exact fun _ _ hw => hfin hw

theorem selectRunId_lives (h : Lifecycle host m w) (rid : Option Text) :
    Lives host (fun _ w' => Lifecycle host m w' ∧ ∀ e ∈ w.log, e ∈ w'.log) (selectRunId rid) w := by
  have hnew : Lives host (fun _ w' => Lifecycle host m w' ∧ ∀ e ∈ w.log, e ∈ w'.log)
      (invoke .newRunId) w := by
    apply (invoke_lives h rfl).mono
    · rintro _ _ ⟨hw, hn⟩
      exact ⟨hw, fun e he => hn.mem_log he⟩
    · exact fun _ _ hw => hw
  cases rid with
  | none => exact hnew
  | some t =>
    cases t with
    | nil => exact hnew
    | cons c t =>
      rw [selectRunId]
      exact ⟨h, fun e he => he⟩

/-- Every operation stays within the life of its run. -/
theorem operation_lives (op : Operation) (h : Lifecycle host m w)
    (hcur : currentConfig w.log = some app.config) :
    Lives host (fun _ w' => Alive host w') (op.program app) w := by
  have done {α : Type} {p : Program α} {w : World}
      (hp : Lives host (fun _ w' => Alive host w') p w) :
      Lives host (fun _ w' => Alive host w') (do let _ ← p; pure ()) w :=
    hp.bind fun _ _ hw => hw
  have leased {w : World} {rid : Option Text} {body : Text → Program RunState}
      (h : Lifecycle host m w) (hc : currentConfig w.log = some app.config)
      (hb : ∀ rid w', Lifecycle host m w' → currentConfig w'.log = some app.config →
        Lives host (fun s w' => Lifecycle host (some s) w') (body rid) w') :
      Lives host (fun _ w' => Alive host w')
        (do let selected ← selectRunId rid; withRunLease host selected (body selected)) w := by
    apply (configured_lives (selectRunId_lives h rid) hc).bind
    rintro selected w₁ ⟨⟨h₁, _⟩, hc₁⟩
    apply withRunLease_lives h₁
    intro w₂ h₂ _ hc₂
    exact (hb selected w₂ h₂ (hc₂.trans hc₁)).mono (fun _ _ hw => ⟨_, hw⟩) fun _ _ hw => hw
  cases op with
  | models =>
    apply done
    apply (invoke_lives h rfl).bind
    rintro _ w₁ ⟨h₁, _⟩
    apply (ofExcept_lives h₁ _).bind
    rintro _ _ ⟨_, rfl⟩
    exact ⟨m, h₁⟩
  | routeTask task prompt paths =>
    apply done
    apply (validateModelInventory_lives h app).bind
    rintro _ w₁ ⟨h₁, _⟩
    apply (ofExcept_lives h₁ _).bind
    rintro _ _ ⟨_, rfl⟩
    exact ⟨m, h₁⟩
  | planObjective path prompt rid =>
    apply done
    apply leased h hcur
    exact fun rid w' hw hc => planObjectiveUnlocked_lives hw (began_of_currentConfig hc) _ _ _
  | runTask path task prompt paths rid =>
    apply done
    apply leased h hcur
    exact fun rid w' hw _ => runTaskUnlocked_lives hw _ _ _ _ _
  | runObjective path prompt rid =>
    apply done
    apply leased h hcur
    intro rid w' hw hc
    apply (configured_lives (planObjectiveUnlocked_lives hw (began_of_currentConfig hc) _ _ _)
      hc).bind
    exact fun _ _ hw => continueRun_lives hw.1 hw.2
  | approve rid item approvedBy =>
    apply done
    apply withRunLease_lives h
    intro w' hw _ _
    exact (approveUnlocked_lives hw _ _ _).mono (fun _ _ hw => ⟨_, hw⟩) fun _ _ hw => hw
  | resume rid acknowledge =>
    apply done
    apply withRunLease_lives h
    intro w' hw _ hcur'
    exact (resumeUnlocked_lives hw (hcur'.trans hcur) _ _).mono (fun _ _ hw => ⟨_, hw⟩)
      fun _ _ hw => hw
  | status rid =>
    apply done
    exact (loadRun_lives h _ _ _).mono (fun _ _ hw => ⟨_, hw.1⟩) fun _ _ hw => hw
  | report rid =>
    apply done
    apply withRunLease_lives h
    intro w' hw _ _
    apply (loadRun_lives hw _ _ _).bind
    rintro s w₁ ⟨h₁, _⟩
    exact (writeReport_lives h₁ s).mono (fun _ _ hw => ⟨_, hw⟩) fun _ _ hw => hw

/-- Every history of the application is a life of its run. -/
theorem Reachable.alive (h : Reachable host w) : Alive host w := by
  induction h with
  | initial rid => exact ⟨none, .initial rid⟩
  | session app op _ hs ih =>
    obtain ⟨m, hw⟩ := ih
    have hb : Lifecycle host m (World.begin _ app.config) := hw.quiet rfl
    exact ((operation_lives op hb rfl).steps ⟨m, hb⟩ hs).1

end Operations

end GoalRouter
