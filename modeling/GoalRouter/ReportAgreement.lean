import GoalRouter.DependencyOrder
import GoalRouter.Reporting
import GoalRouter.SchedulerPasses
import GoalRouter.ScriptedWorld
import GoalRouter.StoreCalls

namespace GoalRouter
open Library
set_option autoImplicit true

/-- The directory holds the state, as it was saved or as it was loaded from there. -/
def Current (host : Host) (w : World) (s : RunState) : Prop :=
  (∃ e ∈ w.log, e.state? = some s) ∧
    (w.dir = .snapshot (snapshotOf s) ∨ loadSync host w.runId w.dir = .ok s)

/-- A report that was written, or may have been, and that no snapshot was stored after. -/
def World.Reported (w : World) (content : Text) : Prop :=
  ∃ later rid x earlier, w.log = later ++ .answered (.writeReport rid content) x :: earlier ∧
    ∀ s, .replaced s ∉ later

/-- The last reports are about what the directory holds, and so is the state in memory. -/
structure UpToDate (host : Host) (m : Option RunState) (w : World) : Prop where
  reports : ∀ content, w.Reported content → ∃ s, Current host w s ∧ host.render s = .ok content
  memory : ∀ s, m = some s → Current host w s

/-- Calls that leave the directory of the run as it is. -/
def Call.plain : Call → Bool
  | .create _ | .save _ | .writeReport _ _ => false
  | _ => true

section Steps

variable {host : Host}

theorem answered_ne_replaced (c : Call) (r : Except PyError (Val c)) (s : RunState) :
    Event.answered c r ≠ .replaced s := nofun

theorem Current.push (h : Current host w s) (c : Call) (r : Except PyError (Val c)) :
    Current host (w.push c r) s := by
  obtain ⟨⟨e, he, hs⟩, hd⟩ := h
  exact ⟨⟨e, List.mem_cons_of_mem _ he, hs⟩, hd⟩

theorem Current.land (w : World) (s : RunState) : Current host (w.land s) s :=
  ⟨⟨_, List.mem_cons_self, rfl⟩, .inl rfl⟩

theorem World.Reported.cons {content : Text} {w w₀ : World} (h : w.Reported content)
    (hl : w.log = e :: w₀.log) (he : ∀ rid x, e ≠ .answered (.writeReport rid content) x) :
    w₀.Reported content := by
  obtain ⟨later, rid, x, earlier, hlog, hn⟩ := h
  rw [hl] at hlog
  rcases List.cons_eq_append_iff.1 hlog with ⟨_, hw⟩ | ⟨later', hw, hrest⟩
  · exact absurd (List.cons.inj hw).1.symm (he rid x)
  · subst hw
    exact ⟨later', rid, x, earlier, hrest, fun s hm => hn s (List.mem_cons_of_mem _ hm)⟩

namespace UpToDate

theorem forget (h : UpToDate host m w) : UpToDate host none w where
  reports := h.reports
  memory _ hs := by cases hs

/-- An answer that is no report and leaves the directory alone. -/
theorem push (h : UpToDate host m w) (c : Call) (r : Except PyError (Val c))
    (hc : ∀ rid content, c ≠ .writeReport rid content) : UpToDate host m (w.push c r) where
  reports content hr := by
    have hne (rid : Text) (x : Except PyError Unit) :
        Event.answered c r ≠ .answered (.writeReport rid content) x := by
      intro he
      injection he with he
      exact hc rid content he
    obtain ⟨s, hs, hrender⟩ := h.reports content (hr.cons rfl hne)
    exact ⟨s, hs.push c r, hrender⟩
  memory s hs := (h.memory s hs).push c r

theorem land (w : World) (s : RunState) : UpToDate host (some s) (w.land s) where
  reports content hr := by
    obtain ⟨later, rid, x, earlier, hlog, hn⟩ := hr
    rcases List.cons_eq_append_iff.1 hlog with ⟨_, hw⟩ | ⟨later', hw, _⟩
    · cases (List.cons.inj hw).1
    · exact absurd (hw ▸ List.mem_cons_self) (hn s)
  memory s' hs := by
    cases hs
    exact Current.land w s

theorem halfCreated (h : UpToDate host m w) (hd : w.dir = .absent) :
    UpToDate host none { w with dir := .empty } where
  reports content hr := by
    obtain ⟨s, ⟨_, hs⟩, _⟩ := h.reports content hr
    rw [hd] at hs
    rcases hs with hs | hs <;> cases hs
  memory _ hs := by cases hs

theorem load (h : UpToDate host m w) (hl : loadSync host w.runId w.dir = .ok s) :
    UpToDate host (some s) (w.push (.load w.runId) (.ok s)) where
  reports := (h.push (.load w.runId) (.ok s) nofun).reports
  memory s' hs := by
    cases hs
    exact ⟨⟨_, List.mem_cons_self, rfl⟩, .inr hl⟩

theorem report {rid content : Text} (h : UpToDate host (some s) w)
    (hr : host.render s = .ok content)
    (x : Except PyError Unit) : UpToDate host (some s) (w.push (.writeReport rid content) x) where
  reports content' hc := by
    by_cases he : content' = content
    · subst he
      exact ⟨s, (h.memory s rfl).push _ _, hr⟩
    · have hne (rid' : Text) (x' : Except PyError Unit) :
          Event.answered (.writeReport rid content) x ≠
            .answered (.writeReport rid' content') x' := by
        intro hw
        cases hw
        exact he rfl
      obtain ⟨s', hs, hrender⟩ := h.reports content' (hc.cons rfl hne)
      exact ⟨s', hs.push _ _, hrender⟩
  memory s' hs := (h.memory s' hs).push _ _

end UpToDate

/-- A plain call that is no load changes nothing that reports are about. -/
theorem Next.upToDate (hn : Next host w c r w') (hc : c.plain = true) (h : UpToDate host m w) :
    UpToDate host m w' := by
  have hne (rid content : Text) : c ≠ .writeReport rid content := by
    rintro rfl
    cases hc
  cases hn with
  | created | saved | createdPartly => cases hc
  | _ => exact h.push _ _ hne

/-- Run from `w`, the program keeps the reports up to date, and returns with `Q`. -/
abbrev Keeps (host : Host) (Q : α → World → Prop) (p : Program α) (w : World) : Prop :=
  p.Safe (Next host) (UpToDate host none) Q (fun _ => UpToDate host none) w

theorem only_keeps {p : Program α} (hp : p.Only fun c => c.plain = true) (h : UpToDate host m w) :
    Keeps host (fun _ => UpToDate host m) p w := by
  have hs : p.Safe (Next host) (UpToDate host m) (fun _ => UpToDate host m)
      (fun _ => UpToDate host m) w :=
    hp.safe (fun _ _ _ _ hc hn hw => hn.upToDate hc hw) h
  exact (hs.weaken fun _ hw => hw.forget).mono (fun _ _ hw => hw) fun _ _ hw => hw.forget

theorem ofExcept_keeps (h : UpToDate host m w) (x : Except PyError α) :
    Keeps host (fun a w' => x = .ok a ∧ w' = w) (Prog.ofExcept x) w :=
  Prog.Safe.ofExcept (fun _ ha => ⟨ha, rfl⟩) fun _ _ => h.forget

end Steps

section Ports

variable {host : Host}

theorem saveRun_keeps (h : UpToDate host none w) (s : RunState) :
    Keeps host (fun _ => UpToDate host (some s)) (saveRun host s) w := by
  apply (ofExcept_keeps h _).bind
  rintro _ w ⟨_, rfl⟩
  apply Prog.Safe.invoke
  intro r w' hn
  cases hn with
  | raises =>
    have hw (e : PyError) := h.push (.save s) (.error e) nofun
    exact ⟨hw _, hw _⟩
  | saved =>
    have hw : UpToDate host (some s) ((w.land s).push (.save s) r) :=
      (UpToDate.land w s).push (.save s) r nofun
    cases r with
    | ok => exact ⟨hw.forget, hw⟩
    | error => exact ⟨hw.forget, hw.forget⟩

theorem createRun_keeps (h : UpToDate host none w) (s : RunState) :
    Keeps host (fun _ => UpToDate host (some s)) (createRun host s) w := by
  apply (ofExcept_keeps h _).bind
  rintro _ w ⟨_, rfl⟩
  apply Prog.Safe.invoke
  intro r w' hn
  cases hn with
  | raises =>
    have hw (e : PyError) := h.push (.create s) (.error e) nofun
    exact ⟨hw _, hw _⟩
  | created =>
    have hw : UpToDate host (some s) ((w.land s).push (.create s) r) :=
      (UpToDate.land w s).push (.create s) r nofun
    cases r with
    | ok => exact ⟨hw.forget, hw⟩
    | error => exact ⟨hw.forget, hw.forget⟩
  | createdPartly _ hd =>
    have hw (e : PyError) := (h.halfCreated hd).push (.create s) (.error e) nofun
    exact ⟨hw _, hw _⟩

theorem loadRun_keeps (h : UpToDate host none w) (rid : Text) (digest : Option Text)
    (acknowledge : Bool) :
    Keeps host (fun s => UpToDate host (some s)) (loadRun host rid digest acknowledge) w := by
  apply (ofExcept_keeps h _).bind
  rintro _ _ ⟨_, rfl⟩
  apply Prog.Safe.bind (Q := fun s => UpToDate host (some s))
  · apply Prog.Safe.invoke
    intro r w' hn
    cases hn with
    | raises =>
      have hw (e : PyError) := h.push (.load rid) (.error e) nofun
      exact ⟨hw _, hw _⟩
    | loaded hr hl =>
      subst hr
      exact ⟨(h.load hl).forget, h.load hl⟩
  · intro s w₁ h₁
    cases digest with
    | none => exact h₁
    | some digest =>
      simp only
      split
      · exact h₁.forget
      · exact h₁

theorem writeReport_keeps (h : UpToDate host (some s) w) :
    Keeps host (fun _ => UpToDate host (some s)) (writeReport host s) w := by
  apply (ofExcept_keeps h _).bind
  rintro content _ ⟨hr, rfl⟩
  apply Prog.Safe.bind (Q := fun _ => UpToDate host (some s))
  · apply (ofExcept_keeps h _).bind
    rintro _ _ ⟨_, rfl⟩
    apply Prog.Safe.invoke
    intro r w' hn
    cases hn with
    | raises => exact ⟨(h.report hr _).forget, (h.report hr _).forget⟩
    | writeReport => exact ⟨(h.report hr _).forget, h.report hr _⟩
  · exact fun _ _ hw => hw

end Ports

section Scheduler

variable {host : Host}

/-- The program makes plain calls only. -/
abbrev Plain (p : Program α) : Prop := p.Only fun c => c.plain = true

theorem Consults.plain {p : Program α} (h : Consults p) : Plain p := by
  apply Prog.Only.mono h
  intro c hc
  cases c <;> first | rfl | cases hc

theorem persistResult_keeps (h : UpToDate host none w) (s : RunState) (r : WorkResult) :
    Keeps host (fun s' => UpToDate host (some s')) (persistResult host s r) w := by
  apply (saveRun_keeps h _).bind
  intro _ w₁ h₁
  apply (only_keeps (Prog.Only.invoke (V := Val) (c := Call.now) rfl) h₁).bind
  intro _ w₂ h₂
  apply (only_keeps (appendEvent_records _ _).consults.plain h₂).bind
  exact fun _ _ hw => hw

theorem persistResults_keeps (h : UpToDate host none w) {results : List WorkResult} (s : RunState)
    (hs : results = [] → UpToDate host (some s) w) :
    Keeps host (fun s' => UpToDate host (some s')) (results.foldlM (persistResult host) s) w := by
  induction results generalizing s w with
  | nil => exact hs rfl
  | cons r results ih =>
    apply (persistResult_keeps h s r).bind
    intro s₁ w₁ h₁
    exact ih h₁.forget s₁ fun _ => h₁

theorem persistBlocked_keeps (h : UpToDate host (some s) w) :
    Keeps host (fun s' => UpToDate host (some s')) (persistBlocked host s s.newlyBlocked) w := by
  have hr := @persistResults_keeps host w h.forget (s.newlyBlocked.map blockedResult) s fun _ => h
  rw [List.foldlM_map] at hr
  exact hr

theorem writerBody_keeps (h : UpToDate host none w) (s : RunState) (item : WorkItem) :
    Keeps host (fun s' => UpToDate host (some s')) (writerBody host s item) w := by
  apply (ofExcept_keeps h _).bind
  rintro _ w ⟨_, rfl⟩
  apply (only_keeps (Prog.Only.invoke rfl) h).bind
  intro _ w₁ h₁
  apply (only_keeps (runOne_turns _ item).consults.plain h₁).bind
  exact fun r w₂ h₂ => persistResult_keeps h₂ _ r

theorem runWriter_keeps (h : UpToDate host none w) (s : RunState) (item : WorkItem) :
    Keeps host (fun s' => UpToDate host (some s')) (runWriter host s item) w := by
  have leased {w : World} (h : UpToDate host none w) (path : PurePath) (s : RunState) :
      Keeps host (fun s' => UpToDate host (some s')) (do
        invoke (.acquireProject path)
        (writerBody host s item).ensure (invoke (.releaseProject path))) w := by
    apply (only_keeps (Prog.Only.invoke rfl) h).bind
    intro _ w₁ h₁
    apply (writerBody_keeps h₁ s item).ensure
    · exact fun _ _ hw => only_keeps (Prog.Only.invoke rfl) hw
    · exact fun _ _ hw => only_keeps (Prog.Only.invoke rfl) hw
  rw [runWriter]
  split
  · simp only [bind_assoc, pure_bind]
    apply (saveRun_keeps h _).bind
    exact fun _ _ hw => leased hw.forget _ _
  · exact leased h _ s

theorem runReaders_keeps (h : UpToDate host none w) (s : RunState) {batch : List WorkItem}
    (hb : batch ≠ []) :
    Keeps host (fun s' => UpToDate host (some s')) (runReaders host s batch) w := by
  apply Prog.Safe.bind (Q := fun results w' => UpToDate host none w' ∧ results ≠ [])
  · have hbatch := @runReadBatch_within host _ w rfl { s with status := .running } batch
    apply ((only_keeps (runReadBatch_turns _ _).consults.plain h).and hbatch).weaken
      (fun _ hw => hw.1) |>.mono
    · rintro results w' ⟨hw, _, hr⟩
      refine ⟨hw, ?_⟩
      rintro rfl
      cases hr
      exact hb rfl
    · exact fun _ _ hw => hw.1
  · rintro results w₁ ⟨h₁, hr⟩
    exact persistResults_keeps h₁ _ fun he => absurd he hr

theorem runLoop_keeps {maxRead : Nat} (hm : 1 ≤ maxRead) (n : Nat) (h : UpToDate host (some s) w) :
    Keeps host (fun s' => UpToDate host (some s')) (runLoop host maxRead n s) w := by
  induction n generalizing s w with
  | zero => exact h
  | succ n ih =>
    apply (only_keeps (Prog.Only.invoke rfl) h).bind
    intro _ w₁ h₁
    apply (persistBlocked_keeps h₁).bind
    intro s w₂ h₂
    simp only
    split
    · exact h₂
    · rename_i hd
      apply (only_keeps (forM_validated_records _ _).consults.plain h₂).bind
      intro _ w₃ h₃
      split
      · rename_i item hf
        apply (runWriter_keeps h₃.forget s item).bind
        exact fun s w hw => ih hw
      · have hb : (s.dispatchable host).take maxRead ≠ [] := by
          rw [Ne, List.take_eq_nil_iff, not_or]
          exact ⟨by omega, hd⟩
        apply (runReaders_keeps h₃.forget s hb).bind
        exact fun s w hw => ih hw

theorem runReady_keeps {maxRead : Nat} (hm : 1 ≤ maxRead) (h : UpToDate host (some s) w) :
    Keeps host (fun s' => UpToDate host (some s')) (runReady host maxRead s) w := by
  apply (runLoop_keeps hm _ h).bind
  intro s w₁ h₁
  apply (only_keeps (Prog.Only.invoke rfl) h₁).bind
  intro _ w₂ h₂
  apply (ofExcept_keeps h₂ _).bind
  rintro status w ⟨_, rfl⟩
  simp only
  split
  · exact h₂
  · apply (saveRun_keeps h₂.forget _).bind
    exact fun _ _ hw => hw

end Scheduler

section Operations

variable {host : Host} {app : Application host}

theorem maxReadConcurrency_pos (app : Application host) : 1 ≤ app.maxReadConcurrency := by
  have hm := app.accepted.maximumReadConcurrency_pos
  rw [Application.maxReadConcurrency]
  show 1 ≤ app.accepted.config.maximumReadConcurrency.toNat
  omega

theorem planObjectiveUnlocked_keeps (h : UpToDate host none w) (path : PurePath)
    (prompt rid : Text) :
    Keeps host (fun s => UpToDate host (some s)) (app.planObjectiveUnlocked path prompt rid) w := by
  apply (only_keeps (Prog.Only.invoke rfl) h).bind
  intro repository w₁ h₁
  apply (only_keeps (validateModelInventory_records app).consults.plain h₁).bind
  intro _ w₂ h₂
  apply (only_keeps (objectiveOf_records app _ _ _ _).consults.plain h₂).bind
  intro objective w₃ h₃
  apply (only_keeps (plan_consults _ _ _).plain h₃).bind
  intro items w₄ h₄
  simp only
  split
  · exact h₄
  · apply (ofExcept_keeps h₄ _).bind
    rintro routes w ⟨_, rfl⟩
    apply (createRun_keeps h₄ _).bind
    intro _ w₅ h₅
    apply (only_keeps (recordEvent_records _ _ _ _).consults.plain h₅).bind
    exact fun _ _ hw => hw

theorem runTaskUnlocked_keeps (h : UpToDate host none w) (path : PurePath) (task prompt : Text)
    (paths : List PurePath) (rid : Text) :
    Keeps host (fun s => UpToDate host (some s))
      (app.runTaskUnlocked path task prompt paths rid) w := by
  apply (only_keeps (Prog.Only.invoke rfl) h).bind
  intro repository w₁ h₁
  apply (only_keeps (validateModelInventory_records app).consults.plain h₁).bind
  intro _ w₂ h₂
  apply (ofExcept_keeps h₂ _).bind
  rintro ⟨item, decision⟩ w ⟨_, rfl⟩
  apply (only_keeps (objectiveOf_records app _ _ _ _).consults.plain h₂).bind
  intro objective w₃ h₃
  apply (createRun_keeps h₃ _).bind
  intro _ w₄ h₄
  apply (only_keeps (recordEvent_records _ _ _ _).consults.plain h₄).bind
  intro _ w₅ h₅
  apply (runReady_keeps (maxReadConcurrency_pos app) h₅).bind
  intro s w₆ h₆
  apply (writeReport_keeps h₆).bind
  exact fun _ _ hw => hw

theorem appendCompletion_keeps (h : UpToDate host none w) (s : RunState) :
    Keeps host (fun s => UpToDate host (some s)) (app.appendCompletion s) w := by
  apply (ofExcept_keeps h _).bind
  rintro decision w ⟨_, rfl⟩
  apply (saveRun_keeps h _).bind
  intro _ w₁ h₁
  apply (only_keeps (recordEvent_records _ _ _ _).consults.plain h₁).bind
  exact fun _ _ hw => hw

theorem reviewCompletion_keeps (h : UpToDate host (some s) w) :
    Keeps host (fun s => UpToDate host (some s)) (app.reviewCompletion s) w := by
  have tail {s : RunState} {w : World} (h : UpToDate host (some s) w) :
      Keeps host (fun s => UpToDate host (some s)) (if s.results.contains completionId then pure s
        else runReady host app.maxReadConcurrency s) w := by
    split
    · exact h
    · exact runReady_keeps (maxReadConcurrency_pos app) h
  rw [Application.reviewCompletion]
  split
  · exact tail h
  · apply (appendCompletion_keeps h.forget s).bind
    exact fun _ _ hw => tail hw

theorem continueRun_keeps (h : UpToDate host (some s) w) :
    Keeps host (fun s => UpToDate host (some s)) (app.continueRun s) w := by
  have tail {s : RunState} {w : World} (h : UpToDate host (some s) w) :
      Keeps host (fun s => UpToDate host (some s)) (do let _ ← writeReport host s; return s) w := by
    apply (writeReport_keeps h).bind
    exact fun _ _ hw => hw
  apply (runReady_keeps (maxReadConcurrency_pos app) h).bind
  intro s w₁ h₁
  simp only
  split
  · apply (reviewCompletion_keeps h₁).bind
    exact fun _ _ hw => tail hw
  · exact tail h₁

theorem approveUnlocked_keeps (h : UpToDate host none w) (rid workItemId approvedBy : Text) :
    Keeps host (fun s => UpToDate host (some s))
      (app.approveUnlocked rid workItemId approvedBy) w := by
  apply (loadRun_keeps h _ _ _).bind
  intro s w₁ h₁
  apply (only_keeps (Prog.Only.invoke rfl) h₁).bind
  intro approvedAt w₂ h₂
  apply (ofExcept_keeps h₂ _).bind
  rintro s' w ⟨_, rfl⟩
  apply (only_keeps (Prog.Only.invoke rfl) h₂).bind
  intro _ w₃ h₃
  apply (saveRun_keeps h₃.forget _).bind
  intro _ w₄ h₄
  apply (only_keeps (recordEvent_records _ _ _ _).consults.plain h₄).bind
  intro _ w₅ h₅
  apply (writeReport_keeps h₅).bind
  exact fun _ _ hw => hw

theorem acknowledgeChange_keeps (h : UpToDate host (some s) w) :
    Keeps host (fun s => UpToDate host (some s)) (app.acknowledgeChange s) w := by
  rw [Application.acknowledgeChange]
  split
  · apply (ofExcept_keeps h _).bind
    rintro s' w ⟨_, rfl⟩
    apply (only_keeps (Prog.Only.invoke rfl) h).bind
    intro _ w₁ h₁
    apply (saveRun_keeps h₁.forget _).bind
    intro _ w₂ h₂
    apply (only_keeps (recordEvent_records _ _ _ _).consults.plain h₂).bind
    exact fun _ _ hw => hw
  · exact h

theorem resumeUnlocked_keeps (h : UpToDate host none w) (rid : Text) (acknowledge : Bool) :
    Keeps host (fun s => UpToDate host (some s)) (app.resumeUnlocked rid acknowledge) w := by
  apply (loadRun_keeps h _ _ _).bind
  intro s w₁ h₁
  apply (acknowledgeChange_keeps h₁).bind
  intro s w₂ h₂
  apply (only_keeps (validateModelInventory_records app).consults.plain h₂).bind
  exact fun _ _ hw => continueRun_keeps hw

theorem withRunLease_keeps {body : Program α} {P : α → Option RunState} (h : UpToDate host none w)
    (rid : Text) (hb : ∀ w, UpToDate host none w →
      Keeps host (fun a => UpToDate host (P a)) body w) :
    Keeps host (fun a => UpToDate host (P a)) (withRunLease host rid body) w := by
  apply (ofExcept_keeps h _).bind
  rintro _ w ⟨_, rfl⟩
  apply (only_keeps (Prog.Only.invoke rfl) h).bind
  intro _ w₁ h₁
  apply (hb w₁ h₁).ensure
  · exact fun _ _ hw => only_keeps (Prog.Only.invoke rfl) hw
  · exact fun _ _ hw => only_keeps (Prog.Only.invoke rfl) hw

theorem report_keeps (h : UpToDate host none w) (rid : Text) :
    Keeps host (fun _ => UpToDate host none) (Application.report host rid) w := by
  apply withRunLease_keeps h
  intro w₁ h₁
  apply (loadRun_keeps h₁ _ _ _).bind
  intro s w₂ h₂
  exact (writeReport_keeps h₂).mono (fun _ _ hw => hw.forget) fun _ _ hw => hw

theorem operation_keeps (op : Operation) (h : UpToDate host none w) :
    Keeps host (fun _ => UpToDate host none) (op.program app) w := by
  have done {α : Type} {p : Program α} {P : α → Option RunState}
      (hp : Keeps host (fun a => UpToDate host (P a)) p w) :
      Keeps host (fun _ => UpToDate host none) (do let _ ← p; pure ()) w :=
    hp.bind fun _ _ hw => hw.forget
  have leased {rid : Option Text} {body : Text → Program RunState}
      (hb : ∀ rid w, UpToDate host none w →
        Keeps host (fun s => UpToDate host (some s)) (body rid) w) :
      Keeps host (fun s => UpToDate host (some s))
        (do let selected ← selectRunId rid; withRunLease host selected (body selected)) w := by
    apply (only_keeps (selectRunId_records rid).consults.plain h).bind
    exact fun selected w₁ h₁ => withRunLease_keeps h₁ selected (hb selected)
  cases op with
  | models =>
    apply done (P := fun _ => none)
    apply (only_keeps (Prog.Only.invoke rfl) h).bind
    intro _ w₁ h₁
    apply (ofExcept_keeps h₁ _).bind
    rintro _ w ⟨_, rfl⟩
    exact h₁
  | routeTask task prompt paths =>
    apply done (P := fun _ => none)
    apply (only_keeps (validateModelInventory_records app).consults.plain h).bind
    intro _ w₁ h₁
    apply (ofExcept_keeps h₁ _).bind
    rintro _ w ⟨_, rfl⟩
    exact h₁
  | planObjective path prompt rid =>
    apply done
    exact leased fun rid w hw => planObjectiveUnlocked_keeps hw _ _ _
  | runTask path task prompt paths rid =>
    apply done
    exact leased fun rid w hw => runTaskUnlocked_keeps hw _ _ _ _ _
  | runObjective path prompt rid =>
    apply done
    apply leased
    intro rid w hw
    apply (planObjectiveUnlocked_keeps hw _ _ _).bind
    exact fun _ _ hw => continueRun_keeps hw
  | approve rid item approvedBy =>
    apply done
    exact withRunLease_keeps h rid fun w hw => approveUnlocked_keeps hw _ _ _
  | resume rid acknowledge =>
    apply done
    exact withRunLease_keeps h rid fun w hw => resumeUnlocked_keeps hw _ _
  | status rid =>
    apply done
    exact loadRun_keeps h _ _ _
  | report rid =>
    apply done
    exact report_keeps h rid

/-- Reports stay up to date over whole histories. -/
theorem Reachable.upToDate (h : Reachable host w) : UpToDate host none w := by
  induction h with
  | initial =>
    refine ⟨fun content hr => ?_, fun _ hs => by cases hs⟩
    obtain ⟨later, _, _, _, hlog, _⟩ := hr
    cases later <;> cases hlog
  | @session w _ _ app op _ hs ih =>
    have hb : UpToDate host none (w.begin app.config) := by
      refine ⟨fun content hr => ?_, fun _ hs => by cases hs⟩
      obtain ⟨s, ⟨⟨e, he, hst⟩, hd⟩, hrender⟩ := ih.reports content (hr.cons rfl nofun)
      exact ⟨s, ⟨⟨e, List.mem_cons_of_mem _ he, hst⟩, hd⟩, hrender⟩
    exact ((operation_keeps op hb).steps hb hs).1

end Operations

section Agreement

variable {host : Host} {floats : FloatText}

/-- Nothing that the report shows of the state is changed by storing it, and the state can be
read back. -/
structure RunState.Reportable (s : RunState) : Prop where
  showable : s.Showable
  keys : ∀ k ∈ s.workItems.keys, isSecretKey k = false

/-- Run from `w`, the program returns only with `Q`. -/
abbrev Returns (host : Host) (Q : α → World → Prop) (p : Program α) (w : World) : Prop :=
  p.Safe (Next host) (fun _ => True) Q (fun _ _ => True) w

theorem writeReport_returns (s : RunState) (w : World) :
    Returns host (fun content _ => host.render s = .ok content) (writeReport host s) w := by
  apply Prog.Safe.bind (Q := fun content _ => host.render s = .ok content)
  · exact Prog.Safe.ofExcept (fun _ hr => hr) fun _ _ => trivial
  · intro content w₁ hr
    apply (Prog.Safe.any (writeReportText host s.runId content) w₁).bind
    exact fun _ _ _ => hr

theorem loadRun_returns (rid : Text) (w : World) :
    Returns host (fun s _ => loadSync host rid w.dir = .ok s) (loadRun host rid none false) w := by
  apply Prog.Safe.bind (Q := fun _ w' => w' = w)
  · exact Prog.Safe.ofExcept (fun _ _ => rfl) fun _ _ => trivial
  rintro _ w rfl
  apply Prog.Safe.bind (Q := fun s _ => loadSync host rid w.dir = .ok s)
  · apply Prog.Safe.invoke
    intro r w' hn
    cases hn with
    | raises => exact ⟨trivial, trivial⟩
    | loaded _ hl => exact ⟨trivial, hl⟩
  · exact fun _ _ hl => hl

theorem report_returns (rid : Text) (w : World) :
    Returns host
      (fun content _ => ∃ s, loadSync host rid w.dir = .ok s ∧ host.render s = .ok content)
      (Application.report host rid) w := by
  apply Prog.Safe.bind (Q := fun _ w' => w' = w)
  · exact Prog.Safe.ofExcept (fun _ _ => rfl) fun _ _ => trivial
  rintro _ w rfl
  apply Prog.Safe.bind (Q := fun _ w' => w'.dir = w.dir)
  · apply Prog.Safe.invoke
    intro r w' hn
    cases hn with
    | raises => exact ⟨trivial, trivial⟩
    | acquireRun => exact ⟨trivial, rfl⟩
  intro _ w₁ hd
  apply Prog.Safe.ensure (Q := fun content _ =>
    ∃ s, loadSync host rid w.dir = .ok s ∧ host.render s = .ok content) (R := fun _ _ => True)
  · apply (loadRun_returns rid w₁).bind
    intro s w₂ hl
    rw [hd] at hl
    exact (writeReport_returns s w₂).mono (fun _ _ hr => ⟨s, hl, hr⟩) fun _ _ h => h
  · intro content w₂ h
    apply (Prog.Safe.any _ w₂).mono
    · exact fun _ _ _ => h
    · exact fun _ _ h => h
  · exact fun _ w₂ _ => Prog.Safe.any _ w₂

/-- As long as nothing that reports show is changed by storing it, a report made anew says what
the last ones written say. -/
theorem report_reproduced {content : Text} (h : Reachable host w)
    (hrender : ∀ s, host.render s = renderReport host floats s) (hjson : host.RewritesJson)
    (hs : ∀ e ∈ w.log, ∀ s, e.state? = some s → s.Reportable) (hw : w.Reported content) :
    (∃ s, loadSync host w.runId w.dir = .ok s ∧ host.render s = .ok content) ∧
      ∀ content' w', Prog.Steps (Next host) (Application.report host w.runId) w
        (.pure content') w' → content' = content := by
  have hload : ∃ s, loadSync host w.runId w.dir = .ok s ∧ host.render s = .ok content := by
    obtain ⟨s, ⟨⟨e, he, hst⟩, hd⟩, hr⟩ := h.upToDate.reports content hw
    have hreport := hs e he s hst
    rcases hd with hd | hl
    · obtain ⟨_, hlife⟩ := h.alive
      have hv := ((ordered_invariant host).of_event hlife he hst).1
      refine ⟨s.persisted, ?_, ?_⟩
      · rw [hd]
        exact loadSync_snapshotOf host w.runId hv.version hv.aware (hv.plainKeys hreport.keys)
      · rw [hrender, hreport.showable.renderReport hjson, ← hrender, hr]
    · exact ⟨s, hl, hr⟩
  refine ⟨hload, fun content' w' hsteps => ?_⟩
  obtain ⟨s, hl, hr⟩ := hload
  obtain ⟨s', hl', hr'⟩ := ((report_returns w.runId w).returns trivial hsteps).2
  rw [hl] at hl'
  cases hl'
  rw [hr] at hr'
  exact (Except.ok.inj hr').symm

end Agreement

section Sample

/-- The last report since a snapshot was stored. -/
def lastReport? : List Event → Option Text
  | [] => none
  | .replaced _ :: _ => none
  | .answered (.writeReport _ content) _ :: _ => some content
  | _ :: log => lastReport? log

theorem split_lastReport {log : List Event} {content : Text} (h : lastReport? log = some content) :
    ∃ later rid x earlier, log = later ++ .answered (.writeReport rid content) x :: earlier ∧
      ∀ s, .replaced s ∉ later := by
  induction log with
  | nil => cases h
  | cons e log ih =>
    have next (he : ∀ s, e ≠ .replaced s) (h : lastReport? log = some content) :
        ∃ later rid x earlier, e :: log =
          later ++ .answered (.writeReport rid content) x :: earlier ∧
          ∀ s, .replaced s ∉ later := by
      obtain ⟨later, rid, x, earlier, hl, hn⟩ := ih h
      refine ⟨e :: later, rid, x, earlier, by rw [hl, List.cons_append], fun s hm => ?_⟩
      rcases List.mem_cons.1 hm with hs | hm
      · exact he s hs.symm
      · exact hn s hm
    cases e with
    | began => exact next nofun h
    | replaced => cases h
    | answered c x =>
      cases c with
      | writeReport rid content' =>
        cases h
        exact ⟨[], rid, x, log, rfl, fun _ => List.not_mem_nil⟩
      | _ => exact next (answered_ne_replaced _ x) h

theorem reported_of_lastReport {w : World} {content : Text} (h : lastReport? w.log = some content) :
    w.Reported content := split_lastReport h

/-- How Python writes 0, 1 and their sums. -/
def sampleFloats : FloatText where
  general x :=
    if PyFloat.isNaN x then text "nan" else if x = PyFloat.one then text "1" else text "0"
  sum xs :=
    if xs.any PyFloat.isNaN then PyFloat.nan
    else (PyFloat.ofInt (xs.count PyFloat.one)).getD PyFloat.nan
  general_nan h := by
    rw [if_pos h, if_pos PyFloat.isNaN_nan]
  sum_perm h := by
    rw [h.any_eq, h.count_eq]
  sum_nan hx hn := by
    rw [if_pos (List.any_eq_true.2 ⟨_, hx, hn⟩)]
    exact PyFloat.isNaN_nan

def plainReportHost : Host := { sampleHost with canonicalDumps := fun j => renderJson j.reload }

/-- The sample host with the renderer of the repository. -/
def reportHost : Host :=
  { plainReportHost with render := renderReport plainReportHost sampleFloats }

theorem reportHost_render (s : RunState) :
    reportHost.render s = renderReport reportHost sampleFloats s := rfl

theorem reportHost_rewritesJson : reportHost.RewritesJson := by
  intro j _
  show renderJson j.reload.reload = renderJson j.reload
  rw [Json.reload_idem]

def reportApplication : Application reportHost :=
  ⟨⟨sampleConfig .automatic .automatic .readOnly, samplePath,
    sampleYaml .automatic .automatic .readOnly, text "digest", by decide +kernel⟩, samplePath⟩

def reportScript : Script := sampleScript singlePlan ["task"]

/-- The history of an explicit task with the given prompt. -/
def taskWorld (prompt : Text) : World :=
  reportScript.session reportApplication
    (.runTask samplePath (text "work") prompt [] none) sampleWorld

theorem taskWorld_reachable (prompt : Text) : Reachable reportHost (taskWorld prompt) :=
  reportScript.session_reachable reportApplication _ sampleWorld_reachable

/-- What a report after that returns. -/
def reportAgain (prompt : Text) : Program Text × World :=
  (Application.report reportHost (text "run")).exec (reportScript.answer reportHost)
    (taskWorld prompt)

theorem reportAgain_steps {prompt content : Text}
    (hv : (reportAgain prompt).1.value? = some content) :
    Prog.Steps (Next reportHost) (Application.report reportHost (text "run")) (taskWorld prompt)
      (.pure content) (reportAgain prompt).2 := by
  have ha (w : World) (c : Call) (r : Except PyError (Val c)) (w' : World)
      (hr : reportScript.answer reportHost w c = some (r, w')) : Next reportHost w c r w' :=
    reportScript.answer_next reportHost hr
  have hsteps := Prog.exec_steps ha (Application.report reportHost (text "run")) (taskWorld prompt)
  rw [← Prog.value?_eq_some.1 hv]
  exact hsteps

/-- A prompt shaped like a secret stands in the report that `run_task` writes, and is redacted in
the one made of the snapshot. -/
theorem secret_prompt_reported :
    ¬∀ (host : Host) (floats : FloatText) (w : World) (content : Text), Reachable host w →
      (∀ s, host.render s = renderReport host floats s) → host.RewritesJson → w.Reported content →
        ∀ content' w', Prog.Steps (Next host) (Application.report host w.runId) w
          (.pure content') w' → content' = content := by
  intro h
  have hb : (lastReport? (taskWorld (text "sk-abcdef")).log).any (fun content =>
      (reportAgain (text "sk-abcdef")).1.value?.any fun content' => content' ≠ content) = true := by
    decide +kernel
  obtain ⟨content, hc, hb⟩ := (Option.any_eq_true _ _).1 hb
  obtain ⟨content', hv, hb⟩ := (Option.any_eq_true _ _).1 hb
  exact of_decide_eq_true hb (h reportHost sampleFloats _ content (taskWorld_reachable _)
    reportHost_render reportHost_rewritesJson (reported_of_lastReport hc) content' _
    (reportAgain_steps hv))

def RunState.isReportable (s : RunState) : Bool :=
  s.shown.all (fun t => persistText t = t) && s.results.values.all (fun r => r.sdkItems = []) &&
    s.workItems.keys.all fun k => !isSecretKey k

theorem reportable_of_isReportable {s : RunState} (h : s.isReportable = true) : s.Reportable := by
  simp only [RunState.isReportable, Bool.and_eq_true, List.all_eq_true, decide_eq_true_eq,
    Bool.not_eq_true'] at h
  obtain ⟨⟨ht, hi⟩, hk⟩ := h
  refine ⟨⟨ht, fun r hr => ?_⟩, hk⟩
  rw [hi r hr]
  exact .arr fun _ hx => absurd hx List.not_mem_nil

/-- The report of a task with a plain prompt is reproduced. -/
theorem plain_prompt_reproduced :
    ∃ content, (taskWorld (text "Go")).Reported content ∧
      ∀ content' w', Prog.Steps (Next reportHost) (Application.report reportHost (text "run"))
        (taskWorld (text "Go")) (.pure content') w' → content' = content := by
  have hsome : (lastReport? (taskWorld (text "Go")).log).isSome = true := by decide +kernel
  obtain ⟨content, hc⟩ := Option.isSome_iff_exists.1 hsome
  have hall : (taskWorld (text "Go")).log.all
      (fun e => e.state?.all RunState.isReportable) = true := by decide +kernel
  have hs : ∀ e ∈ (taskWorld (text "Go")).log, ∀ s, e.state? = some s → s.Reportable := by
    intro e he s hs
    have ha := List.all_eq_true.1 hall e he
    rw [hs] at ha
    exact reportable_of_isReportable ha
  have hw := reported_of_lastReport hc
  exact ⟨content, hw, (report_reproduced (taskWorld_reachable _) reportHost_render
    reportHost_rewritesJson hs hw).2⟩

end Sample

end GoalRouter
