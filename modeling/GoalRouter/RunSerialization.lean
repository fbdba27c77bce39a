import GoalRouter.Library.Leasing
import GoalRouter.TurnsInFlight

namespace GoalRouter
open Library
set_option autoImplicit true

variable {host : Host} {runId : Text}

/-- What a call is for in the eyes of those who share a run. -/
def Call.use (runId : Text) : Call → Use
  | .acquireRun rid => if rid = runId then .take else .plain
  | .releaseRun rid => if rid = runId then .give else .plain
  | .create _ | .save _ | .appendEvent _ _ | .writeReport _ _ => .write
  | .load _ => .look
  | _ => .plain

/-- The answers that calls can be given: the identifier factory makes up the identifier of the run
that is shared. -/
def answerable (runId : Text) : (c : Call) → Except PyError (Val c) → Prop
  | .newRunId, r => r = .ok runId
  | _, _ => True

/-- An operation on the run. -/
def Operation.On (runId : Text) : Operation → Prop
  | .models | .routeTask _ _ _ => True
  | .planObjective _ _ rid | .runTask _ _ _ _ rid | .runObjective _ _ rid =>
    rid = none ∨ rid = some [] ∨ rid = some runId
  | .approve rid _ _ | .resume rid _ | .status rid | .report rid => rid = runId

/-- Processes of the application that work on one run at the same time, each under a configuration
of its own. -/
def sharedRun (host : Host) (runId : Text) : Sharing Val PyError Unit RunDir Event where
  next x c r x' := Next host ⟨runId, x.1, x.2⟩ c r ⟨runId, x'.1, x'.2⟩
  use := Call.use runId
  begins start p := ∃ (app : Application host) (op : Operation), op.On runId ∧
    start = [.began app.config] ∧ p = op.program app

abbrev RunSystem := Shared Val PyError Unit RunDir Event

section Answers

theorem Next.runId_eq (h : Next host w c r w') : w'.runId = w.runId := by
  cases h <;> rfl

theorem Next.answerable (h : Next host w c r w') : answerable w.runId c r := by
  cases h with
  | raises hc =>
    cases c with
    | newRunId => cases hc
    | _ => trivial
  | newRunId => rfl
  | _ => trivial

theorem exists_answerable (c : Call) : ∃ r, GoalRouter.answerable runId c r := by
  cases c with
  | newRunId => exact ⟨_, rfl⟩
  | _ => exact ⟨.error .cancelled, trivial⟩

/-- What was logged before does not matter to an answer. -/
theorem Next.older (h : Next host ⟨runId, dir, log⟩ c r ⟨runId, dir', log'⟩) (events : List Event) :
    Next host ⟨runId, dir, log ++ events⟩ c r ⟨runId, dir', log' ++ events⟩ := by
  cases h with
  | raises hc => exact .raises hc
  | interrupted => exact .interrupted
  | acquireRun => exact .acquireRun
  | releaseRun => exact .releaseRun
  | acquireProject => exact .acquireProject
  | releaseProject => exact .releaseProject
  | inspect repository => exact .inspect repository
  | availableModels models => exact .availableModels models
  | newRunId => exact .newRunId
  | now time ht => exact .now time ht
  | loadSchema schema => exact .loadSchema schema
  | startTurn => exact .startTurn
  | awaitTurn hm he => exact .awaitTurn hm he
  | created hr hd ha => exact .created hr hd ha
  | createdPartly hr hd => exact .createdPartly hr hd
  | loaded hr hl => exact .loaded hr hl
  | saved hr hd ha => exact .saved hr hd ha
  | appendEvent => exact .appendEvent
  | writeReport => exact .writeReport
  | note => exact .note

theorem Next.dir_eq {rid : Text} (h : Next host w c r w') (hu : c.use rid ≠ .write) :
    w'.dir = w.dir := by
  cases h with
  | created | saved | createdPartly => exact absurd rfl hu
  | _ => rfl

theorem Next.independent (h : Next host ⟨runId, dir, log⟩ c r ⟨runId, dir', log'⟩)
    (hl : c.use rid ≠ .look) (hw : c.use rid ≠ .write) (dir₁ : RunDir) :
    Next host ⟨runId, dir₁, log⟩ c r ⟨runId, dir₁, log'⟩ := by
  cases h with
  | raises hc => exact .raises hc
  | interrupted => exact .interrupted
  | acquireRun => exact .acquireRun
  | releaseRun => exact .releaseRun
  | acquireProject => exact .acquireProject
  | releaseProject => exact .releaseProject
  | inspect repository => exact .inspect repository
  | availableModels models => exact .availableModels models
  | newRunId => exact .newRunId
  | now time ht => exact .now time ht
  | loadSchema schema => exact .loadSchema schema
  | startTurn => exact .startTurn
  | awaitTurn hm he => exact .awaitTurn hm he
  | loaded => exact absurd rfl hl
  | created | createdPartly | saved => exact absurd rfl hw
  | appendEvent => exact .appendEvent
  | writeReport => exact .writeReport
  | note => exact .note

end Answers

section Bodies

/-- Calls that neither ask for the lease of a run nor give it back. -/
def Call.keepsRunLease : Call → Bool
  | .acquireRun _ | .releaseRun _ => false
  | _ => true

/-- The program has nothing to do with the lease of a run. -/
abbrev KeepsRunLease (p : Program α) : Prop := p.Only fun c => c.keepsRunLease = true

theorem Works.keepsRunLease {p : Program α} (h : Works p) : KeepsRunLease p := by
  apply Prog.Only.mono h
  intro c hc
  cases c <;> first | rfl | cases hc

theorem ensure_keepsLease {p : Program α} {fin : Program Unit} (hp : KeepsRunLease p)
    (hf : KeepsRunLease fin) : KeepsRunLease (p.ensure fin) := by
  apply hp.attempt.bind
  intro r
  cases r with
  | ok a => exact hf.bind fun _ => trivial
  | error e => exact hf.attempt.bind fun _ => trivial

theorem leasedWriter_keepsLease (s : RunState) (item : WorkItem) (path : PurePath) :
    KeepsRunLease (do
      invoke (.acquireProject path)
      (writerBody host s item).ensure (invoke (.releaseProject path))) := by
  apply Prog.Only.bind
  · exact Prog.Only.invoke rfl
  intro _
  exact ensure_keepsLease (writerBody_works s item).keepsRunLease (Prog.Only.invoke rfl)

theorem runWriter_keepsLease (s : RunState) (item : WorkItem) :
    KeepsRunLease (runWriter host s item) := by
  rw [runWriter]
  split
  · simp only [bind_assoc, pure_bind]
    apply (saveRun_stores _).works.keepsRunLease.bind
    exact fun _ => leasedWriter_keepsLease _ item _
  · exact leasedWriter_keepsLease s item _

theorem runLoop_keepsLease (bound n : Nat) (s : RunState) :
    KeepsRunLease (runLoop host bound n s) := by
  induction n generalizing s with
  | zero => trivial
  | succ n ih =>
    apply Prog.Only.bind
    · exact Prog.Only.invoke rfl
    intro _
    apply (persistBlocked_stores s _).works.keepsRunLease.bind
    intro s
    simp only
    split
    · trivial
    apply (forM_validated_records s _).stores.works.keepsRunLease.bind
    intro _
    split
    · exact (runWriter_keepsLease s _).bind fun s => ih s
    · exact (runReaders_works s _).keepsRunLease.bind fun s => ih s

theorem runReady_keepsLease (bound : Nat) (s : RunState) :
    KeepsRunLease (runReady host bound s) := by
  apply (runLoop_keepsLease bound _ s).bind
  intro s
  apply Prog.Only.bind
  · exact Prog.Only.invoke rfl
  intro _
  apply (Prog.Only.ofExcept _).bind
  intro status
  simp only
  split
  · trivial
  · exact (saveRun_stores _).works.keepsRunLease.bind fun _ => trivial

variable (app : Application host)

theorem planObjectiveUnlocked_keepsLease (path : PurePath) (prompt rid : Text) :
    KeepsRunLease (app.planObjectiveUnlocked path prompt rid) := by
  apply Prog.Only.bind
  · exact Prog.Only.invoke rfl
  intro (repository : RepositoryContext)
  apply (validateModelInventory_records app).stores.works.keepsRunLease.bind
  intro _
  apply (objectiveOf_records app _ _ _ _).stores.works.keepsRunLease.bind
  intro objective
  apply (plan_consults _ _ _).works.keepsRunLease.bind
  intro items
  simp only
  split
  · trivial
  apply (Prog.Only.ofExcept _).bind
  intro routes
  apply (createRun_stores _).works.keepsRunLease.bind
  intro _
  apply (recordEvent_records _ _ _ _).stores.works.keepsRunLease.bind
  exact fun _ => trivial

theorem runTaskUnlocked_keepsLease (path : PurePath) (task prompt : Text) (paths : List PurePath)
    (rid : Text) : KeepsRunLease (app.runTaskUnlocked path task prompt paths rid) := by
  apply Prog.Only.bind
  · exact Prog.Only.invoke rfl
  intro (repository : RepositoryContext)
  apply (validateModelInventory_records app).stores.works.keepsRunLease.bind
  intro _
  apply (Prog.Only.ofExcept _).bind
  rintro ⟨item, decision⟩
  apply (objectiveOf_records app _ _ _ _).stores.works.keepsRunLease.bind
  intro objective
  apply (createRun_stores _).works.keepsRunLease.bind
  intro _
  apply (recordEvent_records _ _ _ _).stores.works.keepsRunLease.bind
  intro _
  apply (runReady_keepsLease _ _).bind
  exact fun s => (reported_stores s).works.keepsRunLease

theorem reviewCompletion_keepsLease (s : RunState) : KeepsRunLease (app.reviewCompletion s) := by
  have hrun (s : RunState) : KeepsRunLease (if s.results.contains completionId then pure s
      else runReady host app.maxReadConcurrency s) := by
    split
    · trivial
    · exact runReady_keepsLease _ s
  rw [Application.reviewCompletion]
  split
  · exact hrun s
  · exact (appendCompletion_stores app s).works.keepsRunLease.bind fun s => hrun s

theorem continueRun_keepsLease (s : RunState) : KeepsRunLease (app.continueRun s) := by
  apply (runReady_keepsLease _ s).bind
  intro s
  simp only
  split
  · apply (reviewCompletion_keepsLease app s).bind
    exact fun s => (reported_stores s).works.keepsRunLease
  · exact (reported_stores s).works.keepsRunLease

theorem resumeUnlocked_keepsLease (rid : Text) (acknowledge : Bool) :
    KeepsRunLease (app.resumeUnlocked rid acknowledge) := by
  apply (loadRun_stores _ _ _).works.keepsRunLease.bind
  intro s
  apply (acknowledgeChange_stores app s).works.keepsRunLease.bind
  intro s
  apply (validateModelInventory_records app).stores.works.keepsRunLease.bind
  exact fun _ => continueRun_keepsLease app s

end Bodies

/-- From the standing `x` the program keeps the rules of the shared run, and ends with `F`. -/
abbrev Obeys (host : Host) (runId : Text) (F : Standing → Prop) (p : Program α) (x : Standing) :
    Prop :=
  (sharedRun host runId).Obeys (answerable runId) F p x

section Rules

variable {F : Standing → Prop}

theorem Obeys.bind {p : Program α} {f : α → Program β} {x : Standing}
    (h : p.Safe ((sharedRun host runId).moves (answerable runId)) (fun x => x ≠ .broken)
      (fun _ => G) (fun _ => F) x)
    (hf : ∀ a x, G x → Obeys host runId F (f a) x) : Obeys host runId F (p >>= f) x :=
  Prog.Safe.bind h hf

/-- What has nothing to do with the lease can be done under it. -/
theorem KeepsRunLease.obeys {p : Program α} (h : KeepsRunLease p) :
    Obeys host runId (fun x => x = .holding) p .holding := by
  have hstep (x : Standing) (c : Call) (r : Except PyError (Val c)) (x' : Standing)
      (hc : c.keepsRunLease = true) (hn : (sharedRun host runId).moves (answerable runId) x c r x')
      (hx : x = .holding) : x' = .holding := by
    obtain ⟨_, rfl⟩ := hn
    subst hx
    cases c with
    | acquireRun | releaseRun => cases hc
    | _ => rfl
  apply (Prog.Only.safe h hstep rfl).weaken
  intro x hx
  rw [hx]
  decide

/-- The lease is taken once and given back once, and what the body does it does between. -/
theorem withRunLease_obeys {body : Program α} (hb : KeepsRunLease body) :
    Obeys host runId (fun _ => True) (withRunLease host runId body) .seeking := by
  apply Prog.Safe.bind (Q := fun _ x => x = .seeking)
  · exact Prog.Safe.ofExcept (fun _ _ => rfl) fun _ _ => trivial
  rintro _ _ rfl
  apply Prog.Safe.bind (Q := fun _ x => x = .holding)
  · apply Prog.Safe.invoke
    rintro r x' ⟨_, rfl⟩
    have htake : (sharedRun host runId).use (.acquireRun runId) = .take := if_pos rfl
    have hheld : Standing.holding ≠ .broken := by decide
    have hrefused : Standing.through ≠ .broken := by decide
    rw [htake]
    cases r with
    | ok v => exact ⟨hheld, rfl⟩
    | error e => exact ⟨hrefused, trivial⟩
  rintro _ _ rfl
  have hfin : Obeys host runId (fun _ => True) (invoke (.releaseRun runId)) .holding := by
    apply Prog.Safe.invoke
    rintro r x' ⟨_, rfl⟩
    have hgive : (sharedRun host runId).use (.releaseRun runId) = .give := if_pos rfl
    have hthrough : Standing.through ≠ .broken := by decide
    rw [hgive]
    cases r <;> exact ⟨hthrough, trivial⟩
  apply hb.obeys.ensure
  · rintro a _ rfl
    exact hfin
  · rintro e _ rfl
    exact hfin

theorem selectRunId_obeys {rid : Option Text}
    (h : rid = none ∨ rid = some [] ∨ rid = some runId) :
    (selectRunId rid).Safe ((sharedRun host runId).moves (answerable runId))
      (fun x => x ≠ .broken) (fun selected x => selected = runId ∧ x = .seeking)
      (fun _ _ => True) .seeking := by
  have hnew : (invoke .newRunId).Safe ((sharedRun host runId).moves (answerable runId))
      (fun x => x ≠ .broken) (fun selected x => selected = runId ∧ x = .seeking)
      (fun _ _ => True) .seeking := by
    apply Prog.Safe.invoke
    rintro r x' ⟨rfl, rfl⟩
    have hseeking : Standing.seeking ≠ .broken := by decide
    exact ⟨hseeking, rfl, rfl⟩
  rcases h with rfl | rfl | rfl
  · exact hnew
  · exact hnew
  · cases runId with
    | nil => exact hnew
    | cons => exact ⟨rfl, rfl⟩

theorem selected_obeys {rid : Option Text} {body : Text → Program α}
    (h : rid = none ∨ rid = some [] ∨ rid = some runId) (hb : KeepsRunLease (body runId)) :
    Obeys host runId (fun _ => True) (do
      let selected ← selectRunId rid
      withRunLease host selected (body selected)) .seeking := by
  apply Prog.Safe.bind (selectRunId_obeys h)
  rintro selected _ ⟨rfl, rfl⟩
  exact withRunLease_obeys hb

/-- Calls that may be made without the lease. -/
def Call.leaseless : Call → Bool
  | .load _ | .availableModels => true
  | _ => false

theorem leaseless_obeys {p : Program α} (h : p.Only fun c => c.leaseless = true) :
    Obeys host runId (fun _ => True) p .apart := by
  have hstep (x : Standing) (c : Call) (r : Except PyError (Val c)) (x' : Standing)
      (hc : c.leaseless = true) (hn : (sharedRun host runId).moves (answerable runId) x c r x')
      (hx : x = .apart) : x' = .apart := by
    obtain ⟨_, rfl⟩ := hn
    subst hx
    cases c with
    | load | availableModels => rfl
    | _ => cases hc
  have hsafe := Prog.Only.safe h hstep rfl
  apply (hsafe.weaken fun x hx => ?_).mono (fun _ _ _ => trivial) fun _ _ _ => trivial
  rw [hx]
  decide

theorem discarded_obeys {p : Program α} {x : Standing}
    (h : Obeys host runId (fun _ => True) p x) :
    Obeys host runId (fun _ => True) (do let _ ← p) x :=
  Prog.Safe.bind h fun _ _ _ => trivial

/-- Every operation keeps the rules: it takes the lease before it writes, or never writes. -/
theorem Operation.obeys (app : Application host) {op : Operation} (ho : op.On runId) :
    Obeys host runId (fun _ => True) (op.program app) .apart ∨
      Obeys host runId (fun _ => True) (op.program app) .seeking := by
  have hinventory : app.validateModelInventory.Only fun c => c.leaseless = true := by
    apply Prog.Only.bind
    · exact Prog.Only.invoke rfl
    · exact fun _ => Prog.Only.ofExcept _
  cases op with
  | models =>
    apply Or.inl
    apply discarded_obeys
    apply leaseless_obeys
    apply Prog.Only.bind
    · exact Prog.Only.invoke rfl
    intro available
    apply (Prog.Only.ofExcept _).bind
    exact fun _ => trivial
  | routeTask task prompt paths =>
    apply Or.inl
    apply discarded_obeys
    apply leaseless_obeys
    apply hinventory.bind
    intro _
    apply (Prog.Only.ofExcept _).bind
    exact fun _ => trivial
  | planObjective path prompt rid =>
    exact .inr (discarded_obeys (selected_obeys ho (planObjectiveUnlocked_keepsLease app _ _ _)))
  | runTask path task prompt paths rid =>
    exact .inr (discarded_obeys (selected_obeys ho (runTaskUnlocked_keepsLease app _ _ _ _ _)))
  | runObjective path prompt rid =>
    apply Or.inr
    apply discarded_obeys
    apply selected_obeys ho
    apply (planObjectiveUnlocked_keepsLease app _ _ _).bind
    exact fun s => continueRun_keepsLease app s
  | approve rid item approvedBy =>
    obtain rfl : rid = runId := ho
    have happrove := (approveUnlocked_stores app rid item approvedBy).works.keepsRunLease
    exact .inr (discarded_obeys (withRunLease_obeys happrove))
  | resume rid acknowledge =>
    obtain rfl : rid = runId := ho
    exact .inr (discarded_obeys (withRunLease_obeys (resumeUnlocked_keepsLease app _ _)))
  | status rid =>
    apply Or.inl
    apply discarded_obeys
    apply leaseless_obeys
    apply (Prog.Only.ofExcept _).bind
    intro _
    apply Prog.Only.bind
    · exact Prog.Only.invoke rfl
    · exact fun _ => trivial
  | report rid =>
    obtain rfl : rid = runId := ho
    apply Or.inr
    apply discarded_obeys
    apply withRunLease_obeys
    apply (loadRun_stores _ _ _).works.keepsRunLease.bind
    exact fun s => (writeReport_stores s).works.keepsRunLease

end Rules

theorem Call.use_plain {c : Call} (h : c.use runId = .plain ∨ c.use runId = .take) :
    c.use runId ≠ .look ∧ c.use runId ≠ .write := by
  rcases h with h | h <;> rw [h] <;> decide

theorem sharedRun_lawful (host : Host) (runId : Text) :
    (sharedRun host runId).Lawful (answerable runId) where
  can_of_next h := Next.answerable h
  answerable := exists_answerable
  begins := by
    rintro _ _ ⟨app, op, ho, _, rfl⟩
    exact Operation.obeys app ho
  older events h := Next.older h events
  look hu h := by
    apply Next.dir_eq h
    intro hw
    cases hu.symm.trans hw
  independent hu h := by
    obtain ⟨hl, hw⟩ := Call.use_plain hu
    exact ⟨Next.dir_eq h hw, Next.independent h hl hw⟩

theorem steps_shared {p q : Program Unit} {x x' : RunDir × List Event}
    (h : Prog.Steps (sharedRun host runId).next p x q x') :
    Prog.Steps (Next host) p ⟨runId, x.1, x.2⟩ q ⟨runId, x'.1, x'.2⟩ := by
  induction h with
  | refl => exact .refl
  | call hn _ ih => exact .call hn ih

/-- Processes that were granted the lease one after the other make a history of sessions. -/
theorem reachable_of_serial {y : RunSystem}
    (ho : (sharedRun host runId).Orderly (answerable runId) .absent y)
    (h : (sharedRun host runId).Serial y.processes .absent ids dir) :
    Reachable host ⟨runId, dir, Shared.history y.processes ids⟩ := by
  induction h with
  | nil => exact .initial runId
  | cons h hi hs hl ih =>
    obtain ⟨app, op, _, hstart, hprogram⟩ := ho.begun _ _ hi
    rw [hstart, hprogram] at hs
    rw [Shared.history_cons hi]
    exact .session app op ih (steps_shared hs)

theorem steps_alone {p q : Program Unit} {w w' : World} (hr : w.runId = runId)
    (h : Prog.Steps (Next host) p w q w') :
    Prog.Steps (sharedRun host runId).next p (w.dir, w.log) q (w'.dir, w'.log) := by
  induction h with
  | refl => exact .refl
  | @call w c r w₁ k q w' hn _ ih =>
    have hr₁ := hn.runId_eq.trans hr
    refine .call ?_ (ih hr₁)
    obtain ⟨rid, dir, log⟩ := w
    obtain ⟨rid₁, dir₁, log₁⟩ := w₁
    cases hr
    cases hr₁
    exact hn

/-- A session of one process while another has only begun. -/
theorem session_reached (app other : Application host) {op op' : Operation} (ho : op.On runId)
    (ho' : op'.On runId)
    (hs : Prog.Steps (Next host) (op.program app)
      (World.begin ⟨runId, .absent, []⟩ app.config) q w') :
    ∃ y : RunSystem, (sharedRun host runId).Reached .absent y ∧ y.state = w'.dir ∧ y.late = [] ∧
      y.processes 0 = some ⟨[.began app.config], op.program app, some q, w'.log⟩ ∧
        y.processes 1 = some ⟨[.began other.config], op'.program other, some (op'.program other),
          [.began other.config]⟩ := by
  have hlone := steps_alone rfl hs
  have hbegun : (sharedRun host runId).Reached .absent _ :=
    Sharing.Reached.initial.step (.begins (i := 0) rfl ⟨app, op, ho, rfl, rfl⟩)
  have hboth := hbegun.step (.begins (i := 1) rfl ⟨other, op', ho', rfl, rfl⟩)
  rcases Operation.obeys app ho with hobeys | hobeys
  · obtain ⟨y, h, hi, hd, hl, hother⟩ := hboth.runs (i := 0) (sharedRun_lawful host runId) rfl rfl
      hobeys (fun _ => rfl) hlone
    exact ⟨y, h, hd, hl, hi, hother 1 (by decide)⟩
  · obtain ⟨y, h, hi, hd, hl, hother⟩ := hboth.runs (i := 0) (sharedRun_lawful host runId) rfl rfl
      hobeys (fun _ => rfl) hlone
    exact ⟨y, h, hd, hl, hi, hother 1 (by decide)⟩

/-- What the next call of a program is for. -/
def nextUse (runId : Text) : Program Unit → Option Use
  | .call c _ => some (c.use runId)
  | _ => none

theorem nextUse_eq_write {p : Program Unit} (h : nextUse runId p = some .write) :
    ∃ c k, p = .call c k ∧ c.use runId = .write := by
  cases p with
  | pure a => cases h
  | throw e => cases h
  | call c k => exact ⟨c, k, rfl, Option.some.inj h⟩

theorem nextUse_eq_take {p : Program Unit} (h : nextUse runId p = some .take) :
    ∃ k, p = .call (.acquireRun runId) k := by
  cases p with
  | pure a => cases h
  | throw e => cases h
  | call c k =>
    have hu : c.use runId = .take := Option.some.inj h
    cases c with
    | acquireRun rid =>
      rw [Call.use] at hu
      split at hu
      · rename_i he
        subst he
        exact ⟨k, rfl⟩
      · cases hu
    | releaseRun rid =>
      rw [Call.use] at hu
      split at hu <;> cases hu
    | _ => cases hu

/-- When a process is about to write, another asks for the lease and is refused it, and the first
goes on. -/
theorem contended_session_reached (app other : Application host) {op op' : Operation}
    (ho : op.On runId) (ho' : op'.On runId) {c : Call} {k : Except PyError (Val c) → Program Unit}
    {k' : Except PyError (Val (.acquireRun runId)) → Program Unit}
    (hs : Prog.Steps (Next host) (op.program app)
      (World.begin ⟨runId, .absent, []⟩ app.config) (.call c k) w₁) (hc : c.use runId = .write)
    (hask : op'.program other = .call (.acquireRun runId) k')
    (hs' : Prog.Steps (Next host) (.call c k) w₁ q w₂) (e : PyError) :
    ∃ y : RunSystem, (sharedRun host runId).Reached .absent y ∧ y.state = w₂.dir ∧ y.late = [] ∧
      ∃ p, y.processes 1 = some p ∧ .answered (.acquireRun runId) (.error e) ∈ p.log := by
  have hlawful := sharedRun_lawful host runId
  obtain ⟨y, h, hd, hlate, hi, hj⟩ := session_reached app other ho ho' hs
  have hrefused : Lease.Passes 1 ((sharedRun host runId).use (.acquireRun runId)) false
      y.lease y.lease := by
    have htake : (sharedRun host runId).use (.acquireRun runId) = .take := if_pos rfl
    rw [htake]
    exact .refused
  have hnext : (sharedRun host runId).next (y.state, [.began other.config]) (.acquireRun runId)
      (.error e) (y.state, [.answered (.acquireRun runId) (.error e), .began other.config]) :=
    Next.raises rfl
  have hasked := h.step (.answered hj (congrArg some hask) hnext hrefused)
  -- The first process holds the lease, since it is about to write.
  obtain ⟨x, hx⟩ := (h.orderly hlawful).stands 0 _ _ hi rfl
  obtain rfl := hx.holder hlawful (.inl hc)
  have hrun : w₁.runId = runId :=
    hs.keeps (fun _ _ _ _ hn hw => hn.runId_eq.trans hw) rfl
  have hlone := steps_alone hrun hs'
  rw [← hd] at hlone
  obtain ⟨y', h', -, hd', hlate', hother⟩ := hasked.runs hlawful
    ((y.put_other (by decide) _).trans hi) rfl hx.obeys (fun h => by cases h) hlone
  exact ⟨y', h', hd', hlate'.trans hlate, _, (hother 1 (by decide)).trans (y.put_self 1 _),
    List.mem_cons_self⟩

/-- What a process is told that asks for the lease while another holds it. -/
def runBusy : PyError := ⟨.runBusyError, text "Run is busy: run"⟩

/-- The process dies when it is about to create the run. -/
def creatingScript : Script :=
  { sampleScript singlePlan ["task"] with
    dies := fun _ c => match c with | .create _ => true | _ => false }

/-- However many processes work on a run, and whichever of them die or are cancelled, what is about
to write into its directory holds its lease. -/
theorem only_holder_writes {y : RunSystem} {c : Call} {k : Except PyError (Val c) → Program Unit}
    (h : (sharedRun host runId).Reached .absent y) (hi : y.processes i = some p)
    (hl : p.left = some (.call c k)) (hc : c.use runId = .write) : y.lease.holder = some i :=
  h.holder (sharedRun_lawful host runId) hi hl hc

theorem creator_holds :
    ∃ y : RunSystem, (sharedRun sampleHost sampleWorld.runId).Reached .absent y ∧
      (∃ p c k, y.processes 0 = some p ∧ p.left = some (.call c k) ∧
        c.use sampleWorld.runId = .write) ∧ y.lease.holder = some 0 := by
  let op : Operation := .runTask samplePath (text "work") (text "Go") [] none
  have hs := creatingScript.session_steps workingApplication op sampleWorld
  have hon : op.On sampleWorld.runId := .inl rfl
  have hnext : nextUse sampleWorld.runId ((op.program workingApplication).exec
      (creatingScript.answer sampleHost) (sampleWorld.begin workingApplication.config)).1 =
      some .write := by decide +kernel
  obtain ⟨c, k, hq, hc⟩ := nextUse_eq_write hnext
  obtain ⟨y, h, _, _, hi, _⟩ := session_reached workingApplication workingApplication hon hon hs
  have hl := congrArg some hq
  exact ⟨y, h, ⟨_, c, k, hi, hl, hc⟩, only_holder_writes h hi hl hc⟩

/-- Where no write outlives the wait for it, processes that work on a run at the same time leave it
as they would one after the other, in the order in which they were granted its lease. -/
theorem runs_serialized {y : RunSystem} (h : (sharedRun host runId).Reached .absent y)
    (hl : y.late = []) : Reachable host
      ⟨runId, y.state, Shared.history y.processes y.lease.tenures⟩ := by
  have ho := h.orderly (sharedRun_lawful host runId)
  exact reachable_of_serial ho (ho.serial hl)

/-- While one process runs a task, another asks for the lease and is refused it. -/
theorem task_serialized :
    ∃ y : RunSystem, (sharedRun sampleHost sampleWorld.runId).Reached .absent y ∧
      (∃ p, y.processes 1 = some p ∧
        .answered (.acquireRun sampleWorld.runId) (.error runBusy) ∈ p.log) ∧
      (∃ s, y.state = .snapshot s) ∧ Reachable sampleHost
        ⟨sampleWorld.runId, y.state, Shared.history y.processes y.lease.tenures⟩ := by
  let op : Operation := .runTask samplePath (text "work") (text "Go") [] none
  let asking : Operation := .resume sampleWorld.runId false
  have hs := creatingScript.session_steps workingApplication op sampleWorld
  have hnext : nextUse sampleWorld.runId ((op.program workingApplication).exec
      (creatingScript.answer sampleHost) (sampleWorld.begin workingApplication.config)).1 =
      some .write := by decide +kernel
  have hask : nextUse sampleWorld.runId (asking.program workingApplication) = some .take := by
    decide +kernel
  have hanswer (w : World) (c : Call) (r : Except PyError (Val c)) (w' : World)
      (hr : (sampleScript singlePlan ["task"]).answer sampleHost w c = some (r, w')) :
      Next sampleHost w c r w' := Script.answer_next _ _ hr
  obtain ⟨q, w₂, hs', hstored⟩ : ∃ q w₂, Prog.Steps (Next sampleHost)
      ((op.program workingApplication).exec (creatingScript.answer sampleHost)
        (sampleWorld.begin workingApplication.config)).1
      ((op.program workingApplication).exec (creatingScript.answer sampleHost)
        (sampleWorld.begin workingApplication.config)).2 q w₂ ∧ w₂.dir.status?.isSome = true :=
    ⟨_, _, Prog.exec_steps hanswer _ _, by decide +kernel⟩
  obtain ⟨c, k, hq, hc⟩ := nextUse_eq_write hnext
  obtain ⟨k', hk'⟩ := nextUse_eq_take hask
  rw [hq] at hs hs'
  have hon : op.On sampleWorld.runId := .inl rfl
  have honly : asking.On sampleWorld.runId := rfl
  obtain ⟨y, h, hd, hlate, hrefused⟩ := contended_session_reached workingApplication
    workingApplication hon honly hs hc hk' hs' runBusy
  refine ⟨y, h, hrefused, ?_, runs_serialized h hlate⟩
  rw [hd]
  generalize w₂.dir = dir at hstored
  cases dir with
  | snapshot s => exact ⟨s, rfl⟩
  | absent | empty => cases hstored

end GoalRouter
