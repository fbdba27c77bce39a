import Mathlib.Data.List.Infix
import GoalRouter.ScriptedWorld
import GoalRouter.StoreCalls

namespace GoalRouter
open Library
set_option autoImplicit true

variable {host : Host}

/-- The item of a turn that is classified as a writer. -/
def Turn.writer? (t : Turn) : Option WorkItem :=
  match t.subject with
  | .item item => if item.access = .workspaceWrite then some item else none
  | _ => none

/-- A writer's turn whose result is not persisted, and how it ended if it has. -/
structure PendingWriter where
  turn : Turn
  item : WorkItem
  outcome : Option Outcome

namespace PendingWriter

/-- The state holds the result that the turn left behind. -/
def isPersistedBy (p : PendingWriter) (s : RunState) : Bool :=
  match p.outcome with
  | some outcome => s.results.get? p.item.id = some (readerResult p.item outcome)
  | none => false

def ends (t : Turn) (outcome : Outcome) (p : PendingWriter) : PendingWriter :=
  if p.turn = t then { p with outcome := some outcome } else p

/-- The turns in flight when no other turn is. -/
def inFlight (p : PendingWriter) : List Turn :=
  match p.outcome with
  | some _ => []
  | none => [p.turn]

end PendingWriter

/-- The project lease that the process holds which began last. -/
def heldProject : List Event → Option PurePath
  | .answered (.acquireProject path) (.ok _) :: _ => some path
  | .answered (.releaseProject _) _ :: _ | .began _ :: _ => none
  | _ :: log => heldProject log
  | [] => none

/-- The turns that it has started and that have not ended. -/
def inFlight : List Event → List Turn
  | .answered (.startTurn t) _ :: log => inFlight log ++ [t]
  | .answered (.awaitTurn _ _) (.ok (t, _)) :: log => (inFlight log).erase t
  | .began _ :: _ => []
  | _ :: log => inFlight log
  | [] => []

/-- The writers' turns that it has started and whose result it has not persisted. -/
def pendingWriters : List Event → List PendingWriter
  | .answered (.startTurn t) _ :: log =>
    match t.writer? with
    | some item => ⟨t, item, none⟩ :: pendingWriters log
    | none => pendingWriters log
  | .answered (.awaitTurn _ _) (.ok (t, outcome)) :: log =>
    (pendingWriters log).map (.ends t outcome)
  | .answered (.save s) (.ok _) :: log =>
    (pendingWriters log).filter fun p => !p.isPersistedBy s
  | .began _ :: _ => []
  | _ :: log => pendingWriters log
  | [] => []

/-- The project lease was released, and after that nothing was done but release the run's. -/
def LeaseReturned : List Event → Prop
  | .answered (.releaseRun _) _ :: log => LeaseReturned log
  | .answered (.releaseProject _) _ :: _ => True
  | _ => False

/-- From the start of a writer's turn until its result is persisted the process holds the lease of
the turn's project and no other turn is in flight, unless it gives the operation up. -/
def Exclusive (log : List Event) : Prop :=
  ∀ p ∈ pendingWriters log,
    (heldProject log = some p.turn.projectPath ∧ inFlight log = p.inFlight) ∨
      (inFlight log = [] ∧ LeaseReturned log)

/-- What the process holds, which turns are in flight, and whose result is not persisted. -/
structure Stands (held : Option PurePath) (turns : List Turn) (pending : List PendingWriter)
    (w : World) : Prop where
  held_eq : heldProject w.log = held
  inFlight_eq : inFlight w.log = turns
  pending_eq : pendingWriters w.log = pending

abbrev Idle : World → Prop := Stands none [] []

/-- The operation was given up, and no turn is in flight. -/
def Over (w : World) : Prop := inFlight w.log = [] ∧ LeaseReturned w.log

/-- Calls that have nothing to do with leases of the project or with turns. -/
def Call.isOutside : Call → Bool
  | .acquireProject _ | .releaseProject _ | .startTurn _ | .awaitTurn _ _ => false
  | _ => true

section Standing

variable {held : Option PurePath} {turns : List Turn} {pending : List PendingWriter}
  {w w' : World} {c : Call}

theorem Stands.exclusive (h : Stands held turns pending w)
    (hp : ∀ p ∈ pending, held = some p.turn.projectPath ∧ turns = p.inFlight) :
    Exclusive w.log := by
  intro p hm
  rw [h.pending_eq] at hm
  rw [h.held_eq, h.inFlight_eq]
  exact .inl (hp p hm)

theorem Over.exclusive (h : Over w) : Exclusive w.log := fun _ _ => .inr h

theorem Stands.push (h : Stands held turns pending w) (hc : c.isOutside = true)
    (hs : ∀ s, c = .save s → ∀ p ∈ pending, p.isPersistedBy s = false)
    (r : Except PyError (Val c)) : Stands held turns pending (w.push c r) := by
  obtain ⟨hh, hf, hp⟩ := h
  cases c with
  | acquireProject | releaseProject | startTurn | awaitTurn => cases hc
  | save s =>
    cases r with
    | error e => exact ⟨hh, hf, hp⟩
    | ok v =>
      refine ⟨hh, hf, ?_⟩
      change (pendingWriters w.log).filter _ = pending
      rw [hp, List.filter_eq_self]
      intro p hm
      rw [hs s rfl p hm]
      rfl
  | _ => exact ⟨hh, hf, hp⟩

theorem Stands.land (h : Stands held turns pending w) (s : RunState) :
    Stands held turns pending (w.land s) :=
  ⟨h.held_eq, h.inFlight_eq, h.pending_eq⟩

theorem Stands.next (h : Stands held turns pending w) (hc : c.isOutside = true)
    (hs : ∀ s, c = .save s → ∀ p ∈ pending, p.isPersistedBy s = false)
    (hn : Next host w c r w') : Stands held turns pending w' := by
  cases hn with
  | created | saved => exact (h.land _).push hc hs _
  | createdPartly =>
    have hdir : Stands held turns pending { w with dir := .empty } :=
      ⟨h.held_eq, h.inFlight_eq, h.pending_eq⟩
    exact hdir.push hc hs _
  | _ => exact h.push hc hs _

theorem Stands.outside (h : Stands held turns [] w) (hc : c.isOutside = true)
    (hn : Next host w c r w') : Stands held turns [] w' :=
  h.next hc (fun _ _ _ hp => absurd hp List.not_mem_nil) hn

theorem Stands.quiet_exclusive (h : Stands held turns [] w) : Exclusive w.log :=
  h.exclusive fun _ hp => absurd hp List.not_mem_nil

end Standing

/-- Run from `w`, the program keeps writers exclusive, ends with `Q`, and raises when idle or having
given up. -/
abbrev Serializes (host : Host) (Q : α → World → Prop) (p : Program α) (w : World) : Prop :=
  p.Safe (Next host) (fun w => Exclusive w.log) Q (fun _ w => Idle w ∨ Over w) w

/-- A program that makes no call about a lease of the project or a turn. -/
abbrev Outside (p : Program α) : Prop := p.Only fun c => c.isOutside = true

section Outside

theorem Outside.stands {p : Program α} (h : Outside p) (hw : Stands held turns [] w) :
    p.Safe (Next host) (fun w => Exclusive w.log) (fun _ => Stands held turns [])
      (fun _ => Stands held turns []) w := by
  have hstep (w : World) (c : Call) (a : Except PyError (Val c)) (w' : World)
      (hc : c.isOutside = true)
      (hn : Next host w c a w') (hw : Stands held turns [] w) : Stands held turns [] w' :=
    hw.outside hc hn
  have hsafe := h.safe hstep hw
  exact hsafe.weaken fun _ hw => hw.quiet_exclusive

theorem Stores.outside {p : Program α} (h : Stores p) : Outside p := by
  apply Prog.Only.mono h
  intro c hc
  cases c <;> first | rfl | cases hc

theorem Outside.serializes {p : Program α} (h : Outside p) (hw : Idle w) :
    Serializes host (fun _ => Idle) p w :=
  (h.stands hw).mono (fun _ _ hw => hw) fun _ _ hw => .inl hw

end Outside

section Turns

theorem Stands.started (h : Stands held turns pending w) (ht : t.writer? = none) :
    Stands held (turns ++ [t]) pending (w.push (.startTurn t) (.ok ())) := by
  obtain ⟨hh, hf, hp⟩ := h
  refine ⟨hh, congrArg (· ++ [t]) hf, ?_⟩
  change (match t.writer? with | some item => _ | none => pendingWriters w.log) = pending
  rw [ht]
  exact hp

theorem Stands.writerStarted (h : Stands held [] [] w) (ht : t.writer? = some item) :
    Stands held [t] [⟨t, item, none⟩] (w.push (.startTurn t) (.ok ())) := by
  obtain ⟨hh, hf, hp⟩ := h
  refine ⟨hh, congrArg (· ++ [t]) hf, ?_⟩
  change (match t.writer? with
    | some item => PendingWriter.mk t item none :: pendingWriters w.log
    | none => pendingWriters w.log) = _
  rw [ht, hp]

theorem Stands.writerEnded (h : Stands held [t] [⟨t, item, none⟩] w) (outcome : Outcome) :
    Stands held [] [⟨t, item, some outcome⟩]
      (w.push (.awaitTurn b running) (.ok (t, outcome))) := by
  obtain ⟨hh, hf, hp⟩ := h
  refine ⟨hh, (congrArg (·.erase t) hf).trans (List.erase_cons_head t []), ?_⟩
  change (pendingWriters w.log).map _ = _
  rw [hp, List.map_singleton, PendingWriter.ends, if_pos rfl]

theorem Stands.ended (h : Stands held turns [] w) {outcome : Outcome} :
    Stands held (turns.erase t) [] (w.push (.awaitTurn b running) (.ok (t, outcome))) := by
  obtain ⟨hh, hf, hp⟩ := h
  refine ⟨hh, congrArg (·.erase t) hf, ?_⟩
  exact congrArg (List.map (PendingWriter.ends t outcome)) hp

/-- While no writer runs, a wait for a turn ends with one of those in flight. -/
theorem awaitTurn_serializes (h : Stands none turns [] w) :
    (invoke (.awaitTurn false turns)).Safe (Next host) (fun w => Exclusive w.log)
      (fun v w => v.1 ∈ turns ∧ Stands none (turns.erase v.1) [] w) (fun _ _ => False) w := by
  apply Prog.Safe.invoke
  intro r w' hn
  cases hn with
  | raises hc => cases hc
  | awaitTurn hm he => exact ⟨h.ended.quiet_exclusive, hm, h.ended⟩

theorem runTurn_serializes (h : Idle w) (ht : t.writer? = none) :
    Serializes host (fun _ => Idle) (runTurn t) w := by
  apply Prog.Safe.bind (Q := fun _ => Stands none [t] [])
  · apply Prog.Safe.invoke
    intro r w' hn
    cases hn with
    | raises hc => cases hc
    | startTurn => exact ⟨(h.started ht).quiet_exclusive, h.started ht⟩
  intro _ w₁ h₁
  apply Prog.Safe.bind ((awaitTurn_serializes h₁).mono (fun _ _ hw => hw) fun _ _ hw => hw.elim)
  intro v w₂ ⟨hm, h₂⟩
  rw [List.mem_singleton.1 hm, List.erase_cons_head] at h₂
  exact Prog.Safe.ofExcept (fun _ _ => h₂) fun _ _ => .inl h₂

theorem plan_serializes (h : Idle w) (config : RouterConfig) (objective : Objective)
    (repository : RepositoryContext) :
    Serializes host (fun _ => Idle) (plan host config objective repository) w := by
  apply Prog.Safe.bind (Outside.serializes (Prog.Only.invoke rfl) h)
  intro schemaText w₁ h₁
  apply Prog.Safe.bind (Outside.serializes (Prog.Only.ofExcept _) h₁)
  intro route w₂ h₂
  apply Prog.Safe.bind (runTurn_serializes h₂ rfl)
  intro result w₃ h₃
  cases parseAndValidate host config objective.projectPath result.finalResponse with
  | ok items => exact h₃
  | error firstError =>
    simp only
    split
    · cases result.threadId with
      | none => exact .inl h₃
      | some threadId =>
        apply Prog.Safe.bind (runTurn_serializes h₃ rfl)
        intro corrected w₄ h₄
        exact Outside.serializes (Prog.Only.ofExcept _) h₄
    · exact .inl h₃

theorem drain_serializes (n : Nat) {running : Running} (h : Stands none running.turns [] w)
    (hn : running.length = n) (results : Collected) (failed : Bool) :
    Serializes host (fun _ => Idle) (drain n running results failed) w := by
  induction n generalizing w running results failed with
  | zero =>
    rw [List.eq_nil_of_length_eq_zero hn] at h
    exact h
  | succ n ih =>
    apply Prog.Safe.bind ((awaitTurn_serializes h).mono (fun _ _ hw => hw) fun _ _ hw => hw.elim)
    intro v w₁ ⟨hm, h₁⟩
    rw [← Running.remove_turns] at h₁
    exact ih h₁ (Running.length_remove hm hn) _ _

/-- The wait of a task group is the same, and may be interrupted besides. -/
theorem awaitGroup_serializes (h : Stands none turns [] w) :
    (Prog.attempt (invoke (.awaitTurn true turns))).Safe (Next host) (fun w => Exclusive w.log)
      (fun v w => match v with
        | .ok (t, _) => t ∈ turns ∧ Stands none (turns.erase t) [] w
        | .error _ => Stands none turns [] w)
      (fun _ _ => False) w := by
  have hawait : (invoke (.awaitTurn true turns)).Safe (Next host) (fun w => Exclusive w.log)
      (fun v w => v.1 ∈ turns ∧ Stands none (turns.erase v.1) [] w)
      (fun _ => Stands none turns []) w := by
    apply Prog.Safe.invoke
    intro r w' hn
    cases hn with
    | raises hc => cases hc
    | interrupted =>
      have hw : Stands none turns [] (w.push (.awaitTurn true turns) (.error .cancelled)) :=
        ⟨h.held_eq, h.inFlight_eq, h.pending_eq⟩
      exact ⟨hw.quiet_exclusive, hw⟩
    | awaitTurn hm he => exact ⟨h.ended.quiet_exclusive, hm, h.ended⟩
  apply hawait.attempt.mono
  · intro v w hw
    cases v <;> exact hw
  · exact fun _ _ hw => hw

theorem gather_serializes (n : Nat) {running : Running} (h : Stands none running.turns [] w)
    (hn : running.length = n) (results : Collected) :
    Serializes host (fun _ => Idle) (gather n running results) w := by
  induction n generalizing w running results with
  | zero =>
    rw [List.eq_nil_of_length_eq_zero hn] at h
    exact h
  | succ n ih =>
    rw [gather]
    apply Prog.Safe.bind ((awaitGroup_serializes h).mono (fun _ _ hw => hw) fun _ _ hw => hw.elim)
    intro v w₁ h₁
    cases v with
    | error e =>
      apply Prog.Safe.bind (drain_serializes (n + 1) h₁ hn results false)
      intro v w₂ h₂
      obtain ⟨results, failed⟩ := v
      cases failed with
      | true => exact h₂
      | false => exact .inl h₂
    | ok v =>
      obtain ⟨t, outcome⟩ := v
      obtain ⟨hm, h₁⟩ := h₁
      rw [← Running.remove_turns] at h₁
      simp only
      split
      · apply Prog.Safe.bind (drain_serializes n h₁ (Running.length_remove hm hn) _ true)
        exact fun _ _ hw => hw
      · exact ih h₁ (Running.length_remove hm hn) _

end Turns

section Scheduler

theorem dispatchTurn_writer {s : RunState} (h : dispatchTurn host s item = .ok t) :
    t.writer? = (if item.access = .workspaceWrite then some item else none) := by
  rw [Turn.writer?, (dispatchTurn_ok h).2]

theorem dispatchTurn_projectPath {s : RunState} (h : dispatchTurn host s item = .ok t) :
    t.projectPath = s.objective.projectPath := by
  rw [dispatchTurn] at h
  split at h
  · cases h
  · cases h
    rfl

theorem startBatch_serializes {items : List WorkItem} (s : RunState)
    (hi : ∀ item ∈ items, item.access ≠ .workspaceWrite) {running : Running}
    (h : Stands none running.turns [] w) (results : Collected) (failed : Bool) :
    Serializes host (fun v => Stands none v.1.turns [])
      (startBatch host s items running results failed) w := by
  induction items generalizing w running results failed with
  | nil => exact h
  | cons item items ih =>
    have hrest := fun item hm => hi item (List.mem_cons_of_mem _ hm)
    rw [startBatch]
    split
    · exact ih hrest h _ _
    · rename_i t ht
      have hreader : t.writer? = none := by
        rw [dispatchTurn_writer ht, if_neg (hi item List.mem_cons_self)]
      apply Prog.Safe.bind (Q := fun _ => Stands none running.turns [])
      · apply Prog.Safe.invoke
        intro r w' hn
        have hw := h.outside rfl hn
        cases hn with
        | raises hc => cases hc
        | note => exact ⟨hw.quiet_exclusive, hw⟩
      intro _ w₁ h₁
      have hturns : (running ++ [(item, t)]).map Prod.snd = running.turns ++ [t] := by
        rw [List.map_append]
        rfl
      apply Prog.Safe.bind (Q := fun _ => Stands none ((running ++ [(item, t)]).map Prod.snd) [])
      · apply Prog.Safe.invoke
        intro r w' hn
        rw [hturns]
        cases hn with
        | raises hc => cases hc
        | startTurn => exact ⟨(h₁.started hreader).quiet_exclusive, h₁.started hreader⟩
      · exact fun _ w₂ h₂ => ih hrest h₂ _ _

theorem runReadBatch_serializes {items : List WorkItem} (s : RunState)
    (hi : ∀ item ∈ items, item.access ≠ .workspaceWrite) (h : Idle w) :
    Serializes host (fun _ => Idle) (runReadBatch host s items) w := by
  have hstart : Stands none (Running.turns []) [] w := h
  apply Prog.Safe.bind (startBatch_serializes s hi hstart ∅ false)
  intro v w₁ h₁
  obtain ⟨running, results, failed⟩ := v
  cases failed with
  | true =>
    apply Prog.Safe.bind (Q := fun _ => Idle)
    · apply Prog.Safe.bind (drain_serializes _ h₁ rfl results true)
      exact fun _ _ hw => hw
    · exact fun results _ hw => Outside.serializes (mapM_results_only results items) hw
  | false =>
    apply Prog.Safe.bind (gather_serializes _ h₁ rfl results)
    exact fun results _ hw => Outside.serializes (mapM_results_only results items) hw

theorem runReaders_serializes {batch : List WorkItem} (s : RunState)
    (hb : ∀ item ∈ batch, item.access ≠ .workspaceWrite) (h : Idle w) :
    Serializes host (fun _ => Idle) (runReaders host s batch) w := by
  apply Prog.Safe.bind (runReadBatch_serializes _ hb h)
  exact fun results w₁ h₁ => Outside.serializes (persistResults_stores results _).outside h₁

/-- The project lease is held, no turn is in flight, and every writer's turn has ended. -/
def Leased (path : PurePath) (w : World) : Prop :=
  ∃ pending, Stands (some path) [] pending w ∧
    ∀ p ∈ pending, p.turn.projectPath = path ∧ p.outcome.isSome = true

theorem Leased.exclusive (h : Leased path w) : Exclusive w.log := by
  obtain ⟨pending, hs, hp⟩ := h
  apply hs.exclusive
  intro p hm
  obtain ⟨hpath, ho⟩ := hp p hm
  obtain ⟨outcome, ho⟩ := Option.isSome_iff_exists.1 ho
  refine ⟨by rw [hpath], ?_⟩
  rw [PendingWriter.inFlight, ho]

/-- The lease is held and every turn that ended left the result `r`. -/
def Persisting (path : PurePath) (r : WorkResult) (w : World) : Prop :=
  ∃ pending, Stands (some path) [] pending w ∧ ∀ p ∈ pending, p.turn.projectPath = path ∧
    ∃ outcome, p.outcome = some outcome ∧ readerResult p.item outcome = r

theorem Persisting.leased (h : Persisting path r w) : Leased path w := by
  obtain ⟨pending, hs, hp⟩ := h
  refine ⟨pending, hs, fun p hm => ⟨(hp p hm).1, ?_⟩⟩
  obtain ⟨_, outcome, ho, _⟩ := hp p hm
  rw [ho]
  rfl

theorem Stands.leased (h : Stands (some path) [] [] w) : Leased path w :=
  ⟨[], h, fun _ hp => absurd hp List.not_mem_nil⟩

/-- Run from `w`, the program keeps writers exclusive and raises with the lease in its hands. -/
abbrev HoldsLease (host : Host) (path : PurePath) (Q : α → World → Prop) (p : Program α)
    (w : World) : Prop :=
  p.Safe (Next host) (fun w => Exclusive w.log) Q (fun _ => Leased path) w

theorem Outside.holds {p : Program α} (h : Outside p) (hw : Stands (some path) [] [] w) :
    HoldsLease host path (fun _ => Stands (some path) [] []) p w :=
  (h.stands hw).mono (fun _ _ hw => hw) fun _ _ hw => hw.leased

theorem readerResult_workItemId (item : WorkItem) (outcome : Outcome) :
    (readerResult item outcome).workItemId = item.id := by
  cases outcome <;> rfl

theorem Persisting.save_failed (h : Persisting path r w) (s : RunState) (e : PyError) :
    Persisting path r (w.push (.save s) (.error e)) := by
  obtain ⟨pending, hs, hp⟩ := h
  exact ⟨pending, ⟨hs.held_eq, hs.inFlight_eq, hs.pending_eq⟩, hp⟩

theorem Persisting.land (h : Persisting path r w) (s : RunState) :
    Persisting path r (w.land s) := by
  obtain ⟨pending, hs, hp⟩ := h
  exact ⟨pending, hs.land s, hp⟩

theorem Persisting.saved (h : Persisting path r w) (s : RunState) :
    Stands (some path) [] [] (w.push (.save (s.withResult r)) (.ok ())) := by
  obtain ⟨pending, ⟨hh, hf, hpend⟩, hp⟩ := h
  refine ⟨hh, hf, ?_⟩
  change (pendingWriters w.log).filter _ = []
  rw [hpend, List.filter_eq_nil_iff]
  intro p hm
  obtain ⟨_, outcome, ho, hr⟩ := hp p hm
  have hid : r.workItemId = p.item.id := hr ▸ readerResult_workItemId p.item outcome
  have hget : (s.withResult r).results.get? p.item.id = some r := by
    rw [RunState.withResult, Dict.get?_set, if_pos hid.symm]
  have hpersisted : p.isPersistedBy (s.withResult r) = true := by
    simp only [PendingWriter.isPersistedBy, ho]
    rw [hget, hr]
    exact decide_eq_true rfl
  rw [hpersisted]
  decide

theorem persistResult_holds (s : RunState) (h : Persisting path r w) :
    HoldsLease host path (fun _ => Stands (some path) [] []) (persistResult host s r) w := by
  apply Prog.Safe.bind (Q := fun _ => Stands (some path) [] [])
  · apply Prog.Safe.bind (Q := fun _ => Persisting path r)
    · exact Prog.Safe.ofExcept (fun _ _ => h) fun _ _ => h.leased
    intro _ w₁ h₁
    apply Prog.Safe.invoke
    intro x w' hn
    cases hn with
    | raises =>
      rename_i e _
      have hw := (h₁.save_failed (s.withResult r) e).leased
      exact ⟨hw.exclusive, hw⟩
    | saved _ _ ha =>
      rcases ha with rfl | rfl
      · have hw := (h₁.land (s.withResult r)).saved s
        exact ⟨hw.quiet_exclusive, hw⟩
      · have hw := ((h₁.land (s.withResult r)).save_failed (s.withResult r) .cancelled).leased
        exact ⟨hw.exclusive, hw⟩
  intro _ w₁ h₁
  have hrest : Outside (do
      let timestamp ← invoke .now
      appendEvent host (s.withResult r).runId {
        timestamp
        event := text "work-item-finished"
        workItemId := some r.workItemId
        details := [(text "status", enumText r.status)] }
      pure (s.withResult r) : Program RunState) := by
    apply Prog.Only.bind
    · exact Prog.Only.invoke rfl
    intro timestamp
    apply (appendEvent_records _ _).stores.outside.bind
    exact fun _ => trivial
  exact hrest.holds h₁

/-- A writer's turn is started and awaited alone, under the lease of its project. -/
theorem runOne_holds {s : RunState} (hw : item.access = .workspaceWrite)
    (h : Stands (some s.objective.projectPath) [] [] w) :
    HoldsLease host s.objective.projectPath (Persisting s.objective.projectPath)
      (runOne host s item) w := by
  rw [runOne]
  cases ht : dispatchTurn host s item with
  | error e => exact ⟨[], h, fun _ hp => absurd hp List.not_mem_nil⟩
  | ok t =>
    have hpath := dispatchTurn_projectPath ht
    have hwriter : t.writer? = some item := by rw [dispatchTurn_writer ht, if_pos hw]
    apply Prog.Safe.bind (Outside.holds (Prog.Only.invoke rfl) h)
    intro _ w₁ h₁
    let started : PendingWriter := ⟨t, item, none⟩
    apply Prog.Safe.bind (Q := fun _ => Stands (some s.objective.projectPath) [t] [started])
    · apply Prog.Safe.invoke
      intro r w' hn
      cases hn with
      | raises hc => cases hc
      | startTurn =>
        have hs := h₁.writerStarted hwriter
        exact ⟨hs.exclusive (List.forall_mem_singleton.2 ⟨congrArg some hpath.symm, rfl⟩), hs⟩
    intro _ w₂ h₂
    apply Prog.Safe.bind (Q := fun v => Stands (some s.objective.projectPath) []
      [⟨t, item, some v.2⟩])
    · apply Prog.Safe.invoke
      intro r w' hn
      cases hn with
      | raises hc => cases hc
      | awaitTurn hm he =>
        cases List.mem_singleton.1 hm
        refine ⟨(h₂.writerEnded _).exclusive ?_, h₂.writerEnded _⟩
        exact List.forall_mem_singleton.2 ⟨congrArg some hpath.symm, rfl⟩
    intro v w₃ h₃
    obtain ⟨_, outcome⟩ := v
    have hleft : Persisting s.objective.projectPath (readerResult item outcome) w₃ :=
      ⟨_, h₃, List.forall_mem_singleton.2 ⟨hpath, outcome, rfl, rfl⟩⟩
    cases outcome with
    | ok r => exact hleft
    | error e =>
      simp only
      split
      · exact hleft.leased
      · rename_i hc
        rw [readerResult, if_neg hc] at hleft
        exact hleft

theorem writerBody_holds {s : RunState} (hw : item.access = .workspaceWrite)
    (h : Stands (some s.objective.projectPath) [] [] w) :
    HoldsLease host s.objective.projectPath
      (fun _ => Stands (some s.objective.projectPath) [] []) (writerBody host s item) w := by
  apply Prog.Safe.bind (Outside.holds (Prog.Only.ofExcept _) h)
  intro _ w₁ h₁
  apply Prog.Safe.bind (Outside.holds (Prog.Only.invoke rfl) h₁)
  intro _ w₂ h₂
  let running := { s with status := .running }
  have hone : HoldsLease host s.objective.projectPath (Persisting s.objective.projectPath)
      (runOne host running item) w₂ := runOne_holds (s := running) hw h₂
  exact hone.bind fun r w₃ h₃ => persistResult_holds _ h₃

/-- The lease is given back, whether or not every result was persisted. -/
theorem releaseProject_serializes (h : Leased path w) :
    (invoke (.releaseProject path')).Safe (Next host) (fun w => Exclusive w.log)
      (fun _ w => Idle w ∨ Over w) (fun _ w => Idle w ∨ Over w) w := by
  obtain ⟨pending, ⟨_, hf, _⟩, _⟩ := h
  have hover (r : Except PyError Unit) : Over (w.push (.releaseProject path') r) := ⟨hf, trivial⟩
  apply Prog.Safe.invoke
  intro r w' hn
  cases hn with
  | raises => exact ⟨(hover _).exclusive, .inr (hover _)⟩
  | releaseProject => exact ⟨(hover _).exclusive, .inr (hover _)⟩

theorem releaseProject_idle (h : Stands (some path) [] [] w) :
    Serializes host (fun _ => Idle) (invoke (.releaseProject path')) w := by
  obtain ⟨_, hf, hp⟩ := h
  have hidle (r : Except PyError Unit) : Idle (w.push (.releaseProject path') r) := ⟨rfl, hf, hp⟩
  apply Prog.Safe.invoke
  intro r w' hn
  cases hn with
  | raises => exact ⟨(hidle _).quiet_exclusive, .inl (hidle _)⟩
  | releaseProject => exact ⟨(hidle _).quiet_exclusive, hidle _⟩

theorem acquireProject_serializes (h : Idle w) :
    Serializes host (fun _ => Stands (some path) [] []) (invoke (.acquireProject path)) w := by
  obtain ⟨hh, hf, hp⟩ := h
  apply Prog.Safe.invoke
  intro r w' hn
  cases hn with
  | raises =>
    rename_i e _
    have hw : Idle (w.push (.acquireProject path) (.error e)) := ⟨hh, hf, hp⟩
    exact ⟨hw.quiet_exclusive, .inl hw⟩
  | acquireProject =>
    have hw : Stands (some path) [] [] (w.push (.acquireProject path) (.ok ())) := ⟨rfl, hf, hp⟩
    exact ⟨hw.quiet_exclusive, hw⟩

theorem leasedWriter_serializes (s : RunState) (hw : item.access = .workspaceWrite) (h : Idle w) :
    Serializes host (fun _ => Idle) (do
      invoke (.acquireProject s.objective.projectPath)
      (writerBody host s item).ensure (invoke (.releaseProject s.objective.projectPath))) w := by
  apply Prog.Safe.bind (acquireProject_serializes h)
  intro _ w₁ h₁
  apply (writerBody_holds hw h₁).ensure
  · exact fun s w₂ h₂ => releaseProject_idle h₂
  · exact fun e w₂ h₂ => releaseProject_serializes h₂

theorem runWriter_serializes (s : RunState) (hw : item.access = .workspaceWrite) (h : Idle w) :
    Serializes host (fun _ => Idle) (runWriter host s item) w := by
  rw [runWriter]
  split
  · simp only [bind_assoc, pure_bind]
    apply Prog.Safe.bind (Outside.serializes (saveRun_stores _).outside h)
    exact fun _ w₁ h₁ => leasedWriter_serializes { s with status := .planned } hw h₁
  · exact leasedWriter_serializes s hw h

theorem runLoop_serializes (bound n : Nat) (s : RunState) (h : Idle w) :
    Serializes host (fun _ => Idle) (runLoop host bound n s) w := by
  induction n generalizing w s with
  | zero => exact h
  | succ n ih =>
    apply Prog.Safe.bind (Outside.serializes (Prog.Only.invoke rfl) h)
    intro _ w₁ h₁
    apply Prog.Safe.bind
      (Outside.serializes (persistBlocked_stores _ _).outside h₁)
    intro s w₂ h₂
    simp only
    split
    · exact h₂
    apply Prog.Safe.bind (Outside.serializes (forM_validated_records s _).stores.outside h₂)
    intro _ w₃ h₃
    split
    · rename_i item hf
      have hwriter : item.access = .workspaceWrite := by simpa using List.find?_some hf
      apply Prog.Safe.bind (runWriter_serializes s hwriter h₃)
      exact fun s w₄ h₄ => ih s h₄
    · rename_i hf
      have hreaders (item : WorkItem) (hm : item ∈ (s.dispatchable host).take bound) :
          item.access ≠ .workspaceWrite := by
        have hn := List.find?_eq_none.1 hf item (List.mem_of_mem_take hm)
        simpa using hn
      apply Prog.Safe.bind (runReaders_serializes s hreaders h₃)
      exact fun s w₄ h₄ => ih s h₄

theorem runReady_serializes (bound : Nat) (s : RunState) (h : Idle w) :
    Serializes host (fun _ => Idle) (runReady host bound s) w := by
  apply Prog.Safe.bind (runLoop_serializes bound _ s h)
  exact fun s w₁ h₁ => Outside.serializes (conclude_stores s).outside h₁

end Scheduler

section Operations

variable {app : Application host}

/-- Under the run lease a program ends as it does without. -/
theorem withRunLease_serializes {body : Program α}
    (hb : ∀ w, Idle w → Serializes host (fun _ => Idle) body w) (rid : Text) (h : Idle w) :
    Serializes host (fun _ => Idle) (withRunLease host rid body) w := by
  apply Prog.Safe.bind (Outside.serializes (Prog.Only.ofExcept _) h)
  intro _ w₁ h₁
  apply Prog.Safe.bind (Outside.serializes (Prog.Only.invoke rfl) h₁)
  intro _ w₂ h₂
  apply (hb w₂ h₂).ensure
  · exact fun a w₃ h₃ => (Outside.serializes (Prog.Only.invoke rfl) h₃).mono (fun _ _ hw => hw)
      fun _ _ hw => hw
  intro e w₃ h₃
  rcases h₃ with h₃ | h₃
  · exact (Outside.serializes (Prog.Only.invoke rfl) h₃).mono (fun _ _ hw => .inl hw)
      fun _ _ hw => hw
  · have hover (r : Except PyError Unit) : Over (w₃.push (.releaseRun rid) r) := h₃
    apply Prog.Safe.invoke
    intro r w' hn
    cases hn with
    | raises => exact ⟨(hover _).exclusive, .inr (hover _)⟩
    | releaseRun => exact ⟨(hover _).exclusive, .inr (hover _)⟩

theorem planObjectiveUnlocked_serializes (path : PurePath) (prompt rid : Text) (h : Idle w) :
    Serializes host (fun _ => Idle) (app.planObjectiveUnlocked path prompt rid) w := by
  apply Prog.Safe.bind (Outside.serializes (Prog.Only.invoke rfl) h)
  intro repository w₁ h₁
  apply Prog.Safe.bind (Outside.serializes (validateModelInventory_records app).stores.outside h₁)
  intro _ w₂ h₂
  apply Prog.Safe.bind (Outside.serializes (objectiveOf_records app _ _ _ _).stores.outside h₂)
  intro objective w₃ h₃
  apply Prog.Safe.bind (plan_serializes h₃ _ _ _)
  intro items w₄ h₄
  split
  · exact .inl h₄
  apply Prog.Safe.bind (Outside.serializes (Prog.Only.ofExcept _) h₄)
  intro routes w₅ h₅
  apply Prog.Safe.bind (Outside.serializes (createRun_stores _).outside h₅)
  intro _ w₆ h₆
  apply Prog.Safe.bind (Outside.serializes (recordEvent_records _ _ _ _).stores.outside h₆)
  exact fun _ _ hw => hw

theorem runTaskUnlocked_serializes (path : PurePath) (task prompt : Text) (paths : List PurePath)
    (rid : Text) (h : Idle w) :
    Serializes host (fun _ => Idle) (app.runTaskUnlocked path task prompt paths rid) w := by
  apply Prog.Safe.bind (Outside.serializes (Prog.Only.invoke rfl) h)
  intro repository w₁ h₁
  apply Prog.Safe.bind (Outside.serializes (validateModelInventory_records app).stores.outside h₁)
  intro _ w₂ h₂
  apply Prog.Safe.bind (Outside.serializes (Prog.Only.ofExcept _) h₂)
  intro v w₃ h₃
  apply Prog.Safe.bind (Outside.serializes (objectiveOf_records app _ _ _ _).stores.outside h₃)
  intro objective w₄ h₄
  apply Prog.Safe.bind (Outside.serializes (createRun_stores _).outside h₄)
  intro _ w₅ h₅
  apply Prog.Safe.bind (Outside.serializes (recordEvent_records _ _ _ _).stores.outside h₅)
  intro _ w₆ h₆
  apply Prog.Safe.bind (runReady_serializes _ _ h₆)
  intro s w₇ h₇
  exact Outside.serializes ((writeReport_stores _).outside.bind fun _ => trivial) h₇

theorem reviewCompletion_serializes (s : RunState) (h : Idle w) :
    Serializes host (fun _ => Idle) (app.reviewCompletion s) w := by
  have hrun (s : RunState) (w : World) (hw : Idle w) :
      Serializes host (fun _ => Idle) (if s.results.contains completionId then pure s
        else runReady host app.maxReadConcurrency s) w := by
    split
    · exact hw
    · exact runReady_serializes _ _ hw
  rw [Application.reviewCompletion]
  split
  · exact hrun s w h
  · apply Prog.Safe.bind (Outside.serializes (appendCompletion_stores app s).outside h)
    exact fun s w₁ h₁ => hrun s w₁ h₁

theorem continueRun_serializes (s : RunState) (h : Idle w) :
    Serializes host (fun _ => Idle) (app.continueRun s) w := by
  apply Prog.Safe.bind (runReady_serializes _ _ h)
  intro s w₁ h₁
  have hreport (s : RunState) (w : World) (hw : Idle w) :
      Serializes host (fun _ => Idle) (do let _ ← writeReport host s; pure s) w :=
    Outside.serializes ((writeReport_stores s).outside.bind fun _ => trivial) hw
  simp only
  split
  · apply Prog.Safe.bind (reviewCompletion_serializes s h₁)
    exact fun s w₂ h₂ => hreport s w₂ h₂
  · exact hreport s w₁ h₁

theorem resumeUnlocked_serializes (rid : Text) (acknowledge : Bool) (h : Idle w) :
    Serializes host (fun _ => Idle) (app.resumeUnlocked rid acknowledge) w := by
  apply Prog.Safe.bind (Outside.serializes (loadRun_stores _ _ _).outside h)
  intro s w₁ h₁
  apply Prog.Safe.bind (Outside.serializes (acknowledgeChange_stores app s).outside h₁)
  intro s w₂ h₂
  apply Prog.Safe.bind (Outside.serializes (validateModelInventory_records app).stores.outside h₂)
  exact fun _ w₃ h₃ => continueRun_serializes s h₃

theorem selected_serializes {body : Text → Program α}
    (hb : ∀ rid w, Idle w → Serializes host (fun _ => Idle) (body rid) w) (rid : Option Text)
    (h : Idle w) :
    Serializes host (fun _ => Idle) (do
      let selected ← selectRunId rid
      withRunLease host selected (body selected)) w := by
  apply Prog.Safe.bind (Outside.serializes (selectRunId_records rid).stores.outside h)
  exact fun selected w₁ h₁ => withRunLease_serializes (hb selected) selected h₁

theorem Operation.serializes (op : Operation) (h : Idle w) :
    Serializes host (fun _ => Idle) (op.program app) w := by
  cases op with
  | models => exact Outside.serializes ((models_records app).stores.outside.bind fun _ => trivial) h
  | routeTask task prompt paths =>
    have hroute := (routeTask_records app task prompt paths).stores.outside
    exact Outside.serializes (hroute.bind fun _ => trivial) h
  | planObjective path prompt rid =>
    apply Prog.Safe.bind (selected_serializes (fun rid _ hw =>
      planObjectiveUnlocked_serializes path prompt rid hw) rid h)
    exact fun _ _ hw => hw
  | runTask path task prompt paths rid =>
    apply Prog.Safe.bind (selected_serializes (fun rid _ hw =>
      runTaskUnlocked_serializes path task prompt paths rid hw) rid h)
    exact fun _ _ hw => hw
  | runObjective path prompt rid =>
    apply Prog.Safe.bind (selected_serializes (fun rid _ hw =>
      (planObjectiveUnlocked_serializes path prompt rid hw).bind
        fun s _ hw => continueRun_serializes s hw) rid h)
    exact fun _ _ hw => hw
  | approve rid item approvedBy =>
    apply Prog.Safe.bind (withRunLease_serializes (fun _ hw =>
      Outside.serializes (approveUnlocked_stores app rid item approvedBy).outside hw) rid h)
    exact fun _ _ hw => hw
  | resume rid acknowledge =>
    apply Prog.Safe.bind (withRunLease_serializes (fun _ hw =>
      resumeUnlocked_serializes rid acknowledge hw) rid h)
    exact fun _ _ hw => hw
  | status rid =>
    apply Prog.Safe.bind (Outside.serializes (loadRun_stores rid none false).outside h)
    exact fun _ _ hw => hw
  | report rid =>
    apply Prog.Safe.bind (withRunLease_serializes (fun _ hw =>
      Outside.serializes (report_stores rid).outside hw) rid h)
    exact fun _ _ hw => hw

theorem World.begin_idle (w : World) (config : RouterConfig) : Idle (w.begin config) :=
  ⟨rfl, rfl, rfl⟩

/-- At every point of every run, a writer whose result is not persisted has the lease of its
project and no other turn beside it, unless its operation has been given up. -/
theorem writers_serialized (h : Reachable host w) : Exclusive w.log := by
  cases h with
  | initial => exact fun p hp => absurd hp List.not_mem_nil
  | @session w₀ _ _ app op hw hs =>
    have hidle := World.begin_idle w₀ app.config
    exact ((Operation.serializes op hidle).steps hidle.quiet_exclusive hs).1

end Operations

section Sample

/-- The sample application whose work may write. -/
def workingApplication : Application sampleHost :=
  sampleApplication .automatic .automatic .workspaceWrite (by decide +kernel)

/-- A turn of an item that may write has just been started without the lease of its project. -/
def startsUnleased : List Event → Bool
  | .answered (.startTurn t) _ :: log =>
    match t.subject with
    | .item _ =>
      decide (t.route.sandbox = .workspaceWrite) && decide (heldProject log ≠ some t.projectPath)
    | _ => false
  | _ => false

/-- An item that only asks to read is started on a route that may write, and without the lease. -/
theorem write_capable_unleased :
    ¬∀ (host : Host) (w : World), Reachable host w → ∀ later t r earlier item,
      w.log = later ++ .answered (.startTurn t) r :: earlier → t.subject = .item item →
      t.route.sandbox = .workspaceWrite → heldProject earlier = some t.projectPath := by
  intro h
  have hw := (sampleScript singlePlan ["a"]).session_reachable workingApplication
    (.runObjective samplePath (text "Go") none) sampleWorld_reachable
  have hany : ((sampleScript singlePlan ["a"]).session workingApplication
      (.runObjective samplePath (text "Go") none) sampleWorld).log.tails.any startsUnleased =
        true := by
    decide +kernel
  obtain ⟨log, hm, hs⟩ := List.any_eq_true.1 hany
  obtain ⟨later, hl⟩ := (List.mem_tails _ _).1 hm
  rw [startsUnleased.eq_def] at hs
  split at hs
  · rename_i t r earlier
    cases ht : t.subject with
    | item item =>
      rw [ht] at hs
      obtain ⟨hsandbox, hheld⟩ := Bool.and_eq_true_iff.1 hs
      exact of_decide_eq_true hheld
        (h sampleHost _ hw later t r earlier item hl.symm ht (of_decide_eq_true hsandbox))
    | _ =>
      rw [ht] at hs
      cases hs
  · cases hs

/-- The process dies while it waits for its first writer. -/
def interruptedScript : Script :=
  { sampleScript singlePlan ["a"] with
    dies := fun _ c => match c with | .awaitTurn _ _ => true | _ => false }

theorem task_writer_serialized :
    let log := (interruptedScript.session workingApplication
      (.runTask samplePath (text "work") (text "Go") [] none) sampleWorld).log
    (pendingWriters log).length = 1 ∧ Exclusive log := by
  have hw := interruptedScript.session_reachable workingApplication
    (.runTask samplePath (text "work") (text "Go") [] none) sampleWorld_reachable
  exact ⟨by decide +kernel, writers_serialized hw⟩

end Sample

end GoalRouter
