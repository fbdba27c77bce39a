import GoalRouter.ContentionStatus
import GoalRouter.WriterExclusion

namespace GoalRouter
open Library
set_option autoImplicit true

variable {host : Host} {bound : Nat}

/-- The turns that the process which began last has started, newest first. -/
def startedTurns : List Event → List Turn
  | .answered (.startTurn t) _ :: log => t :: startedTurns log
  | .began _ :: _ => []
  | _ :: log => startedTurns log
  | [] => []

/-- The turns whose end it has waited for. -/
def endedTurns : List Event → List Turn
  | .answered (.awaitTurn _ _) (.ok (t, _)) :: log => t :: endedTurns log
  | .began _ :: _ => []
  | _ :: log => endedTurns log
  | [] => []

/-- Turns that may be in flight together: one alone, or readers' turns of different items. -/
def Concurrent (bound : Nat) (turns : List Turn) : Prop :=
  turns.length ≤ 1 ∨ turns.length ≤ bound ∧ ∃ items : List WorkItem,
    turns.map Turn.subject = items.map .item ∧ (items.map WorkItem.id).Nodup ∧
      ∀ item ∈ items, item.access = .readOnly

/-- No more turns are in flight than may be, and every turn started has ended or is in flight. -/
structure Supervised (bound : Nat) (log : List Event) : Prop where
  concurrent : Concurrent bound (inFlight log)
  accounted : (endedTurns log ++ inFlight log).Perm (startedTurns log)

/-- Just these turns are in flight, and every other turn started has ended. -/
structure InFlight (turns : List Turn) (w : World) : Prop where
  inFlight_eq : inFlight w.log = turns
  accounted : (endedTurns w.log ++ turns).Perm (startedTurns w.log)

theorem InFlight.supervised (h : InFlight turns w) (hc : Concurrent bound turns) :
    Supervised bound w.log := by
  obtain ⟨rfl, ha⟩ := h
  exact ⟨hc, ha⟩

theorem concurrent_nil : Concurrent bound [] := .inl (Nat.zero_le 1)

theorem concurrent_singleton (t : Turn) : Concurrent bound [t] := .inl (Nat.le_refl 1)

/-- Calls that neither start a turn nor wait for one. -/
def Call.isTurnFree : Call → Bool
  | .startTurn _ | .awaitTurn _ _ => false
  | _ => true

/-- A program that makes no call about a turn. -/
abbrev TurnFree (p : Program α) : Prop := p.Only fun c => c.isTurnFree = true

theorem Outside.turnFree {p : Program α} (h : Outside p) : TurnFree p := by
  apply h.mono
  intro c hc
  cases c with
  | acquireProject | releaseProject | startTurn | awaitTurn => cases hc
  | _ => rfl

section Standing

variable {turns : List Turn} {w w' : World}

theorem InFlight.push (h : InFlight turns w) (hc : c.isTurnFree = true)
    (r : Except PyError (Val c)) : InFlight turns (w.push c r) := by
  cases c with
  | startTurn | awaitTurn => cases hc
  | _ => exact ⟨h.inFlight_eq, h.accounted⟩

theorem InFlight.land (h : InFlight turns w) (s : RunState) : InFlight turns (w.land s) :=
  ⟨h.inFlight_eq, h.accounted⟩

theorem InFlight.next (h : InFlight turns w) (hc : c.isTurnFree = true)
    (hn : Next host w c r w') : InFlight turns w' := by
  cases hn with
  | created | saved => exact (h.land _).push hc _
  | createdPartly =>
    have hdir : InFlight turns { w with dir := .empty } := ⟨h.inFlight_eq, h.accounted⟩
    exact hdir.push hc _
  | _ => exact h.push hc _

theorem InFlight.started (h : InFlight turns w) (t : Turn) :
    InFlight (turns ++ [t]) (w.push (.startTurn t) (.ok ())) where
  inFlight_eq := congrArg (· ++ [t]) h.inFlight_eq
  accounted := by
    have hl := List.perm_append_singleton t (endedTurns w.log ++ turns)
    rw [List.append_assoc] at hl
    exact hl.trans (h.accounted.cons t)

theorem InFlight.ended (h : InFlight turns w) (hm : t ∈ turns) (b : Bool) (running : List Turn)
    (outcome : Outcome) :
    InFlight (turns.erase t) (w.push (.awaitTurn b running) (.ok (t, outcome))) where
  inFlight_eq := congrArg (·.erase t) h.inFlight_eq
  accounted := by
    have hp : (t :: endedTurns w.log ++ turns.erase t).Perm (endedTurns w.log ++ turns) :=
      List.perm_middle.symm.trans ((List.perm_cons_erase hm).symm.append_left _)
    exact hp.trans h.accounted

theorem InFlight.interrupted (h : InFlight turns w) (b : Bool) (running : List Turn)
    (e : PyError) : InFlight turns (w.push (.awaitTurn b running) (.error e)) :=
  ⟨h.inFlight_eq, h.accounted⟩

end Standing

/-- Run from `w`, the program starts no more turns than may be in flight together, ends with `Q`,
and raises when no turn is left in flight. -/
abbrev Supervises (host : Host) (bound : Nat) (Q : α → World → Prop) (p : Program α)
    (w : World) : Prop :=
  p.Safe (Next host) (fun w => Supervised bound w.log) Q (fun _ => InFlight []) w

/-- The program leaves no turn in flight, however it ends. -/
def Joins (host : Host) (bound : Nat) (p : Program α) : Prop :=
  ∀ w, InFlight [] w → Supervises host bound (fun _ => InFlight []) p w

section Joining

theorem TurnFree.safe {p : Program α} (h : TurnFree p) (hc : Concurrent bound turns)
    (hw : InFlight turns w) : p.Safe (Next host) (fun w => Supervised bound w.log)
      (fun _ => InFlight turns) (fun _ => InFlight turns) w := by
  have hstep (w : World) (c : Call) (r : Except PyError (Val c)) (w' : World)
      (hc : c.isTurnFree = true) (hn : Next host w c r w') (hw : InFlight turns w) :
      InFlight turns w' := hw.next hc hn
  have hsafe := Prog.Only.safe h hstep hw
  exact hsafe.weaken fun _ hw => hw.supervised hc

theorem TurnFree.joins {p : Program α} (h : TurnFree p) : Joins host bound p :=
  fun _ hw => h.safe concurrent_nil hw

theorem Joins.bind {p : Program α} {f : α → Program β} (hp : Joins host bound p)
    (hf : ∀ a, Joins host bound (f a)) : Joins host bound (p >>= f) :=
  fun w hw => (hp w hw).bind fun a w' hw' => hf a w' hw'

theorem Joins.ensure {p : Program α} {fin : Program Unit} (hp : Joins host bound p)
    (hf : Joins host bound fin) : Joins host bound (p.ensure fin) := by
  intro w hw
  apply (hp w hw).ensure
  · exact fun _ w' hw' => hf w' hw'
  · exact fun _ w' hw' => hf w' hw'

/-- What a program is known to end with, it ends with when it joins its turns. -/
theorem Joins.along {p : Program α} {I : World → Prop} {R : PyError → World → Prop}
    (hs : Joins host bound p) (hl : p.Safe (Next host) I Q R w) (hw : InFlight [] w) :
    Supervises host bound (fun a w => Q a w ∧ InFlight [] w) p w := by
  have hboth := hl.and (hs w hw)
  apply (hboth.weaken fun _ h => h.2).mono
  · exact fun _ _ h => h
  · exact fun _ _ h => h.2

theorem soloTurn_supervises (t : Turn) (hw : InFlight [] w) :
    Supervises host bound (fun _ => InFlight [t]) (invoke (.startTurn t)) w := by
  apply Prog.Safe.invoke
  intro r w' hn
  cases hn with
  | raises hc => cases hc
  | startTurn => exact ⟨(hw.started t).supervised (concurrent_singleton t), hw.started t⟩

theorem awaitTurn_supervises (he : ∀ t ∈ turns, Concurrent bound (turns.erase t))
    (hw : InFlight turns w) :
    (invoke (.awaitTurn false turns)).Safe (Next host) (fun w => Supervised bound w.log)
      (fun v w => v.1 ∈ turns ∧ InFlight (turns.erase v.1) w) (fun _ _ => False) w := by
  apply Prog.Safe.invoke
  intro r w' hn
  cases hn with
  | raises hc => cases hc
  | awaitTurn hm _ =>
    have hended := hw.ended hm false turns
    exact ⟨(hended _).supervised (he _ hm), hm, hended _⟩

theorem awaitSolo_supervises (t : Turn) (hw : InFlight [t] w) :
    Supervises host bound (fun _ => InFlight []) (invoke (.awaitTurn false [t])) w := by
  have hnil (t' : Turn) (hm : t' ∈ [t]) : Concurrent bound ([t].erase t') := by
    rw [List.mem_singleton.1 hm, List.erase_cons_head]
    exact concurrent_nil
  apply (awaitTurn_supervises hnil hw).mono
  · rintro v w' ⟨hm, hw'⟩
    rw [List.mem_singleton.1 hm, List.erase_cons_head] at hw'
    exact hw'
  · exact fun _ _ h => h.elim

theorem runTurn_joins (t : Turn) : Joins host bound (runTurn t) := by
  intro w hw
  apply (soloTurn_supervises t hw).bind
  intro _ w₁ h₁
  apply (awaitSolo_supervises t h₁).bind
  intro v w₂ h₂
  exact Prog.Safe.ofExcept (fun _ _ => h₂) fun _ _ => h₂

theorem plan_joins (config : RouterConfig) (objective : Objective)
    (repository : RepositoryContext) :
    Joins host bound (plan host config objective repository) := by
  apply Joins.bind (TurnFree.joins (Prog.Only.invoke rfl))
  intro schemaText
  apply Joins.bind (TurnFree.joins (Prog.Only.ofExcept _))
  intro decision
  apply Joins.bind (runTurn_joins _)
  intro result
  cases parseAndValidate host config objective.projectPath result.finalResponse with
  | ok items => exact fun _ hw => hw
  | error firstError =>
    simp only
    split
    · cases result.threadId with
      | none => exact fun _ hw => hw
      | some threadId =>
        apply Joins.bind (runTurn_joins _)
        exact fun corrected => TurnFree.joins (Prog.Only.ofExcept _)
    · exact fun _ hw => hw

end Joining

/-- The turns of a group of readers, no more than the bound and each of an item of its own. -/
structure ReadingTurns (bound : Nat) (running : Running) : Prop where
  bounded : running.length ≤ bound
  subjects : ∀ p ∈ running, p.2.subject = .item p.1
  distinct : (running.map fun p => p.1.id).Nodup
  readers : ∀ p ∈ running, p.1.access = .readOnly

namespace ReadingTurns

theorem nil : ReadingTurns bound [] where
  bounded := Nat.zero_le bound
  subjects _ hm := absurd hm List.not_mem_nil
  distinct := List.nodup_nil
  readers _ hm := absurd hm List.not_mem_nil

theorem sublist {running' : Running} (h : ReadingTurns bound running)
    (hs : running'.Sublist running) : ReadingTurns bound running' where
  bounded := hs.length_le.trans h.bounded
  subjects p hm := h.subjects p (hs.mem hm)
  distinct := h.distinct.sublist (hs.map _)
  readers p hm := h.readers p (hs.mem hm)

theorem remove (h : ReadingTurns bound running) (t : Turn) :
    ReadingTurns bound (running.remove t) :=
  h.sublist List.eraseP_sublist

theorem concurrent (h : ReadingTurns bound running) : Concurrent bound running.turns := by
  refine .inr ⟨?_, running.map Prod.fst, ?_, ?_, ?_⟩
  · rw [Running.turns, List.length_map]
    exact h.bounded
  · rw [Running.turns, List.map_map, List.map_map]
    exact List.map_congr_left h.subjects
  · rw [List.map_map]
    exact h.distinct
  · intro item hm
    obtain ⟨p, hp, rfl⟩ := List.mem_map.1 hm
    exact h.readers p hp

theorem erase (h : ReadingTurns bound running) (t : Turn) :
    Concurrent bound (running.turns.erase t) := by
  rw [← Running.remove_turns]
  exact (h.remove t).concurrent

end ReadingTurns

section Groups

theorem drain_supervises (n : Nat) {running : Running} (hr : ReadingTurns bound running)
    (hn : running.length = n) (results : Collected) (failed : Bool)
    (hw : InFlight running.turns w) :
    Supervises host bound (fun _ => InFlight []) (drain n running results failed) w := by
  induction n generalizing w running results failed with
  | zero =>
    rw [List.eq_nil_of_length_eq_zero hn] at hw
    exact hw
  | succ n ih =>
    apply Prog.Safe.bind ((awaitTurn_supervises (fun t _ => hr.erase t) hw).mono
      (fun _ _ h => h) fun _ _ h => h.elim)
    rintro ⟨t, outcome⟩ w₁ ⟨hm, h₁⟩
    rw [← Running.remove_turns] at h₁
    exact ih (hr.remove t) (Running.length_remove hm hn) _ _ h₁

theorem awaitGroup_supervises (hr : ReadingTurns bound running)
    (hw : InFlight running.turns w) :
    (Prog.attempt (invoke (.awaitTurn true running.turns))).Safe (Next host)
      (fun w => Supervised bound w.log)
      (fun v w => match v with
        | .ok (t, _) => t ∈ running.turns ∧ InFlight (running.turns.erase t) w
        | .error _ => InFlight running.turns w)
      (fun _ _ => False) w := by
  have hawait : (invoke (.awaitTurn true running.turns)).Safe (Next host)
      (fun w => Supervised bound w.log)
      (fun v w => v.1 ∈ running.turns ∧ InFlight (running.turns.erase v.1) w)
      (fun _ => InFlight running.turns) w := by
    apply Prog.Safe.invoke
    intro r w' hn
    cases hn with
    | raises hc => cases hc
    | interrupted =>
      have hi := hw.interrupted true running.turns .cancelled
      exact ⟨hi.supervised hr.concurrent, hi⟩
    | awaitTurn hm _ =>
      have hended := hw.ended hm true running.turns
      exact ⟨(hended _).supervised (hr.erase _), hm, hended _⟩
  apply hawait.attempt.mono
  · intro v w hw
    cases v <;> exact hw
  · exact fun _ _ hw => hw

/-- So is every turn of a group that ends well, or that is interrupted. -/
theorem gather_supervises (n : Nat) {running : Running} (hr : ReadingTurns bound running)
    (hn : running.length = n) (results : Collected) (hw : InFlight running.turns w) :
    Supervises host bound (fun _ => InFlight []) (gather n running results) w := by
  induction n generalizing w running results with
  | zero =>
    rw [List.eq_nil_of_length_eq_zero hn] at hw
    exact hw
  | succ n ih =>
    rw [gather]
    apply Prog.Safe.bind ((awaitGroup_supervises hr hw).mono (fun _ _ h => h) fun _ _ h => h.elim)
    intro v w₁ h₁
    cases v with
    | error e =>
      apply (drain_supervises (n + 1) hr hn results false h₁).bind
      rintro ⟨results', failed⟩ w₂ h₂
      cases failed with
      | true => exact h₂
      | false => exact h₂
    | ok v =>
      obtain ⟨t, outcome⟩ := v
      obtain ⟨hm, h₁⟩ := h₁
      rw [← Running.remove_turns] at h₁
      have hlength := Running.length_remove hm hn
      simp only
      split
      · apply (drain_supervises n (hr.remove t) hlength _ true h₁).bind
        exact fun _ _ hw => hw
      · exact ih (hr.remove t) hlength _ h₁

theorem startBatch_supervises {items : List WorkItem} (s : RunState) {running : Running}
    (hr : ReadingTurns bound running) (hb : running.length + items.length ≤ bound)
    (hi : (running.map (fun p => p.1.id) ++ items.map WorkItem.id).Nodup)
    (ha : ∀ item ∈ items, item.access = .readOnly) (results : Collected) (failed : Bool)
    (hw : InFlight running.turns w) :
    Supervises host bound (fun v w => ReadingTurns bound v.1 ∧ InFlight v.1.turns w)
      (startBatch host s items running results failed) w := by
  induction items generalizing w running results failed with
  | nil => exact ⟨hr, hw⟩
  | cons item items ih =>
    obtain ⟨hitem, ha⟩ := List.forall_mem_cons.1 ha
    rw [List.length_cons] at hb
    rw [startBatch]
    split
    · have hi' := hi.sublist
        ((List.sublist_cons_self item.id (items.map WorkItem.id)).append_left _)
      exact ih hr (by omega) hi' ha _ _ hw
    · rename_i t ht
      have hadded : ReadingTurns bound (running ++ [(item, t)]) := by
        refine ⟨?_, ?_, ?_, ?_⟩
        · rw [List.length_append, List.length_singleton]
          omega
        · intro p hm
          rcases List.mem_append.1 hm with hm | hm
          · exact hr.subjects p hm
          · rw [List.mem_singleton.1 hm]
            exact (dispatchTurn_ok ht).2
        · rw [List.map_append]
          have hs : [item.id].Sublist ((item :: items).map WorkItem.id) :=
            (List.nil_sublist _).cons_cons item.id
          exact List.Nodup.sublist (hs.append_left _) hi
        · intro p hm
          rcases List.mem_append.1 hm with hm | hm
          · exact hr.readers p hm
          · rw [List.mem_singleton.1 hm]
            exact hitem
      have hturns : Running.turns (running ++ [(item, t)]) = running.turns ++ [t] := by
        rw [Running.turns, List.map_append]
        rfl
      apply Prog.Safe.bind (Q := fun _ => InFlight running.turns)
      · apply Prog.Safe.invoke
        intro r w' hn
        have hw' := hw.next rfl hn
        cases hn with
        | raises hc => cases hc
        | note => exact ⟨hw'.supervised hr.concurrent, hw'⟩
      intro _ w₁ h₁
      apply Prog.Safe.bind (Q := fun _ => InFlight (Running.turns (running ++ [(item, t)])))
      · apply Prog.Safe.invoke
        intro r w' hn
        cases hn with
        | raises hc => cases hc
        | startTurn =>
          have hstarted := h₁.started t
          rw [← hturns] at hstarted
          exact ⟨hstarted.supervised hadded.concurrent, hstarted⟩
      · intro _ w₂ h₂
        apply ih hadded _ _ ha _ _ h₂
        · rw [List.length_append, List.length_singleton]
          omega
        · rw [List.map_append, List.append_assoc]
          exact hi

theorem runReadBatch_joins {items : List WorkItem} (s : RunState) (hb : items.length ≤ bound)
    (hi : (items.map WorkItem.id).Nodup) (ha : ∀ item ∈ items, item.access = .readOnly) :
    Joins host bound (runReadBatch host s items) := by
  intro w hw
  have hlength : ([] : Running).length + items.length ≤ bound := by
    rw [List.length_nil, Nat.zero_add]
    exact hb
  apply (startBatch_supervises s ReadingTurns.nil hlength hi ha ∅ false hw).bind
  rintro ⟨running, results, failed⟩ w₁ ⟨hr, h₁⟩
  cases failed with
  | true =>
    apply Prog.Safe.bind (Q := fun _ => InFlight [])
    · apply (drain_supervises _ hr rfl results true h₁).bind
      exact fun _ _ hw => hw
    · exact fun results w hw => (Outside.turnFree (mapM_results_only results items)).joins w hw
  | false =>
    apply (gather_supervises _ hr rfl results h₁).bind
    exact fun results w hw => (Outside.turnFree (mapM_results_only results items)).joins w hw

theorem runReaders_joins {batch : List WorkItem} (s : RunState) (hb : batch.length ≤ bound)
    (hi : (batch.map WorkItem.id).Nodup) (ha : ∀ item ∈ batch, item.access = .readOnly) :
    Joins host bound (runReaders host s batch) := by
  apply Joins.bind (runReadBatch_joins _ hb hi ha)
  exact fun results => (persistResults_stores results _).outside.turnFree.joins

theorem runOne_joins (s : RunState) (item : WorkItem) :
    Joins host bound (runOne host s item) := by
  intro w hw
  rw [runOne]
  split
  · exact hw
  · rename_i t _
    apply Prog.Safe.bind (TurnFree.safe (Prog.Only.invoke rfl) concurrent_nil hw)
    intro _ w₁ h₁
    apply (soloTurn_supervises t h₁).bind
    intro _ w₂ h₂
    apply (awaitSolo_supervises t h₂).bind
    rintro ⟨_, outcome⟩ w₃ h₃
    cases outcome with
    | ok r => exact h₃
    | error e =>
      simp only
      split
      · exact h₃
      · exact h₃

theorem leasedWriter_joins (s : RunState) (item : WorkItem) (path : PurePath) :
    Joins host bound (do
      invoke (.acquireProject path)
      (writerBody host s item).ensure (invoke (.releaseProject path))) := by
  apply Joins.bind (TurnFree.joins (Prog.Only.invoke rfl))
  intro _
  apply Joins.ensure
  · apply Joins.bind (TurnFree.joins (Prog.Only.ofExcept _))
    intro _
    apply Joins.bind (TurnFree.joins (Prog.Only.invoke rfl))
    intro _
    apply Joins.bind (runOne_joins _ item)
    exact fun r => (persistResult_stores _ r).outside.turnFree.joins
  · exact TurnFree.joins (Prog.Only.invoke rfl)

theorem runWriter_joins (s : RunState) (item : WorkItem) :
    Joins host bound (runWriter host s item) := by
  rw [runWriter]
  split
  · simp only [bind_assoc, pure_bind]
    apply Joins.bind (saveRun_stores _).outside.turnFree.joins
    exact fun _ => leasedWriter_joins _ item _
  · exact leasedWriter_joins s item _

/-- The main loop runs no more readers at a time than its bound, and writers alone. -/
theorem runLoop_supervises (n : Nat) (h : Lifecycle host (some s) w) (hw : InFlight [] w) :
    Supervises host bound (fun _ => InFlight []) (runLoop host bound n s) w := by
  induction n generalizing s w with
  | zero => exact hw
  | succ n ih =>
    have hnote : Joins host bound (note (.passing s)) := TurnFree.joins (Prog.Only.invoke rfl)
    have hblocked : Joins host bound (persistBlocked host s s.newlyBlocked) :=
      (persistBlocked_stores _ _).outside.turnFree.joins
    apply (hnote.along (passing_lives h) hw).bind
    rintro _ w₁ ⟨h₁, hw₁⟩
    apply (hblocked.along (persistBlocked_lives h₁) hw₁).bind
    rintro s w₂ ⟨h₂, hw₂⟩
    simp only
    split
    · exact hw₂
    · have hforM : Joins host bound ((s.dispatchable host).forM fun item =>
          note (.validated s item.id)) := (forM_validated_records s _).stores.outside.turnFree.joins
      apply (hforM.along (forM_validated_lives h₂ fun _ hm => hm) hw₂).bind
      rintro _ w₃ ⟨⟨h₃, _, hv⟩, hw₃⟩
      split
      · rename_i item hf
        have hlives := runWriter_lives h₃ (List.mem_of_find?_eq_some hf)
        apply ((runWriter_joins s item).along hlives hw₃).bind
        exact fun s w ⟨h, hw⟩ => ih h hw
      · rename_i hf
        have hb := List.take_sublist bound (s.dispatchable host)
        have hreaders (item : WorkItem) (hm : item ∈ (s.dispatchable host).take bound) :
            item.access = .readOnly := by
          have hn := List.find?_eq_none.1 hf item (hb.mem hm)
          cases hx : item.access with
          | readOnly => rfl
          | workspaceWrite => simp [hx] at hn
        have hdistinct := (dispatchable_nodup h₃.valid).sublist (hb.map WorkItem.id)
        have hjoins : Joins host bound (runReaders host s ((s.dispatchable host).take bound)) :=
          runReaders_joins s (List.length_take_le bound _) hdistinct hreaders
        have hlives := runReaders_lives h₃ hb fun i hm => hv i (hb.mem hm)
        apply (hjoins.along hlives hw₃).bind
        exact fun s w ⟨h, hw⟩ => ih h hw

theorem runReady_supervises (h : Lifecycle host (some s) w) (hw : InFlight [] w) :
    Supervises host bound (fun s w => Lifecycle host (some s) w ∧ InFlight [] w)
      (runReady host bound s) w := by
  have hloop : Supervises host bound (fun _ => InFlight [])
      (runLoop host bound s.workItems.size s) w := runLoop_supervises s.workItems.size h hw
  have hlives := runLoop_lives h bound s.workItems.size
  have hboth := ((hlives.and hloop).weaken fun _ h => h.2).mono (fun _ _ h => h) fun _ _ h => h.2
  apply hboth.bind
  rintro s w ⟨h, hw⟩
  exact (conclude_stores s).outside.turnFree.joins.along (conclude_lives h) hw

end Groups

section Operations

variable {app : Application host}

theorem reviewCompletion_supervises (h : Lifecycle host (some s) w)
    (hc : currentConfig w.log = some app.config) (ho : s.objective.explicitTask = none)
    (hb : s.baseWorkSucceeded = true) (hw : InFlight [] w) :
    Supervises host app.maxReadConcurrency (fun _ => InFlight []) (app.reviewCompletion s) w := by
  have hrun {s : RunState} {w : World} (h : Lifecycle host (some s) w) (hw : InFlight [] w) :
      Supervises host app.maxReadConcurrency (fun _ => InFlight [])
        (if s.results.contains completionId then pure s
          else runReady host app.maxReadConcurrency s) w := by
    split
    · exact hw
    · exact (runReady_supervises h hw).mono (fun _ _ h => h.2) fun _ _ h => h
  rw [Application.reviewCompletion]
  split
  · exact hrun h hw
  · rename_i hn
    have happend : Joins host app.maxReadConcurrency (app.appendCompletion s) :=
      (appendCompletion_stores app s).outside.turnFree.joins
    have hlives := appendCompletion_lives h hc ho hb (mt Dict.contains_iff.2 hn)
    apply (happend.along hlives hw).bind
    exact fun _ _ hs => hrun hs.1 hs.2

theorem continueRun_supervises (h : Lifecycle host (some s) w)
    (hc : currentConfig w.log = some app.config) (hw : InFlight [] w) :
    Supervises host app.maxReadConcurrency (fun _ => InFlight []) (app.continueRun s) w := by
  have hreport (s : RunState) {w : World} (hw : InFlight [] w) :
      Supervises host app.maxReadConcurrency (fun _ => InFlight [])
        (do let _ ← writeReport host s; return s) w :=
    (reported_stores s).outside.turnFree.joins w hw
  have hconfig := configured_lives (runReady_lives h app.maxReadConcurrency) hc
  have hboth := (hconfig.and (runReady_supervises h hw)).weaken fun _ h => h.2
  apply (hboth.mono (fun _ _ h => h) fun _ _ h => h.2).bind
  rintro s w₁ ⟨⟨h₁, hc₁⟩, _, hw₁⟩
  simp only
  split
  · rename_i hbase
    apply (reviewCompletion_supervises h₁ hc₁ hbase.1 hbase.2 hw₁).bind
    exact fun s _ hw => hreport s hw
  · exact hreport s hw₁

theorem planObjectiveUnlocked_joins (path : PurePath) (prompt rid : Text) :
    Joins host bound (app.planObjectiveUnlocked path prompt rid) := by
  apply Joins.bind (TurnFree.joins (Prog.Only.invoke rfl))
  intro (repository : RepositoryContext)
  apply Joins.bind (validateModelInventory_records app).stores.outside.turnFree.joins
  intro _
  apply Joins.bind (objectiveOf_records app _ _ _ _).stores.outside.turnFree.joins
  intro objective
  apply Joins.bind (plan_joins _ _ _)
  intro items
  simp only
  split
  · exact fun _ hw => hw
  apply Joins.bind (TurnFree.joins (Prog.Only.ofExcept _))
  intro routes
  apply Joins.bind (createRun_stores _).outside.turnFree.joins
  intro _
  apply Joins.bind (recordEvent_records _ _ _ _).stores.outside.turnFree.joins
  exact fun _ _ hw => hw

theorem runTaskUnlocked_supervises (h : Lifecycle host m w) (hw : InFlight [] w)
    (path : PurePath) (task prompt : Text) (paths : List PurePath) (rid : Text) :
    Supervises host app.maxReadConcurrency (fun _ => InFlight [])
      (app.runTaskUnlocked path task prompt paths rid) w := by
  have free {α : Type} {Q : α → World → Prop} {p : Program α} {w : World} (hp : Outside p)
      (hl : Lives host Q p w) (hw : InFlight [] w) :
      Supervises host app.maxReadConcurrency (fun a w => Q a w ∧ InFlight [] w) p w :=
    hp.turnFree.joins.along hl hw
  apply (free (Prog.Only.invoke rfl) (invoke_lives h rfl) hw).bind
  rintro (repository : RepositoryContext) w₁ ⟨⟨h₁, _⟩, hw₁⟩
  apply (free (validateModelInventory_records app).stores.outside
    (validateModelInventory_lives h₁ app) hw₁).bind
  rintro _ w₂ ⟨⟨h₂, _⟩, hw₂⟩
  apply (free (Prog.Only.ofExcept _) (ofExcept_lives h₂ _) hw₂).bind
  rintro ⟨item, decision⟩ _ ⟨⟨he, rfl⟩, hw₂⟩
  apply (free (objectiveOf_records app _ _ _ _).stores.outside
    (objectiveOf_lives h₂ _ _ _ _) hw₂).bind
  rintro objective w₃ ⟨⟨h₃, _, _, ho, ht⟩, hw₃⟩
  have hf : Fresh app (app.initialState objective repository (Dict.ofList [(item.id, item)])
      (Dict.ofList [(item.id, decision)])) := .explicit he ho ht
  apply (free (createRun_stores _).outside (createRun_lives h₃ hf) hw₃).bind
  rintro _ w₄ ⟨h₄, hw₄⟩
  apply (free (recordEvent_records _ _ _ _).stores.outside
    (recordEvent_lives h₄ _ (text "task-created") _ _ (by decide)) hw₄).bind
  rintro _ w₅ ⟨h₅, hw₅⟩
  apply (runReady_supervises h₅ hw₅).bind
  rintro s w₆ ⟨_, hw₆⟩
  exact (reported_stores s).outside.turnFree.joins w₆ hw₆

theorem resumeUnlocked_supervises (h : Lifecycle host m w)
    (hc : currentConfig w.log = some app.config) (hw : InFlight [] w) (rid : Text)
    (acknowledge : Bool) :
    Supervises host app.maxReadConcurrency (fun _ => InFlight [])
      (app.resumeUnlocked rid acknowledge) w := by
  have free {α : Type} {Q : α → World → Prop} {p : Program α} {w : World} (hp : Outside p)
      (hl : Lives host Q p w) (hc : currentConfig w.log = some app.config) (hw : InFlight [] w) :
      Supervises host app.maxReadConcurrency
        (fun a w => (Q a w ∧ currentConfig w.log = some app.config) ∧ InFlight [] w) p w :=
    hp.turnFree.joins.along (configured_lives hl hc) hw
  apply (free (loadRun_stores _ _ _).outside (loadRun_lives h _ _ _) hc hw).bind
  rintro s w₁ ⟨⟨⟨h₁, _⟩, hc₁⟩, hw₁⟩
  apply (free (acknowledgeChange_stores app s).outside
    (acknowledgeChange_lives h₁ hc₁) hc₁ hw₁).bind
  rintro s w₂ ⟨⟨h₂, hc₂⟩, hw₂⟩
  apply (free (validateModelInventory_records app).stores.outside
    (validateModelInventory_lives h₂ app) hc₂ hw₂).bind
  rintro _ w₃ ⟨⟨⟨h₃, _⟩, hc₃⟩, hw₃⟩
  exact continueRun_supervises h₃ hc₃ hw₃

/-- A process of the application with no turn in flight. -/
structure Resting (app : Application host) (w : World) : Prop where
  alive : Alive host w
  config : currentConfig w.log = some app.config
  inFlight : InFlight [] w

theorem Resting.next (h : Resting app w) (hc : c.isTurnFree = true) (hq : c.quiet = true)
    (hn : Next host w c r w') : Resting app w' := by
  obtain ⟨m, ha⟩ := h.alive
  refine ⟨⟨m, ?_⟩, hn.currentConfig.trans h.config, h.inFlight.next hc hn⟩
  rw [hn.quiet hq]
  exact ha.quiet (Event.quiet_answered hq r)

theorem withRunLease_supervises {body : Program α}
    (hb : ∀ w, Resting app w → Supervises host bound (fun _ => InFlight []) body w) (rid : Text)
    (h : Resting app w) :
    Supervises host bound (fun _ => InFlight []) (withRunLease host rid body) w := by
  have hfin {w : World} (hw : InFlight [] w) :
      Supervises host bound (fun _ => InFlight []) (invoke (.releaseRun rid)) w :=
    TurnFree.joins (Prog.Only.invoke rfl) w hw
  apply Prog.Safe.bind (Q := fun _ => Resting app)
  · exact Prog.Safe.ofExcept (fun _ _ => h) fun _ _ => h.inFlight
  intro _ w₁ h₁
  apply Prog.Safe.bind (Q := fun _ => Resting app)
  · apply Prog.Safe.invoke
    intro r w' hn
    have h' := h₁.next rfl rfl hn
    refine ⟨h'.inFlight.supervised concurrent_nil, ?_⟩
    cases r with
    | ok v => exact h'
    | error e => exact h'.inFlight
  intro _ w₂ h₂
  apply (hb w₂ h₂).ensure
  · exact fun _ _ hw => hfin hw
  · exact fun _ _ hw => hfin hw

theorem selected_supervises {body : Text → Program α}
    (hb : ∀ rid w, Resting app w → Supervises host bound (fun _ => InFlight []) (body rid) w)
    (rid : Option Text) (h : Resting app w) :
    Supervises host bound (fun _ => InFlight []) (do
      let selected ← selectRunId rid
      withRunLease host selected (body selected)) w := by
  have hselect : Supervises host bound (fun _ => Resting app) (selectRunId rid) w := by
    have hnew : Supervises host bound (fun _ => Resting app) (invoke .newRunId) w := by
      apply Prog.Safe.invoke
      intro r w' hn
      have h' := h.next rfl rfl hn
      refine ⟨h'.inFlight.supervised concurrent_nil, ?_⟩
      cases r with
      | ok v => exact h'
      | error e => exact h'.inFlight
    cases rid with
    | none => exact hnew
    | some t =>
      cases t with
      | nil => exact hnew
      | cons => exact h
  apply hselect.bind
  exact fun selected w₁ h₁ => withRunLease_supervises (hb selected) selected h₁

theorem Operation.supervises (op : Operation) (h : Resting app w) :
    Supervises host app.maxReadConcurrency (fun _ => InFlight []) (op.program app) w := by
  have free {p : Program Unit} (hp : Outside p) :
      Supervises host app.maxReadConcurrency (fun _ => InFlight []) p w :=
    hp.turnFree.joins w h.inFlight
  cases op with
  | models => exact free ((models_records app).stores.outside.bind fun _ => trivial)
  | routeTask task prompt paths =>
    exact free ((routeTask_records app task prompt paths).stores.outside.bind fun _ => trivial)
  | planObjective path prompt rid =>
    apply (selected_supervises (fun rid _ hw =>
      planObjectiveUnlocked_joins path prompt rid _ hw.inFlight) rid h).bind
    exact fun _ _ hw => hw
  | runTask path task prompt paths rid =>
    have hrun (rid : Text) (w : World) (hw : Resting app w) :
        Supervises host app.maxReadConcurrency (fun _ => InFlight [])
          (app.runTaskUnlocked path task prompt paths rid) w := by
      obtain ⟨m, ha⟩ := hw.alive
      exact runTaskUnlocked_supervises ha hw.inFlight path task prompt paths rid
    apply (selected_supervises hrun rid h).bind
    exact fun _ _ hw => hw
  | runObjective path prompt rid =>
    have hrun (rid : Text) (w : World) (hw : Resting app w) :
        Supervises host app.maxReadConcurrency (fun _ => InFlight [])
          (app.planObjectiveUnlocked path prompt rid >>= app.continueRun) w := by
      obtain ⟨m, ha⟩ := hw.alive
      have hlives : Lives host (fun s w' => Lifecycle host (some s) w')
          (app.planObjectiveUnlocked path prompt rid) w :=
        planObjectiveUnlocked_lives ha (began_of_currentConfig hw.config) path prompt rid
      apply ((planObjectiveUnlocked_joins path prompt rid).along
        (configured_lives hlives hw.config) hw.inFlight).bind
      exact fun s _ ⟨⟨h, hc⟩, hw⟩ => continueRun_supervises h hc hw
    apply (selected_supervises hrun rid h).bind
    exact fun _ _ hw => hw
  | approve rid item approvedBy =>
    have happrove := (approveUnlocked_stores app rid item approvedBy).outside.turnFree
    apply (withRunLease_supervises (fun w hw => happrove.joins w hw.inFlight) rid h).bind
    exact fun _ _ hw => hw
  | resume rid acknowledge =>
    have hrun (w : World) (hw : Resting app w) :
        Supervises host app.maxReadConcurrency (fun _ => InFlight [])
          (app.resumeUnlocked rid acknowledge) w := by
      obtain ⟨m, ha⟩ := hw.alive
      exact resumeUnlocked_supervises ha hw.config hw.inFlight rid acknowledge
    apply (withRunLease_supervises hrun rid h).bind
    exact fun _ _ hw => hw
  | status rid => exact free ((loadRun_stores rid none false).outside.bind fun _ => trivial)
  | report rid =>
    have hreport := (@report_stores host rid).outside.turnFree
    apply (withRunLease_supervises (fun w hw => hreport.joins w hw.inFlight) rid h).bind
    exact fun _ _ hw => hw

theorem Reachable.resting (h : Reachable host w) (app : Application host) :
    Resting app (w.begin app.config) := by
  obtain ⟨m, ha⟩ := h.alive
  exact ⟨⟨m, ha.quiet rfl⟩, rfl, rfl, List.Perm.refl _⟩

/-- At every point of every run no more turns are in flight than the configuration allows, several
only of readers and each of an item of its own, and every other turn started has ended. -/
theorem turns_supervised (app : Application host) (op : Operation) (h : Reachable host w)
    (hs : Prog.Steps (Next host) (op.program app) (w.begin app.config) p w') :
    Supervised app.maxReadConcurrency w'.log := by
  have hrest := h.resting app
  exact ((Operation.supervises op hrest).steps (hrest.inFlight.supervised concurrent_nil) hs).1

/-- Every turn that an operation has started has ended when the operation returns or raises. -/
theorem turns_settled (app : Application host) (op : Operation) (h : Reachable host w)
    (hs : Prog.Steps (Next host) (op.program app) (w.begin app.config) p w')
    (ho : p.outcome? = some x) : (endedTurns w'.log).Perm (startedTurns w'.log) := by
  have hrest := h.resting app
  have hend := (Operation.supervises op hrest).ends (hrest.inFlight.supervised concurrent_nil) hs ho
  have hin : InFlight [] w' := by
    cases x with
    | ok v => exact hend
    | error e => exact hend
  have ha := hin.accounted
  rwa [List.append_nil] at ha

end Operations

section Sample

/-- The process dies while it waits for a group of readers. -/
def abandonedScript : Script :=
  { sampleScript busyPlan ["b"] with
    dies := fun _ c => match c with | .awaitTurn interruptible _ => interruptible | _ => false }

theorem Script.session_steps (script : Script) (app : Application host) (op : Operation)
    (w : World) : Prog.Steps (Next host) (op.program app) (w.begin app.config)
      ((op.program app).exec (script.answer host) (w.begin app.config)).1
      (script.session app op w) := by
  have ha (w : World) (c : Call) (r : Except PyError (Val c)) (w' : World)
      (hr : script.answer host w c = some (r, w')) : Next host w c r w' :=
    script.answer_next host hr
  exact Prog.exec_steps ha _ _

theorem two_readers_supervised :
    let w := abandonedScript.session laxApplication (.runObjective samplePath (text "Go") none)
      sampleWorld
    (inFlight w.log).length = 2 ∧ Supervised 2 w.log :=
  ⟨by decide +kernel, turns_supervised laxApplication _ sampleWorld_reachable
    (abandonedScript.session_steps laxApplication _ sampleWorld)⟩

theorem task_turns_settled :
    let w := (sampleScript singlePlan ["task"]).session workingApplication
      (.runTask samplePath (text "work") (text "Go") [] none) sampleWorld
    (startedTurns w.log).length = 1 ∧ (endedTurns w.log).Perm (startedTurns w.log) := by
  have hrun : (((Operation.runTask samplePath (text "work") (text "Go") [] none).program
      workingApplication).exec ((sampleScript singlePlan ["task"]).answer sampleHost)
        (sampleWorld.begin workingApplication.config)).1.outcome?.isSome = true ∧
      (startedTurns ((sampleScript singlePlan ["task"]).session workingApplication
        (.runTask samplePath (text "work") (text "Go") [] none) sampleWorld).log).length = 1 := by
    decide +kernel
  obtain ⟨x, hx⟩ := Option.isSome_iff_exists.1 hrun.1
  exact ⟨hrun.2, turns_settled workingApplication _ sampleWorld_reachable
    ((sampleScript singlePlan ["task"]).session_steps workingApplication _ sampleWorld) hx⟩

end Sample

end GoalRouter
