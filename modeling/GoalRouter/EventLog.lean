import GoalRouter.DependencyOrder
import GoalRouter.TerminalResults

namespace GoalRouter
open Library
set_option autoImplicit true

def memberOf (key : Text) : Json → Option Json
  | .obj fields => lookup key fields
  | _ => none

/-- What reading back the line of an event gives. -/
def RunEvent.line (e : RunEvent) : Json := persistJson e.toDict

def Event.line? : Event → Option Json
  | .answered (.appendEvent _ e) _ => some e.line
  | _ => none

/-- The lines that `events.jsonl` may hold, newest first. An append that raised may have reached
the file; one that was torn, or whose line another was appended to, does not count. -/
def World.lines (w : World) : List Json := w.log.filterMap Event.line?

/-- The line is about a finished work item. -/
def tellsFinish (line : Json) : Bool :=
  memberOf (text "event") line = some (.str (text "work-item-finished"))

/-- The item that a line is about. -/
def lineItem (line : Json) : Option Json := memberOf (text "work_item_id") line

def lineStatus (line : Json) : Option Json :=
  (memberOf (text "details") line).bind (memberOf (text "status"))

/-- The persisted result of the item that the line is about has the line's status. -/
def Accounted (host : Host) (w : World) (line : Json) : Prop :=
  ∃ k s r, lineItem line = some (.str k) ∧ loadSync host w.runId w.dir = .ok s ∧
    s.results.get? k = some r ∧ lineStatus line = some (enumText r.status)

/-- The log of a run agrees with its snapshot. -/
structure World.LogAgrees (host : Host) (w : World) : Prop where
  accounted : ∀ line ∈ w.lines, tellsFinish line = true → Accounted host w line
  once : ((w.lines.filter tellsFinish).map lineItem).Nodup

namespace RunEvent

variable (e : RunEvent)

theorem line_eq : e.line = .obj (persistFields e.fields) := persistJson_obj _

theorem memberOf_line (key : Text) :
    memberOf key e.line = (lookup key e.fields).map persistJson := by
  have hn : PlainNames (e.fields.map Prod.fst) := by
    show PlainNames [text "timestamp", text "event", text "work_item_id", text "details"]
    decide +kernel
  rw [line_eq, memberOf, lookup_persistFields hn]

theorem tellsFinish_line : tellsFinish e.line = e.finishes := by
  have he : memberOf (text "event") e.line = some (.str (persistText e.event)) := by
    rw [memberOf_line]
    exact congrArg some (persistJson_str _)
  rw [tellsFinish, he, finishes]
  apply decide_eq_decide.2
  simp only [Option.some.injEq, Json.str.injEq]
  constructor
  · intro h
    exact eq_of_persistText h (List.all_eq_true.1 (by decide)) (by decide)
  · intro h
    rw [h]
    decide +kernel

theorem lineItem_line (h : e.workItemId = some k) :
    lineItem e.line = some (.str (persistText k)) := by
  rw [lineItem, memberOf_line]
  have hk : lookup (text "work_item_id") e.fields = some (optionalText e.workItemId) := rfl
  rw [hk, h]
  exact congrArg some (persistJson_str k)

theorem lineStatus_line {status : WorkStatus} (h : e.details = [(text "status", enumText status)]) :
    lineStatus e.line = some (enumText status) := by
  have hd : memberOf (text "details") e.line =
      some (.obj (persistFields [(text "status", enumText status)])) := by
    rw [memberOf_line, ← h]
    exact congrArg some (persistJson_obj _)
  have hn : PlainNames ([(text "status", enumText status)].map Prod.fst) := by
    show PlainNames [text "status"]
    decide +kernel
  rw [lineStatus, hd, Option.bind_some, memberOf, lookup_persistFields hn]
  show some (persistJson (enumText status)) = _
  rw [enumText, persistJson_str, PlainEnum.plain]

end RunEvent

namespace RunState

/-- No id of the run is taken for a secret, as a key or as a value. -/
def hasSafeIds (s : RunState) : Bool :=
  s.workItems.keys.all fun k => !isSecretKey k && !isSecretValue k

variable {s : RunState}

theorem hasSafeIds_iff : s.hasSafeIds = true ↔
    ∀ k ∈ s.workItems.keys, isSecretKey k = false ∧ isSecretValue k = false := by
  simp only [hasSafeIds, List.all_eq_true, Bool.and_eq_true, Bool.not_eq_true']

theorem hasPlainIds_of_safe (h : s.hasSafeIds = true) : s.hasPlainIds = true := by
  apply hasPlainIds_iff.2
  exact fun k hk => (hasSafeIds_iff.1 h k hk).2

end RunState

def Event.hasSafeIds (e : Event) : Bool := (e.state?.map RunState.hasSafeIds).getD true

theorem safe_of_replaced {log : List Event} (h : ∀ e ∈ log, e.hasSafeIds = true)
    (hm : .replaced s ∈ log) : s.hasSafeIds = true := h _ hm

/-- The snapshot in the directory is one that took its place there. -/
def World.Stored (w : World) : Prop :=
  ∀ j, w.dir = .snapshot j → ∃ s, .replaced s ∈ w.log ∧ j = snapshotOf s

theorem Next.stored (h : Next host w c r w') (hw : w.Stored) : w'.Stored := by
  have hpush {w : World} (hw : w.Stored) (c : Call) (r : Except PyError (Val c)) :
      (w.push c r).Stored := by
    intro j hj
    obtain ⟨s, hs, he⟩ := hw j hj
    exact ⟨s, List.mem_cons_of_mem _ hs, he⟩
  have hland (s : RunState) : (w.land s).Stored := by
    intro j hj
    cases hj
    exact ⟨s, List.mem_cons_self, rfl⟩
  cases h with
  | created | saved => exact hpush (hland _) _ _
  | createdPartly =>
    apply hpush
    intro j hj
    cases hj
  | _ => exact hpush hw _ _

theorem Reachable.stored (h : Reachable host w) : w.Stored := by
  induction h with
  | initial =>
    intro j hj
    cases hj
  | session app op _ hs ih =>
    apply hs.keeps fun _ _ _ _ hn hw => hn.stored hw
    intro j hj
    obtain ⟨s, hm, he⟩ := ih j hj
    exact ⟨s, List.mem_cons_of_mem _ hm, he⟩

/-- What a finishing event of a run with safe ids reports. -/
structure Reported (host : Host) (earlier : List Event) (e : RunEvent) (s : RunState)
    (r : WorkResult) (w₀ : World) (since : List Event) : Prop where
  alive : Lifecycle host (some s) w₀
  history : earlier = since ++ w₀.log
  saved : .replaced (s.withResult r) ∈ since
  only : ∀ rid e x, .answered (.appendEvent rid e) x ∈ since → e.finishes = false
  unfinished : s.isUnfinished r.workItemId = true
  terminal : r.status.isResumable = false
  item : lineItem e.line = some (.str r.workItemId)
  status : lineStatus e.line = some (enumText r.status)

theorem Lifecycle.acquires (h : Lifecycle host (some s) w) (hp : s.hasPlainIds = true)
    (ha : s.Acquires r) : r.workItemId ∈ s.workItems.keys ∧
      s.isUnfinished r.workItemId = true ∧ r.status.isResumable = false := by
  obtain ⟨item, ⟨⟨k, hk, hu, _⟩, rfl⟩ | hf⟩ := ha
  · have ho := ((ordered_invariant host).kept h).memory s rfl
    have hid := (ho.2 hp).ids k item hk
    subst hid
    exact ⟨Dict.mem_keys_of_get? hk, hu, rfl⟩
  · rw [hf.subject]
    refine ⟨Dict.mem_keys_of_get? hf.stored, hf.unfinished, ?_⟩
    rcases hf.terminal with ht | ht <;> rw [ht] <;> rfl

theorem Lifecycle.reported {rid : Text} {x : Except PyError Unit} (h : Lifecycle host m w)
    (hs : ∀ e ∈ w.log, e.hasSafeIds = true)
    (hl : w.log = later ++ .answered (.appendEvent rid e) x :: earlier) (hf : e.finishes = true) :
    ∃ s r w₀ since, Reported host earlier e s r w₀ since := by
  obtain ⟨w₁, rfl, ho⟩ := h.origin hl
  obtain ⟨s, r, w₀, h₀, hr⟩ := ho hf
  obtain ⟨since, hw, hm, hn⟩ := hr.since
  have hlog : .replaced (s.withResult r) ∈ w.log := by
    rw [hl, hw]
    simp [hm]
  have hplain : s.hasPlainIds = true :=
    RunState.hasPlainIds_of_safe (s := s.withResult r) (safe_of_replaced hs hlog)
  obtain ⟨hk, hu, ht⟩ := h₀.acquires hplain hr.acquired
  have hid : persistText r.workItemId = r.workItemId :=
    persistText_of_plain (RunState.hasPlainIds_iff.1 hplain _ hk) (h₀.valid.keys _ hk).joined
  have hitem := e.lineItem_line hr.workItemId
  rw [hid] at hitem
  exact ⟨s, r, w₀, since, h₀, hw, hm, hn, hu, ht, hitem, e.lineStatus_line hr.details⟩

/-- The lines about finished items. -/
def finishLines (log : List Event) : List Json := (log.filterMap Event.line?).filter tellsFinish

theorem mem_finishLines {log : List Event} {line : Json} : line ∈ finishLines log ↔
    ∃ rid e x, .answered (.appendEvent rid e) x ∈ log ∧ e.finishes = true ∧ line = e.line := by
  rw [finishLines, List.mem_filter, List.mem_filterMap]
  constructor
  · intro ⟨⟨e, he, hl⟩, hf⟩
    cases e with
    | began | replaced => cases hl
    | answered c x =>
      cases c with
      | appendEvent rid e =>
        cases hl
        rw [RunEvent.tellsFinish_line] at hf
        exact ⟨rid, e, x, he, hf, rfl⟩
      | _ => cases hl
  · intro ⟨rid, e, x, he, hf, hl⟩
    subst hl
    rw [RunEvent.tellsFinish_line]
    exact ⟨⟨_, he, rfl⟩, hf⟩

theorem finishLines_cons (e : Event) (log : List Event) :
    finishLines (e :: log) = finishLines log ∨ ∃ rid e' x, e = .answered (.appendEvent rid e') x ∧
      e'.finishes = true ∧ finishLines (e :: log) = e'.line :: finishLines log := by
  cases e with
  | began | replaced => exact .inl rfl
  | answered c x =>
    cases c with
    | appendEvent rid e =>
      have hc : finishLines (.answered (.appendEvent rid e) x :: log) =
          if tellsFinish e.line then e.line :: finishLines log else finishLines log :=
        List.filter_cons
      rw [hc, RunEvent.tellsFinish_line]
      by_cases hf : e.finishes = true
      · rw [if_pos hf]
        exact .inr ⟨rid, e, x, rfl, hf, rfl⟩
      · rw [if_neg hf]
        exact .inl rfl
    | _ => exact .inl rfl

namespace Reported

variable {s : RunState}

theorem finished (h : Reported host earlier e s₀ r w₀ since) (hs : FollowsAll earlier s) :
    ∃ r', s.results.get? r.workItemId = some r' ∧ r'.persisted = r.persisted := by
  have hm : .replaced (s₀.withResult r) ∈ earlier := by
    rw [h.history]
    exact List.mem_append_left _ h.saved
  have hr : (s₀.withResult r).results.get? r.workItemId = some r := Dict.get?_set_self _ _ _
  exact (hs _ hm _ r hr h.terminal).1

theorem fresh (h : Reported host earlier e s r w₀ since)
    (hs : ∀ e ∈ earlier, e.hasSafeIds = true) :
    lineItem e.line ∉ (finishLines earlier).map lineItem := by
  intro hm
  obtain ⟨line, hm, hl⟩ := List.mem_map.1 hm
  obtain ⟨rid, e', x, he, hf, rfl⟩ := mem_finishLines.1 hm
  have hw : ∀ e ∈ w₀.log, e.hasSafeIds = true := by
    intro e he
    apply hs
    rw [h.history]
    exact List.mem_append_right _ he
  rw [h.history] at he
  rcases List.mem_append.1 he with he | he
  · rw [h.only _ _ _ he] at hf
    cases hf
  · obtain ⟨later, before, hlog⟩ := List.append_of_mem he
    obtain ⟨s', r', w', since', hr⟩ := h.alive.reported hw hlog hf
    have hfollows := ((followsAll_invariant host).kept h.alive).memory s rfl
    have hbefore : FollowsAll before s := by
      intro s₀ hm
      apply hfollows.2
      rw [hlog]
      exact List.mem_append_right _ (List.mem_cons_of_mem _ hm)
    have hid : r'.workItemId = r.workItemId := by
      have hitem := hr.item.symm.trans (hl.trans h.item)
      simpa using hitem
    obtain ⟨r₁, hr₁, hp⟩ := hr.finished hbefore
    have hst : r₁.status = r'.status := by
      rw [← r₁.persisted_status, hp, r'.persisted_status]
    have hu := RunState.isUnfinished_iff.1 h.unfinished r₁ (hid ▸ hr₁)
    rw [hst, hr.terminal] at hu
    cases hu

end Reported

/-- The snapshot of a run with safe ids is read back, and follows all that were stored before. -/
theorem Reachable.loads (h : Reachable host w) (hs : ∀ e ∈ w.log, e.hasSafeIds = true)
    (hm : .replaced s₀ ∈ w.log) :
    ∃ s, loadSync host w.runId w.dir = .ok s ∧ FollowsAll w.log s := by
  obtain ⟨m, hw⟩ := h.alive
  have hkept := (followsAll_invariant host).kept hw
  have hd : ∃ j, w.dir = .snapshot j := by
    by_contra hd
    push Not at hd
    exact hkept.unsaved hd s₀ hm
  obtain ⟨j, hd⟩ := hd
  obtain ⟨s₁, hm₁, hj⟩ := h.stored j hd
  obtain ⟨s₂, hj₂, hv₂, hf₂⟩ := hkept.stored j hd
  have hv₁ := ((ordered_invariant host).of_event hw hm₁ rfl).1
  have hkeys := RunState.hasSafeIds_iff.1 (safe_of_replaced hs hm₁)
  have hload : loadSync host w.runId w.dir = .ok s₁.persisted := by
    rw [hd, hj]
    exact loadSync_snapshotOf host _ hv₁.version hv₁.aware
      (hv₁.plainKeys fun k hk => (hkeys k hk).1)
  refine ⟨s₁.persisted, hload, fun s hm => ?_⟩
  rw [hd, hj₂] at hload
  rw [hv₂.load hload]
  exact (hf₂ s hm).persisted

theorem Lifecycle.finishLines_nodup {log later : List Event} (h : Lifecycle host m w)
    (hl : w.log = later ++ log) (hs : ∀ e ∈ w.log, e.hasSafeIds = true) :
    ((finishLines log).map lineItem).Nodup := by
  induction log generalizing later with
  | nil => exact List.nodup_nil
  | cons e log ih =>
    have ih := ih (hl.trans (List.append_cons later e log))
    rcases finishLines_cons e log with hc | ⟨rid, e', x, rfl, hf, hc⟩
    · rw [hc]
      exact ih
    · obtain ⟨s, r, w₀, since, hr⟩ := h.reported hs hl hf
      have hsafe : ∀ e ∈ log, e.hasSafeIds = true := by
        intro e he
        apply hs
        rw [hl]
        exact List.mem_append_right _ (List.mem_cons_of_mem _ he)
      rw [hc, List.map_cons, List.nodup_cons]
      exact ⟨hr.fresh hsafe, ih⟩

/-- As long as no id of a run is taken for a secret, its log agrees with its snapshot, whatever
points its sessions died at. -/
theorem log_agrees (h : Reachable host w) (hs : ∀ e ∈ w.log, e.hasSafeIds = true) :
    w.LogAgrees host := by
  obtain ⟨m, hw⟩ := h.alive
  refine ⟨fun line hm ht => ?_, hw.finishLines_nodup (List.nil_append _).symm hs⟩
  obtain ⟨rid, e, x, he, hf, rfl⟩ := mem_finishLines.1 (List.mem_filter.2 ⟨hm, ht⟩)
  obtain ⟨later, earlier, hl⟩ := List.append_of_mem he
  obtain ⟨s₀, r, w₀, since, hr⟩ := hw.reported hs hl hf
  have hsub {e : Event} (he : e ∈ earlier) : e ∈ w.log := by
    rw [hl]
    exact List.mem_append_right _ (List.mem_cons_of_mem _ he)
  have hsaved := List.mem_append_left w₀.log hr.saved
  rw [← hr.history] at hsaved
  obtain ⟨s, hload, hfollows⟩ := h.loads hs (hsub hsaved)
  obtain ⟨r', hr', hp⟩ := hr.finished fun s₁ hm => hfollows s₁ (hsub hm)
  have hst : r'.status = r.status := by
    rw [← r'.persisted_status, hp, r.persisted_status]
  refine ⟨_, s, r', hr.item, hload, hr', ?_⟩
  rw [hst]
  exact hr.status

/-- The run of `secretPlan`, where every turn fails. -/
def secretWorld : World :=
  (sampleScript secretPlan []).session plainApplication
    (.runObjective samplePath (text "Go") none) sampleWorld

/-- The line about the failed `sk-abcdef` names no item that has a result. -/
theorem redacted_line_disagrees :
    ¬∀ (host : Host) (w : World), Reachable host w → w.LogAgrees host := by
  intro h
  have hw : Reachable sampleHost secretWorld := (sampleScript secretPlan []).session_reachable
    plainApplication (.runObjective samplePath (text "Go") none) sampleWorld_reachable
  have hany : secretWorld.lines.any
      (fun line => tellsFinish line && lineItem line = some (.str redacted)) = true := by
    decide +kernel
  have hnone : (secretWorld.log.filterMap Event.state?).all
      (fun s => !s.results.contains redacted) = true := by decide +kernel
  obtain ⟨line, hm, hf⟩ := List.any_eq_true.1 hany
  obtain ⟨hf, hi⟩ := Bool.and_eq_true_iff.1 hf
  obtain ⟨k, s, r, hk, hl, hr, _⟩ := (h sampleHost _ hw).accounted line hm hf
  rw [of_decide_eq_true hi] at hk
  cases hk
  obtain ⟨_, hd, _⟩ := loadSync_ok hl
  obtain ⟨s₁, hm₁, hj⟩ := hw.stored _ hd
  obtain ⟨_, hlife⟩ := hw.alive
  have hv := ((ordered_invariant sampleHost).of_event hlife hm₁ rfl).1
  rw [hd, hj] at hl
  rw [hv.load hl, RunState.persisted, get?_persistDict, Option.map_eq_some_iff] at hr
  obtain ⟨r₁, hr₁, _⟩ := hr
  have hn := List.all_eq_true.1 hnone s₁ (List.mem_filterMap.2 ⟨_, hm₁, rfl⟩)
  rw [Dict.contains_iff.2 (Dict.mem_keys_of_get? hr₁)] at hn
  cases hn

/-- A run of items that succeed, fail and are blocked meets the condition. -/
theorem dependentRun_agrees : dependentRun.LogAgrees sampleHost :=
  log_agrees dependentRun_reachable (List.all_eq_true.1 (by decide +kernel))

end GoalRouter
