import GoalRouter.ReportAgreement
import GoalRouter.SandboxAlignment
import GoalRouter.ScheduleIndependence
import GoalRouter.StateRoundTrip
import Mathlib.Data.List.Chain

namespace GoalRouter
open Library
set_option autoImplicit true

variable {host : Host} {answer : Turn → WorkResult}

theorem route_completionItem (config : RouterConfig) (s s' : RunState) :
    route host config (completionItem s config.completionTask) none =
      route host config (completionItem s' config.completionTask) none :=
  route_congr rfl rfl

namespace RunState

variable {s s' t t' u : RunState}

theorem Equals.refl (s : RunState) : s.Equals s :=
  ⟨rfl, rfl, rfl, rfl, fun _ => rfl, fun _ => rfl, fun _ => rfl, fun _ => rfl, rfl⟩

theorem Equals.symm (h : s.Equals t) : t.Equals s :=
  ⟨h.1.symm, h.2.symm, h.3.symm, h.4.symm, fun k => (h.5 k).symm, fun k => (h.6 k).symm,
    fun k => (h.7 k).symm, fun k => (h.8 k).symm, h.9.symm⟩

theorem Equals.trans (h : s.Equals t) (h' : t.Equals u) : s.Equals u :=
  ⟨h.1.trans h'.1, h.2.trans h'.2, h.3.trans h'.3, h.4.trans h'.4, fun k => (h.5 k).trans (h'.5 k),
    fun k => (h.6 k).trans (h'.6 k), fun k => (h.7 k).trans (h'.7 k),
    fun k => (h.8 k).trans (h'.8 k), h.9.trans h'.9⟩

/-! What the application reads of a state does not tell in which order its entries came. -/

section Readings

theorem Equals.isUnfinished (h : s.Equals t) (k : Text) : s.isUnfinished k = t.isUnfinished k := by
  rw [RunState.isUnfinished, RunState.isUnfinished, h.results]

theorem Equals.hasSucceeded (h : s.Equals t) (k : Text) : s.hasSucceeded k = t.hasSucceeded k := by
  rw [RunState.hasSucceeded, RunState.hasSucceeded, h.results]

theorem Equals.hasFailed (h : s.Equals t) (k : Text) : s.hasFailed k = t.hasFailed k := by
  rw [RunState.hasFailed, RunState.hasFailed, h.results]

theorem Equals.requireDispatchable (h : s.Equals t) (k : Text) :
    requireDispatchable host s k = requireDispatchable host t k := by
  have hr : requireItemAndRoute s k = requireItemAndRoute t k := by
    rw [requireItemAndRoute, requireItemAndRoute, h.workItems, h.routes]
  have hf : fingerprint host s k = fingerprint host t k := by
    rw [fingerprint, fingerprint, hr, h.configurationDigest]
  have hid : s.runId = t.runId := congrArg Objective.id h.objective
  rw [GoalRouter.requireDispatchable, GoalRouter.requireDispatchable, hr, hf, h.approvals,
    h.configurationDigest, hid]

theorem Equals.sortedItems (h : s.Equals t) : s.workItems.sorted = t.workItems.sorted := by
  apply SortedMap.ext
  intro k
  rw [Dict.get?_sorted, Dict.get?_sorted, h.workItems]

theorem Equals.sortedResults (h : s.Equals t) : s.results.sorted = t.results.sorted := by
  apply SortedMap.ext
  intro k
  rw [Dict.get?_sorted, Dict.get?_sorted, h.results]

theorem Equals.pendingItems (h : s.Equals t) : s.pendingItems = t.pendingItems := by
  rw [RunState.pendingItems, RunState.pendingItems, h.sortedItems]
  simp only [h.isUnfinished]

theorem Equals.dispatchable (h : s.Equals t) : s.dispatchable host = t.dispatchable host := by
  have hs : s.hasSucceeded = t.hasSucceeded := funext h.hasSucceeded
  rw [RunState.dispatchable, RunState.dispatchable, h.pendingItems, hs]
  simp only [isApproved, h.requireDispatchable]

theorem Equals.newlyBlocked (h : s.Equals t) : s.newlyBlocked = t.newlyBlocked := by
  have hf : s.hasFailed = t.hasFailed := funext h.hasFailed
  rw [RunState.newlyBlocked, RunState.newlyBlocked, h.pendingItems, hf]

theorem Equals.keyed (h : s.Equals t) (hk : s.Keyed) : t.Keyed := by
  intro k item hg
  rw [← h.workItems] at hg
  exact hk k item hg

theorem Equals.dispatchTurn (h : s.Equals t) (item : WorkItem) :
    dispatchTurn host s item = dispatchTurn host t item := by
  rw [GoalRouter.dispatchTurn, GoalRouter.dispatchTurn, h.routes, h.results, h.objective,
    developerInstructions, developerInstructions, h.repository]

theorem Equals.turnResult (h : s.Equals t) (item : WorkItem) :
    turnResult host answer s item = turnResult host answer t item := by
  rw [GoalRouter.turnResult, GoalRouter.turnResult, h.dispatchTurn]

theorem Equals.contains (h : s.Equals t) (k : Text) :
    s.workItems.contains k = t.workItems.contains k := by
  rw [Dict.contains, Dict.contains, h.workItems]

theorem baseWorkSucceeded_iff : s.baseWorkSucceeded = true ↔
    (∃ k ∈ s.workItems.keys, k ≠ completionId) ∧
      ∀ k ∈ s.workItems.keys, k ≠ completionId → s.hasSucceeded k = true := by
  simp only [baseWorkSucceeded, Bool.and_eq_true, decide_eq_true_eq, List.all_eq_true,
    List.mem_filter, and_imp, ne_eq, List.filter_eq_nil_iff, not_forall, not_not, exists_prop]

theorem Equals.baseWorkSucceeded (h : s.Equals t) :
    s.baseWorkSucceeded = true ↔ t.baseWorkSucceeded = true := by
  have hkeys (k : Text) : k ∈ s.workItems.keys ↔ k ∈ t.workItems.keys := by
    rw [Dict.mem_keys, Dict.mem_keys, h.workItems]
  simp only [baseWorkSucceeded_iff, hkeys, h.hasSucceeded]

theorem Equals.completionItem (h : s.Equals t) (task : Text) :
    completionItem s task = completionItem t task := by
  rw [GoalRouter.completionItem, GoalRouter.completionItem, completionSummaries,
    completionSummaries, h.sortedItems, h.sortedResults, h.objective]

theorem Equals.withCompletion (h : s.Equals t) (task : Text) (decision : RouteDecision) :
    (s.withCompletion task decision).Equals (t.withCompletion task decision) := by
  refine ⟨h.1, h.2, h.3, h.4, fun k => ?_, fun k => ?_, h.7, h.8, rfl⟩
  · rw [RunState.withCompletion, RunState.withCompletion, Dict.get?_set, Dict.get?_set,
      h.completionItem, h.workItems]
  · rw [RunState.withCompletion, RunState.withCompletion, Dict.get?_set, Dict.get?_set, h.routes]

theorem awaitsApproval_ok {items : List WorkItem} (h : s.awaitsApproval host items = .ok b) :
    b = true ↔ ∃ item ∈ items, s.results.get? item.id = none ∧
      ∃ route, s.routes.get? item.id = some route ∧ route.approval = .required := by
  induction items with
  | nil =>
    cases h
    simp
  | cons item items ih =>
    rw [awaitsApproval] at h
    rw [List.exists_mem_cons_iff]
    split at h
    · rename_i hr
      have hn : s.results.get? item.id ≠ none := Option.isSome_iff_ne_none.1 hr
      rw [ih h]
      simp [hn]
    · rename_i hr
      split at h
      · cases h
      · rename_i route hg
        split at h
        · rename_i ha
          cases h
          rw [Option.not_isSome_iff_eq_none] at hr
          simp only [true_iff]
          exact .inl ⟨hr, route, hg, ha⟩
        · rename_i ha
          rw [ih h, hg]
          simp [ha]

theorem Equals.finalStatus (h : s.Equals t) (hs : s.finalStatus host = .ok a)
    (ht : t.finalStatus host = .ok b) : a = b := by
  have hvalues (r : WorkResult) : r ∈ s.results.values ↔ r ∈ t.results.values := by
    rw [Dict.mem_values, Dict.mem_values]
    simp only [h.results]
  have hstatus (status : WorkStatus) : status ∈ s.results.values.map WorkResult.status ↔
      status ∈ t.results.values.map WorkResult.status := by
    simp only [List.mem_map, hvalues]
  have hresults : s.results.size = t.results.size := by
    apply Dict.size_eq_of_keys
    intro k
    rw [Dict.mem_keys, Dict.mem_keys, h.results]
  have hitems : s.workItems.size = t.workItems.size := by
    apply Dict.size_eq_of_keys
    intro k
    rw [Dict.mem_keys, Dict.mem_keys, h.workItems]
  have hmem (item : WorkItem) : item ∈ s.workItems.values ↔ item ∈ t.workItems.values := by
    rw [Dict.mem_values, Dict.mem_values]
    simp only [h.workItems]
  simp only [RunState.finalStatus, hstatus, hresults, hitems] at hs ht
  split at hs
  · rename_i hc
    rw [if_pos hc] at ht
    exact Except.ok.inj (hs.symm.trans ht)
  · rename_i hc
    rw [if_neg hc] at ht
    split at hs
    · rename_i hc
      rw [if_pos hc] at ht
      exact Except.ok.inj (hs.symm.trans ht)
    · rename_i hc
      rw [if_neg hc] at ht
      split at hs
      · rename_i hc
        rw [if_pos hc] at ht
        exact Except.ok.inj (hs.symm.trans ht)
      · rename_i hc
        rw [if_neg hc] at ht
        cases hx : s.awaitsApproval host s.workItems.values with
        | error e =>
          rw [hx] at hs
          cases hs
        | ok x =>
          cases hy : t.awaitsApproval host t.workItems.values with
          | error e =>
            rw [hy] at ht
            cases ht
          | ok y =>
            have hxy : x = true ↔ y = true := by
              rw [awaitsApproval_ok hx, awaitsApproval_ok hy]
              simp only [hmem, h.results, h.routes]
            rw [hx] at hs
            rw [hy] at ht
            rw [Bool.eq_iff_iff.2 hxy] at hs
            exact Except.ok.inj (hs.symm.trans ht)

end Readings

section Courses

theorem Reaches.congr (he : s.Equals t) (h : s.Reaches host answer s') :
    ∃ t', t'.Equals s' ∧ t.Reaches host answer t' := by
  have hmay (k : Text) (ds : List Text) (hm : s.MayFollow host k ds) : t.MayFollow host k ds := by
    obtain ⟨item, hg, hu, ha, hd⟩ := hm
    exact ⟨item, (he.workItems k).symm.trans hg, (he.isUnfinished k).symm.trans hu,
      (he.requireDispatchable k).symm.trans ha, hd⟩
  have hattainable {k : Text} (hk : s.Attainable host k) : t.Attainable host k := by
    induction hk with
    | start hs => exact .start ((he.hasSucceeded _).symm.trans hs)
    | rule hr _ ih => exact .rule (hmay _ _ hr) ih
  refine ⟨{ t with results := s'.results, status := s'.status }, ?_, rfl, fun k => ?_⟩
  · rw [h.rest]
    exact ⟨he.1.symm, he.2.symm, he.3.symm, he.4.symm, fun k => (he.5 k).symm,
      fun k => (he.6 k).symm, fun _ => rfl, fun k => (he.8 k).symm, rfl⟩
  · rcases h.results k with hg | ⟨r, hg, ⟨item, hi, hr⟩, hu, ha, hs⟩
    · exact .inl (hg.trans (he.results k))
    · exact .inr ⟨r, hg, ⟨item, (he.workItems k).symm.trans hi, hr.trans (he.turnResult item)⟩,
        (he.isUnfinished k).symm.trans hu, hattainable ha, hs⟩

theorem Reaches.trans (h : s.Reaches host answer t) (h' : t.Reaches host answer u)
    (hk : s.Keyed) : s.Reaches host answer u := by
  have hattainable {k : Text} (ha : t.Attainable host k) : s.Attainable host k := by
    induction ha with
    | start hs => exact h.hasSucceeded hs
    | rule hr _ ih =>
      obtain ⟨item, hg, hu, ha, hd⟩ := hr
      exact .rule ⟨item, h.workItems ▸ hg, h.isUnfinished hu,
        (h.requireDispatchable _).symm.trans ha, hd⟩ ih
  refine ⟨?_, fun k => ?_⟩
  · rw [h'.rest, h.rest]
  · rcases h'.results k with hg | ⟨r, hg, ⟨item, hi, hr⟩, hu, ha, hs⟩
    · rw [hg]
      exact h.results k
    · rw [h.workItems] at hi
      have hid := hk k item hi
      refine .inr ⟨r, hg, ⟨item, hi, ?_⟩, h.isUnfinished hu, hattainable ha, hs⟩
      rw [hr, h.turnResult (hid ▸ hu)]

/-- Two states that a run comes to with nothing left to dispatch differ in their status at most. -/
theorem Reaches.alike (h : s.Reaches host answer t) (h' : s.Reaches host answer u) (hk : s.Keyed)
    (hd : t.dispatchable host = []) (hd' : u.dispatchable host = []) :
    t.Equals { u with status := t.status } := by
  have hresults := h.results_eq h' hk hd hd'
  rw [h.rest, h'.rest]
  refine ⟨rfl, rfl, rfl, rfl, fun _ => rfl, fun _ => rfl, fun k => ?_, fun _ => rfl, rfl⟩
  rw [← Dict.get?_sorted, hresults, Dict.get?_sorted]

/-- An objective's run whose base work has succeeded and that has no completion item yet. -/
structure NeedsReview (s : RunState) : Prop where
  objective : s.objective.explicitTask = none
  succeeded : s.baseWorkSucceeded = true
  missing : s.workItems.contains completionId = false

theorem Equals.needsReview (h : s.Equals t) (hn : s.NeedsReview) : t.NeedsReview where
  objective := h.objective ▸ hn.objective
  succeeded := h.baseWorkSucceeded.1 hn.succeeded
  missing := (h.contains completionId).symm.trans hn.missing

theorem NeedsReview.setStatus (h : s.NeedsReview) (status : RunStatus) :
    { s with status }.NeedsReview :=
  ⟨h.objective, h.succeeded, h.missing⟩

/-- The states that a run comes to: first its base work is done, then its completion review. -/
inductive Course (host : Host) (answer : Turn → WorkResult) (config : RouterConfig)
    (s : RunState) : RunState → Prop where
  | work (h : s.Reaches host answer s₂) : Course host answer config s s₂
  | review (h : s.Reaches host answer s₁) (hd : s₁.dispatchable host = []) (hn : s₁.NeedsReview)
      (hr : route host config (GoalRouter.completionItem s₁ config.completionTask) none =
        .ok decision)
      (h' : (s₁.withCompletion config.completionTask decision).Reaches host answer s₂) :
      Course host answer config s s₂

variable {config : RouterConfig}

theorem Keyed.withCompletion (h : s.Keyed) (task : Text) (decision : RouteDecision) :
    (s.withCompletion task decision).Keyed := by
  intro k item hg
  rw [RunState.withCompletion, Dict.get?_set] at hg
  split at hg
  · rename_i hc
    cases hg
    exact hc.symm
  · exact h k item hg

theorem Reaches.keyed (h : s.Reaches host answer t) (hk : s.Keyed) : t.Keyed :=
  fun k item hg => hk k item (h.workItems ▸ hg)

theorem Reaches.contains (h : s.Reaches host answer t) (k : Text) :
    t.workItems.contains k = s.workItems.contains k := by
  rw [h.workItems]

theorem contains_withCompletion (s : RunState) (task : Text) (decision : RouteDecision) :
    (s.withCompletion task decision).workItems.contains completionId = true := by
  rw [RunState.withCompletion, Dict.contains, Dict.get?_set, if_pos rfl]
  rfl

theorem Course.congr (he : s.Equals s') (h : s.Course host answer config t) :
    ∃ t', t'.Equals t ∧ s'.Course host answer config t' := by
  cases h with
  | work h =>
    obtain ⟨t', ht, h'⟩ := h.congr he
    exact ⟨t', ht, .work h'⟩
  | @review s₁ decision _ h hd hn hr h' =>
    obtain ⟨s₁', h₁, hreaches⟩ := h.congr he
    obtain ⟨t', ht, h₂⟩ := h'.congr (h₁.symm.withCompletion config.completionTask decision)
    refine ⟨t', ht, .review hreaches (h₁.dispatchable.trans hd) (h₁.symm.needsReview hn) ?_ h₂⟩
    rw [h₁.completionItem]
    exact hr

theorem Course.trans (hk : s.Keyed) (h : s.Course host answer config t)
    (h' : t.Course host answer config u) : s.Course host answer config u := by
  cases h with
  | work h =>
    cases h' with
    | work h' => exact .work (h.trans h' hk)
    | review h₁ hd hn hr h₂ => exact .review (h.trans h₁ hk) hd hn hr h₂
  | @review s₁ decision _ h hd hn hr h₁ =>
    have hkeyed := (h.keyed hk).withCompletion config.completionTask decision
    cases h' with
    | work h' => exact .review h hd hn hr (h₁.trans h' hkeyed)
    | review h₂ _ hn' =>
      have hc := (h₁.trans h₂ hkeyed).contains completionId
      rw [contains_withCompletion, hn'.missing] at hc
      cases hc

/-- A run that has nothing left to dispatch or to review has come to one state, but for its
status. -/
theorem Course.alike (hk : s.Keyed) (h : s.Course host answer config t)
    (h' : s.Course host answer config u) (hd : t.dispatchable host = [])
    (hd' : u.dispatchable host = []) (hn : ¬t.NeedsReview) (hn' : ¬u.NeedsReview) :
    t.Equals { u with status := t.status } := by
  cases h with
  | work h =>
    cases h' with
    | work h' => exact h.alike h' hk hd hd'
    | review h₁ hd₁ hn₁ =>
      have he := h.alike h₁ hk hd hd₁
      exact absurd (he.symm.needsReview (hn₁.setStatus _)) hn
  | @review s₁ decision _ h hd₁ hn₁ hr h₁ =>
    cases h' with
    | work h' =>
      have he := h'.alike h hk hd' hd₁
      exact absurd (he.symm.needsReview (hn₁.setStatus _)) hn'
    | @review s₂ decision' _ h' hd₂ hn₂ hr' h₂ =>
      have he := h.alike h' hk hd₁ hd₂
      cases hr.symm.trans ((route_completionItem config s₁ s₂).trans hr')
      have hsame := he.withCompletion config.completionTask decision
      have hplanned :
          { s₂ with status := s₁.status }.withCompletion config.completionTask decision =
          s₂.withCompletion config.completionTask decision := rfl
      rw [hplanned] at hsame
      obtain ⟨u', hu, h₃⟩ := h₂.congr hsame.symm
      have hkeyed := (h.keyed hk).withCompletion config.completionTask decision
      have halike := h₁.alike h₃ hkeyed hd (hu.dispatchable.trans hd')
      refine halike.trans ?_
      exact ⟨hu.1, hu.2, hu.3, hu.4, hu.5, hu.6, hu.7, hu.8, rfl⟩

end Courses

end RunState

section Texts

theorem joined_append {a b : Text} (ha : Joined a) (hb : Joined b)
    (h : (∀ c ∈ a.getLast?, isAscii c = true) ∨ ∀ c ∈ b.head?, isAscii c = true) :
    Joined (a ++ b) := by
  refine List.isChain_append.2 ⟨ha, hb, fun x hx y hy => ?_⟩
  rcases h with h | h
  · rw [(isAscii_not_surrogate (h x hx)).1, Bool.false_and]
  · rw [(isAscii_not_surrogate (h y hy)).2, Bool.and_false]

theorem joined_between {a b m : Text} (ha : Joined a) (hb : Joined b) (hm : m ≠ [])
    (hs : m.all isAscii = true) : Joined (a ++ m ++ b) := by
  have hall := List.all_eq_true.1 hs
  have hleft := joined_append ha (joined_of_ascii hall)
    (.inr fun c hc => hall c (List.mem_of_mem_head? hc))
  apply joined_append hleft hb
  apply Or.inl
  intro c hc
  rw [List.getLast?_append_of_ne_nil a hm] at hc
  exact hall c (List.mem_of_mem_getLast? hc)

theorem joined_joinTexts {separator : Text} (hn : separator ≠ [])
    (hs : separator.all isAscii = true) {parts : List Text} (hp : ∀ t ∈ parts, Joined t) :
    Joined (joinTexts separator parts) := by
  induction parts with
  | nil => exact .nil
  | cons t parts ih =>
    obtain ⟨ht, hrest⟩ := List.forall_mem_cons.1 hp
    cases parts with
    | nil =>
      rw [joinTexts, List.intercalate_singleton]
      exact ht
    | cons u parts =>
      rw [joinTexts, List.intercalate_cons_cons]
      exact joined_between ht (ih hrest) hn hs

theorem joined_of_persisted {t : Text} (h : persistText t = t) : Joined t := by
  rw [← h]
  exact joined_joinSurrogates _

theorem persistText_of_capital {t : Text} (hj : Joined (0x49 :: t)) :
    persistText (0x49 :: t) = 0x49 :: t := by
  apply persistText_of_plain _ hj
  have hsk : (text "sk-").isPrefixOf (0x49 :: t) = false := rfl
  have hbearer : (text "bearer ").isPrefixOf (casefold (0x49 :: t)) = false := rfl
  rw [isSecretValue, hsk, hbearer]
  rfl

end Texts

/-- What is stored of the state is the state. -/
structure RunState.Unredacted (s : RunState) : Prop where
  equals : s.persisted.Equals s

namespace RunState.Unredacted

variable {s : RunState}

theorem item_persisted (h : s.Unredacted) (hg : s.workItems.get? k = some item) :
    item.persisted = item := by
  have hk := h.equals.workItems k
  rw [RunState.persisted, get?_persistDict, hg] at hk
  exact Option.some.inj hk

theorem result_persisted (h : s.Unredacted) (hg : s.results.get? k = some r) : r.persisted = r := by
  have hk := h.equals.results k
  rw [RunState.persisted, get?_persistDict, hg] at hk
  exact Option.some.inj hk

theorem prompt (h : s.Unredacted) : persistText s.objective.prompt = s.objective.prompt :=
  congrArg Objective.prompt h.equals.objective

theorem key (h : s.Unredacted) (hk : s.Keyed) (hm : k ∈ s.workItems.keys) : persistText k = k := by
  obtain ⟨item, hg⟩ := Dict.mem_keys.1 hm
  have hid : persistText item.id = item.id := congrArg WorkItem.id (h.item_persisted hg)
  rwa [hk k item hg] at hid

theorem joined_summaries (h : s.Unredacted) (hk : ∀ k ∈ s.results.keys, Joined k) :
    Joined (completionSummaries s) := by
  have hnone : Joined (text "(no response)") :=
    joined_of_ascii (List.all_eq_true.1 (by decide))
  apply joined_joinTexts (by decide) (by decide)
  intro t ht
  obtain ⟨⟨k, r⟩, he, rfl⟩ := List.mem_map.1 ht
  have hg : s.results.get? k = some r := by
    rw [← Dict.get?_sorted]
    exact SortedMap.mem_entries.1 he
  have hkey : Joined (text "- " ++ k) := by
    have hdash : ∀ c ∈ text "- ", isAscii c = true := List.all_eq_true.1 (by decide)
    apply joined_append (joined_of_ascii hdash) (hk k (Dict.mem_keys_of_get? hg))
    exact .inl fun c hc => hdash c (List.mem_of_mem_getLast? hc)
  apply joined_between hkey _ (by decide) (by decide)
  rw [orElseText]
  split
  · exact hnone
  · cases hf : r.finalResponse with
    | none => exact .nil
    | some response =>
      have hr := congrArg WorkResult.finalResponse (h.result_persisted hg)
      rw [WorkResult.persisted, hf] at hr
      exact joined_of_persisted (Option.some.inj hr)

theorem instructions (h : s.Unredacted) (hk : ∀ k ∈ s.results.keys, Joined k) (task : Text) :
    persistText (completionItem s task).instructions = (completionItem s task).instructions := by
  rw [completionItem]
  simp only
  generalize hasks : text (
      "Independently verify that the objective scope and required evidence are complete. " ++
      "Do not modify files. Report any missing verification explicitly.\n\n") = asks
  have hjoined : Joined asks := by
    rw [← hasks]
    exact joined_of_ascii (List.all_eq_true.1 (by decide +kernel))
  have hfirst : asks = 0x49 :: asks.tail := by
    rw [← hasks]
    decide +kernel
  have hobjective := joined_between hjoined (joined_of_persisted h.prompt)
    (by decide : text "Objective: " ≠ []) (by decide)
  have hall := joined_between hobjective (h.joined_summaries hk)
    (by decide : text "\n\nCompleted work:\n" ≠ []) (by decide)
  rw [hfirst] at hall ⊢
  exact persistText_of_capital hall

theorem completionItem (h : s.Unredacted) (hk : s.Keyed) (hr : ∀ k ∈ s.results.keys, Joined k)
    (ht : persistText task = task) :
    (GoalRouter.completionItem s task).persisted = GoalRouter.completionItem s task := by
  have hid : persistText completionId = completionId := by decide +kernel
  have htitle : persistText (text "Independent completion review") =
      text "Independent completion review" := by decide +kernel
  have hphase : persistText (text "completion") = text "completion" := by decide +kernel
  have hexpected : persistText (text "An independent completion decision with evidence.") =
      text "An independent completion decision with evidence." := by decide +kernel
  have hkeys : s.workItems.sorted.keys.map persistText = s.workItems.sorted.keys := by
    conv => rhs; rw [← List.map_id s.workItems.sorted.keys]
    apply List.map_congr_left
    intro k hm
    exact h.key hk (Dict.mem_sorted_keys.1 hm)
  have hinstructions := h.instructions hr task
  rw [GoalRouter.completionItem] at hinstructions ⊢
  rw [WorkItem.persisted]
  simp only [hid, htitle, hphase, hexpected, hkeys, ht, hinstructions]
  rfl

end RunState.Unredacted

/-- A stored run in which no item has failed. -/
structure RunState.Sound (s : RunState) : Prop where
  valid : s.Valid
  keyed : s.Keyed
  unblocked : s.newlyBlocked = []
  unredacted : s.Unredacted

theorem Objective.persisted_idem (o : Objective) : o.persisted.persisted = o.persisted := by
  simp only [persisted, persistText_idem, persistPath_idem, optionMap_idem persistText_idem]

theorem RepositoryContext.persisted_idem (r : RepositoryContext) :
    r.persisted.persisted = r.persisted := by
  have hfile (f : InstructionFile) : f.persisted.persisted = f.persisted := by
    simp only [InstructionFile.persisted, persistText_idem, persistPath_idem]
  have hcounts := map_idem (f := fun e : Text × Int => (persistText e.1, e.2))
    (fun e => by rw [persistText_idem]) r.languageCounts
  simp only [persisted, persistPath_idem, optionMap_idem persistText_idem,
    map_idem persistPath_idem, map_idem persistText_idem, map_idem hfile, hcounts]

theorem get?_persistDict_idem {f : α → α} (h : ∀ x, f (f x) = f x) (m : Dict Text α) (k : Text) :
    (persistDict f (persistDict f m)).get? k = (persistDict f m).get? k := by
  rw [get?_persistDict, get?_persistDict, optionMap_idem h]

theorem readerResult_persisted {r : WorkResult} (hr : r.persisted = r)
    (hi : persistText item.id = item.id) :
    (readerResult item (.ok r)).persisted = readerResult item (.ok r) := by
  have hp : (readerResult item (.ok r)).persisted =
      { r.persisted with workItemId := persistText item.id } := rfl
  rw [hp, hr, hi]
  rfl

namespace RunState

variable {s t : RunState}

theorem Equals.persisted (h : s.Equals t) : s.persisted.Equals t.persisted where
  schemaVersion := h.schemaVersion
  configurationDigest := congrArg persistText h.configurationDigest
  objective := congrArg Objective.persisted h.objective
  repository := congrArg RepositoryContext.persisted h.repository
  workItems k := by
    rw [RunState.persisted, RunState.persisted, get?_persistDict, get?_persistDict, h.workItems]
  routes k := by
    rw [RunState.persisted, RunState.persisted, get?_persistDict, get?_persistDict, h.routes]
  results k := by
    rw [RunState.persisted, RunState.persisted, get?_persistDict, get?_persistDict, h.results]
  approvals k := by
    rw [RunState.persisted, RunState.persisted, get?_persistDict, get?_persistDict, h.approvals]
  status := h.status

theorem persisted_equals (s : RunState) : s.persisted.persisted.Equals s.persisted where
  schemaVersion := rfl
  configurationDigest := persistText_idem _
  objective := s.objective.persisted_idem
  repository := s.repository.persisted_idem
  workItems := get?_persistDict_idem WorkItem.persisted_idem _
  routes := get?_persistDict_idem RouteDecision.persisted_idem _
  results := get?_persistDict_idem WorkResult.persisted_idem _
  approvals := get?_persistDict_idem ApprovalRecord.persisted_idem _
  status := rfl

theorem Attains.persisted (h : s.Attains host answer k r) (hs : s.Sound)
    (ha : ∀ t, (answer t).persisted = answer t) : r.persisted = r := by
  obtain ⟨item, hg, rfl⟩ := h.item
  have hid : persistText item.id = item.id :=
    congrArg WorkItem.id (hs.unredacted.item_persisted hg)
  have hsucceeded := h.succeeded
  rw [turnResult] at hsucceeded ⊢
  cases hd : GoalRouter.dispatchTurn host s item with
  | error e =>
    rw [hd] at hsucceeded
    cases hsucceeded
  | ok t => exact readerResult_persisted (ha t) hid

theorem Reaches.sound (h : s.Reaches host answer t) (hs : s.Sound)
    (ha : ∀ t, (answer t).persisted = answer t) : t.Sound := by
  have hresult (k : Text) (r : WorkResult) (hg : t.results.get? k = some r) :
      s.results.get? k = some r ∨ s.Attains host answer k r := by
    rcases h.results k with hs | ⟨r', hg', hr⟩
    · exact .inl (hs.symm.trans hg)
    · cases hg.symm.trans hg'
      exact .inr hr
  refine ⟨?_, h.keyed hs.keyed, h.newlyBlocked hs.unblocked, ⟨?_⟩⟩
  · have hv := hs.valid
    have hvalid : { s with results := t.results, status := t.status }.Valid := by
      refine ⟨hv.version, hv.aware, hv.keys, hv.ids, hv.routes, fun k r hg => ?_, fun k r hg => ?_,
        hv.approvals⟩
      · rcases hresult k r hg with hg | hr
        · exact hv.results k r hg
        · obtain ⟨item, hi, _⟩ := hr.item
          exact .inl (Dict.mem_keys_of_get? hi)
      · rcases hresult k r hg with hg | hr
        · exact hv.terminal k r hg
        · rw [hr.succeeded]
          rfl
    rw [h.rest]
    exact hvalid
  · have he := hs.unredacted.equals
    have hequals : { s with results := t.results, status := t.status }.persisted.Equals
        { s with results := t.results, status := t.status } := by
      refine ⟨he.1, he.2, he.3, he.4, he.5, he.6, fun k => ?_, he.8, rfl⟩
      rw [RunState.persisted, get?_persistDict]
      cases hg : t.results.get? k with
      | none => rfl
      | some r =>
        rcases hresult k r hg with hg | hr
        · exact congrArg some (hs.unredacted.result_persisted hg)
        · exact congrArg some (hr.persisted hs ha)
    rw [h.rest]
    exact hequals

/-- The completion item depends on what has succeeded. -/
theorem NeedsReview.dependency (h : s.NeedsReview)
    (hd : d ∈ (GoalRouter.completionItem s task).dependencies) : s.hasFailed d = false := by
  have hkey : d ∈ s.workItems.keys := Dict.mem_sorted_keys.1 hd
  have hne : d ≠ completionId := by
    rintro rfl
    have hc := Dict.contains_iff.2 hkey
    rw [h.missing] at hc
    cases hc
  obtain ⟨r, hr, hs⟩ := hasSucceeded_iff.1 ((baseWorkSucceeded_iff.1 h.succeeded).2 d hkey hne)
  rw [hasFailed, hr]
  show r.status.isDependencyFailure = false
  rw [hs]
  rfl

theorem Sound.persisted (h : s.Sound) : s.persisted.Sound where
  valid := h.valid.persisted
  keyed := h.unredacted.equals.symm.keyed h.keyed
  unblocked := h.unredacted.equals.newlyBlocked.trans h.unblocked
  unredacted := ⟨h.unredacted.equals.persisted⟩

theorem Sound.withCompletion (h : s.Sound) (hn : s.NeedsReview) (hd : decision.persisted = decision)
    (ht : persistText task = task) : (s.withCompletion task decision).Sound where
  valid := h.valid.appended task decision
  keyed := h.keyed.withCompletion task decision
  unblocked := by
    have hblocked := newlyBlocked_nil.1 h.unblocked
    apply newlyBlocked_nil.2
    intro item hp d hd
    show s.hasFailed d = false
    obtain ⟨k, hg, hu⟩ := mem_pendingItems.1 hp
    rw [RunState.withCompletion, Dict.get?_set] at hg
    split at hg
    · cases hg
      exact hn.dependency hd
    · exact hblocked item (mem_pendingItems.2 ⟨k, hg, hu⟩) d hd
  unredacted := by
    have he := h.unredacted.equals
    have hresults (k : Text) (hm : k ∈ s.results.keys) : Joined k := by
      obtain ⟨r, hr⟩ := Dict.mem_keys.1 hm
      rcases h.valid.results k r hr with hk | ⟨rfl, _⟩
      · exact (h.valid.keys k hk).joined
      · exact joined_of_ascii (List.all_eq_true.1 (by decide))
    have hitem := h.unredacted.completionItem h.keyed hresults ht
    refine ⟨he.1, he.2, he.3, he.4, fun k => ?_, fun k => ?_, he.7, he.8, rfl⟩
    · rw [RunState.persisted, get?_persistDict, RunState.withCompletion, Dict.get?_set]
      split
      · exact congrArg some hitem
      · rw [← get?_persistDict]
        exact he.workItems k
    · rw [RunState.persisted, get?_persistDict, RunState.withCompletion, Dict.get?_set]
      split
      · exact congrArg some hd
      · rw [← get?_persistDict]
        exact he.routes k

/-- The state is, but for the order of entries, one that the run comes to. -/
def Continues (host : Host) (answer : Turn → WorkResult) (config : RouterConfig)
    (s t : RunState) : Prop :=
  ∃ t', t'.Equals t ∧ s.Course host answer config t'

variable {config : RouterConfig} {u : RunState}

theorem Continues.refl (s : RunState) : s.Continues host answer config s :=
  ⟨s, .refl s, .work (.refl s)⟩

theorem Continues.congr (h : s.Continues host answer config t) (he : t.Equals u) :
    s.Continues host answer config u := by
  obtain ⟨t', ht, hc⟩ := h
  exact ⟨t', ht.trans he, hc⟩

theorem Continues.course (h : s.Continues host answer config t) (hk : s.Keyed)
    (hc : t.Course host answer config u) : s.Continues host answer config u := by
  obtain ⟨t', ht, hc'⟩ := h
  obtain ⟨u', hu, hc⟩ := hc.congr ht.symm
  exact ⟨u', hu, hc'.trans hk hc⟩

/-- The run has come to its end: `resume` finds nothing left to do. -/
structure Ends (host : Host) (answer : Turn → WorkResult) (config : RouterConfig)
    (s t : RunState) : Prop where
  continues : s.Continues host answer config t
  idle : t.dispatchable host = []
  reviewed : ¬t.NeedsReview
  status : t.finalStatus host = .ok t.status

theorem Ends.unique (hk : s.Keyed) (h : s.Ends host answer config t)
    (h' : s.Ends host answer config u) : t.Equals u := by
  obtain ⟨t', ht, hc⟩ := h.continues
  obtain ⟨u', hu, hc'⟩ := h'.continues
  have halike := hc.alike hk hc' (ht.dispatchable.trans h.idle) (hu.dispatchable.trans h'.idle)
    (fun hn => h.reviewed (ht.needsReview hn)) fun hn => h'.reviewed (hu.needsReview hn)
  have hu' : { u' with status := t'.status }.Equals { u with status := t'.status } :=
    ⟨hu.1, hu.2, hu.3, hu.4, hu.5, hu.6, hu.7, hu.8, rfl⟩
  have hall := (ht.symm.trans halike).trans hu'
  have hs : { u with status := t'.status }.finalStatus host = .ok u.status :=
    (finalStatus_status u t'.status).trans h'.status
  have hstatus := hall.finalStatus h.status hs
  exact ⟨hall.1, hall.2, hall.3, hall.4, hall.5, hall.6, hall.7, hall.8, hstatus⟩

end RunState

section Recovery

variable {app : Application host} {s₀ s : RunState}

/-- Whatever is read from the directory is a state that the run comes to. -/
def Recoverable (host : Host) (answer : Turn → WorkResult) (config : RouterConfig)
    (s₀ : RunState) (dir : RunDir) : Prop :=
  ∀ rid s, loadSync host rid dir = .ok s → s₀.Continues host answer config s ∧ s.Sound

theorem recoverable_snapshot {config : RouterConfig} (h : s₀.Continues host answer config s)
    (hs : s.Sound) : Recoverable host answer config s₀ (.snapshot (snapshotOf s)) := by
  intro rid s' hl
  rw [hs.valid.load hl]
  exact ⟨h.congr hs.unredacted.equals.symm, hs.persisted⟩

theorem storable {config : RouterConfig} (h : s₀.Continues host answer config s) (hk : s₀.Keyed)
    (hs : s.Sound) (ha : ∀ t, (answer t).persisted = answer t) :
    s.Storable host answer (Recoverable host answer config s₀) :=
  fun _ hr => recoverable_snapshot (h.course hk (.work hr)) (hr.sound hs ha)

/-- The program keeps the run recoverable. -/
abbrev Recovers (app : Application host) (answer : Turn → WorkResult) (s₀ : RunState)
    (Q : α → Prop) (p : Program α) : Prop :=
  Yields host answer (Recoverable host answer app.config s₀) Q p

/-- The completion item's route is stored as it is. -/
def Application.PlainReview (app : Application host) : Prop :=
  ∀ (s : RunState) decision,
    route host app.config (completionItem s app.config.completionTask) none = .ok decision →
      decision.persisted = decision

theorem loadRun_recovers (rid digest : Text) :
    Recovers app answer s₀
      (fun s => (s₀.Continues host answer app.config s ∧ s.Sound) ∧ s.configurationDigest = digest)
      (loadRun host rid (some digest) false) := by
  apply (Yields.keeps (Prog.Only.ofExcept _)).bind
  intro _ _
  have hload : Recovers app answer s₀
      (fun s : RunState => s₀.Continues host answer app.config s ∧ s.Sound)
      (invoke (.load rid)) := by
    intro w hw
    apply Prog.Safe.invoke
    intro r w' hn
    cases hn.next with
    | raises => exact ⟨hw, hw⟩
    | loaded hr hl => exact ⟨hw, hw rid _ hl, hw⟩
  apply hload.bind
  intro s hs
  simp only
  split
  · intro w hw
    exact hw
  · rename_i hd
    refine Yields.pure ⟨hs, ?_⟩
    simpa using hd

theorem writeReport_keepsDir (s : RunState) : KeepsDir (writeReport host s) := by
  apply (Prog.Only.ofExcept _).bind
  intro _
  apply Prog.Only.bind
  · apply (Prog.Only.ofExcept _).bind
    exact fun _ => Prog.Only.invoke rfl
  · exact fun _ => trivial

theorem runReady_recovers (h : s₀.Continues host answer app.config s) (hk : s₀.Keyed)
    (hs : s.Sound) (ha : ∀ t, (answer t).persisted = answer t) :
    Recovers app answer s₀
      (fun s' => (s₀.Continues host answer app.config s' ∧ s'.Sound) ∧
        s'.workItems = s.workItems ∧ s'.dispatchable host = [] ∧
          s'.finalStatus host = .ok s'.status)
      (runReady host app.maxReadConcurrency s) := by
  apply (runReady_yields (storable h hk hs ha) _ (maxReadConcurrency_pos app) hs.keyed
    hs.unblocked).mono
  rintro s' ⟨hr, hd, hf⟩
  exact ⟨⟨h.course hk (.work hr), hr.sound hs ha⟩, hr.workItems, hd, hf⟩

theorem route_task {config : RouterConfig} (h : route host config item none = .ok decision) :
    decision.task = item.task := by
  obtain ⟨⟨name, source, reason⟩, hselect, h⟩ := bind_ok h
  cases selectTask_planned hselect
  simp only at h
  cases hp : config.tasks.get? item.task with
  | none =>
    rw [hp] at h
    cases h
  | some policy =>
    rw [hp] at h
    obtain ⟨_, _, h⟩ := bind_ok h
    obtain ⟨original, _, h⟩ := bind_ok h
    obtain ⟨floor, _, h⟩ := bind_ok h
    split at h
    · cases h
      rfl
    · cases h

/-- The completion item is stored with the run, or the run is as it was. -/
theorem appendCompletion_recovers (h : s₀.Continues host answer app.config s) (hk : s₀.Keyed)
    (hs : s.Sound) (hp : app.PlainReview) (hn : s.NeedsReview) (hd : s.dispatchable host = []) :
    Recovers app answer s₀
      (fun s' => (s₀.Continues host answer app.config s' ∧ s'.Sound) ∧ s'.results = s.results ∧
        s'.workItems.contains completionId = true)
      (app.appendCompletion s) := by
  intro w hw
  rw [Application.appendCompletion]
  apply Prog.Safe.bind (Q := fun decision w' => route host app.config
    (completionItem s app.config.completionTask) none = .ok decision ∧
      Recoverable host answer app.config s₀ w'.dir)
  · exact Prog.Safe.ofExcept (fun _ h => ⟨h, hw⟩) fun _ _ => hw
  rintro decision w ⟨hr, hw⟩
  have hdecision := hp s decision hr
  have htask : persistText app.config.completionTask = app.config.completionTask := by
    have ht := congrArg RouteDecision.task hdecision
    rw [RouteDecision.persisted, route_task hr] at ht
    exact ht
  have hsound := hs.withCompletion hn hdecision htask
  have hcourse := h.course hk (.review (.refl s) hd hn hr (.refl _))
  have hsaved := recoverable_snapshot hcourse hsound
  refine (?_ : Recovers app answer s₀ _ _) w hw
  apply (saveRun_yields hsaved).bind
  intro _ _
  apply (Yields.keeps (recordEvent_records _ _ _ _).consults.keepsDir).bind
  intro _ _
  exact Yields.pure ⟨⟨hcourse, hsound⟩, rfl, RunState.contains_withCompletion s _ decision⟩

theorem not_reviewed (h : s.workItems.contains completionId = true) : ¬s.NeedsReview := by
  intro hn
  rw [hn.missing] at h
  cases h

theorem results_missing (hs : s.Valid) (h : s.workItems.contains completionId = false) :
    s.results.contains completionId = false := by
  rw [← Bool.not_eq_true, Dict.contains_iff] at h ⊢
  intro hm
  obtain ⟨r, hr⟩ := Dict.mem_keys.1 hm
  rcases hs.results completionId r hr with hk | ⟨he, _⟩
  · exact h hk
  · exact absurd he (by decide)

theorem reviewCompletion_recovers (h : s₀.Continues host answer app.config s) (hk : s₀.Keyed)
    (hs : s.Sound) (ha : ∀ t, (answer t).persisted = answer t) (hp : app.PlainReview)
    (ho : s.objective.explicitTask = none) (hb : s.baseWorkSucceeded = true)
    (hd : s.dispatchable host = []) (hf : s.finalStatus host = .ok s.status) :
    Recovers app answer s₀ (fun s' => s₀.Ends host answer app.config s')
      (app.reviewCompletion s) := by
  have hready {s' : RunState} (h' : s₀.Continues host answer app.config s') (hs' : s'.Sound)
      (hn : s'.workItems.contains completionId = true) :
      Recovers app answer s₀ (fun s' => s₀.Ends host answer app.config s')
        (runReady host app.maxReadConcurrency s') := by
    apply (runReady_recovers h' hk hs' ha).mono
    rintro s'' ⟨⟨h'', _⟩, hi, hd, hf⟩
    exact ⟨h'', hd, not_reviewed (hi ▸ hn), hf⟩
  rw [Application.reviewCompletion]
  cases hc : s.workItems.contains completionId with
  | true =>
    simp only [↓reduceIte, pure_bind]
    split
    · exact Yields.pure ⟨h, hd, not_reviewed hc, hf⟩
    · exact hready h hs hc
  | false =>
    simp only [Bool.false_eq_true, ↓reduceIte]
    apply (appendCompletion_recovers h hk hs hp ⟨ho, hb, hc⟩ hd).bind
    rintro s' ⟨⟨h', hs'⟩, hresults, hn⟩
    rw [hresults, results_missing hs.valid hc]
    exact hready h' hs' hn

theorem continueRun_recovers (h : s₀.Continues host answer app.config s) (hk : s₀.Keyed)
    (hs : s.Sound) (ha : ∀ t, (answer t).persisted = answer t) (hp : app.PlainReview) :
    Recovers app answer s₀ (fun s' => s₀.Ends host answer app.config s') (app.continueRun s) := by
  have hreport {s : RunState} (hs : s₀.Ends host answer app.config s) :
      Recovers app answer s₀ (fun s' => s₀.Ends host answer app.config s')
        (do let _ ← writeReport host s; return s) := by
    apply (Yields.keeps (writeReport_keepsDir s)).bind
    exact fun _ _ => Yields.pure hs
  apply (runReady_recovers h hk hs ha).bind
  rintro s₁ ⟨⟨h₁, hs₁⟩, _, hd, hf⟩
  simp only
  split
  · rename_i hc
    apply (reviewCompletion_recovers h₁ hk hs₁ ha hp hc.1 hc.2 hd hf).bind
    exact fun _ hs => hreport hs
  · rename_i hc
    exact hreport ⟨h₁, hd, fun hn => hc ⟨hn.objective, hn.succeeded⟩, hf⟩

/-- Wherever a `resume` stops, what it leaves behind can be resumed; one that returns has come to
the run's end. -/
theorem resume_recovers (rid : Text) (hk : s₀.Keyed) (ha : ∀ t, (answer t).persisted = answer t)
    (hp : app.PlainReview) :
    Recovers app answer s₀ (fun s => s₀.Ends host answer app.config s) (app.resume rid false) := by
  apply (Yields.keeps (Prog.Only.ofExcept _)).bind
  intro _ _
  apply (Yields.keeps (Prog.Only.invoke rfl)).bind
  intro _ _
  refine Yields.ensure ?_ (Prog.Only.invoke rfl)
  apply (loadRun_recovers rid app.config.digest).bind
  rintro s ⟨⟨h, hs⟩, hd⟩
  rw [Application.acknowledgeChange, if_neg (not_not.2 hd)]
  apply (Yields.pure (Q := fun s' => s' = s) rfl).bind
  rintro _ rfl
  apply (Yields.keeps (validateModelInventory_records app).consults.keepsDir).bind
  exact fun _ _ => continueRun_recovers h hk hs ha hp

/-- Processes that resume the run one after the other; each returns, raises, or dies at some
point. -/
inductive Resumed (host : Host) (answer : Turn → WorkResult) (app : Application host) :
    World → World → Prop where
  | none : Resumed host answer app w w
  | process (h : Resumed host answer app w w₁)
      (hs : Prog.Steps (Answering host answer) (app.resume w₁.runId false)
        (w₁.begin app.config) p w₂) : Resumed host answer app w w₂

theorem Resumed.recoverable (h : Resumed host answer app w w') (hk : s₀.Keyed)
    (ha : ∀ t, (answer t).persisted = answer t) (hp : app.PlainReview)
    (hw : Recoverable host answer app.config s₀ w.dir) :
    Recoverable host answer app.config s₀ w'.dir := by
  induction h with
  | none => exact hw
  | @process w₁ _ _ _ hs ih =>
    exact ((resume_recovers w₁.runId hk ha hp (w₁.begin app.config) ih).steps ih hs).1

/-- What is read of a run is sound, as long as its items bear their ids and none has failed. -/
theorem Reachable.sound (h : Reachable host w) (hl : loadSync host w.runId w.dir = .ok s)
    (hk : s.Keyed) (hb : s.newlyBlocked = []) : s.Sound := by
  obtain ⟨_, hw⟩ := h.alive
  obtain ⟨s', hv, hl'⟩ := ((valid_invariant host).holds hw).load hl
  have hs := hv.load hl'
  subst hs
  refine ⟨hv.persisted, hk, hb, ⟨?_⟩⟩
  exact s'.persisted_equals

/-- A run that is resumed after any number of interrupted processes ends as one that was never
interrupted. -/
theorem resume_crash_transparent {w₀ w w₁ w₂ : World} {t t' : RunState} (h : Reachable host w₀)
    (hl : loadSync host w₀.runId w₀.dir = .ok s) (hk : s.Keyed) (hb : s.newlyBlocked = [])
    (ha : ∀ t, (answer t).persisted = answer t) (hp : app.PlainReview)
    (hi : Resumed host answer app w₀ w)
    (hr : Prog.Steps (Answering host answer) (app.resume w.runId false) (w.begin app.config)
      (.pure t) w₁)
    (hr' : Prog.Steps (Answering host answer) (app.resume w₀.runId false) (w₀.begin app.config)
      (.pure t') w₂) : t.Equals t' := by
  have hsound := h.sound hl hk hb
  have hdir : Recoverable host answer app.config s w₀.dir := by
    intro rid s' hl'
    obtain ⟨raw, hd, hs⟩ := loadSync_ok hl
    obtain ⟨raw', hd', hs'⟩ := loadSync_ok hl'
    cases hd.symm.trans hd'
    cases hs.symm.trans hs'
    exact ⟨.refl s, hsound⟩
  have hends {w w' : World} {t : RunState} (hw : Recoverable host answer app.config s w.dir)
      (hr : Prog.Steps (Answering host answer) (app.resume w.runId false) (w.begin app.config)
        (.pure t) w') : s.Ends host answer app.config t :=
    ((resume_recovers w.runId hk ha hp (w.begin app.config) hw).returns hw hr).2.1
  exact RunState.Ends.unique hk (hends (hi.recoverable hk ha hp hdir) hr) (hends hdir hr')

end Recovery

section Sample

/-- A world of diligent turns whose results are stored as they are; its process may die. -/
def mortalScript (dies : Call → Bool) : Script :=
  { diligentScript with
    dies := fun _ c => match c with
      | .awaitTurn _ (t :: _) => decide ((diligentAnswer t).persisted ≠ diligentAnswer t)
      | c => dies c }

def storedAnswer (t : Turn) : WorkResult := (diligentAnswer t).persisted

theorem mortalScript_answering {dies : Call → Bool} {w w' : World} {c : Call}
    {r : Except PyError (Val c)} (h : (mortalScript dies).answer host w c = some (r, w')) :
    Answering host storedAnswer w c r w' := by
  have hn := (mortalScript dies).answer_next host h
  rw [Script.answer] at h
  split at h
  · cases h
  rename_i hd
  have hanswer : diligentScript.answer host w c = some (r, w') := h
  have ha := diligentScript_answering hanswer
  cases ha with
  | other _ hc => exact .other hn hc
  | @turn b running t _ ht =>
    have hstored : storedAnswer t = diligentAnswer t := by
      cases running with
      | nil => cases h
      | cons t' running =>
        cases h
        rw [storedAnswer]
        simpa [mortalScript] using hd
    rw [← hstored] at hn ⊢
    exact .turn hn

/-- The process dies once a result is stored, before it is recorded in the event log. -/
def finishes : Call → Bool
  | .appendEvent _ e => e.finishes
  | _ => false

/-- A run that was planned and no more. -/
def plannedWorld : World :=
  (sampleScript singlePlan []).session plainApplication (.planObjective samplePath (text "Go") none)
    sampleWorld

theorem plannedWorld_reachable : Reachable sampleHost plannedWorld :=
  (sampleScript singlePlan []).session_reachable _ _ sampleWorld_reachable

def resumeFrom (dies : Call → Bool) (w : World) : Program RunState × World :=
  (plainApplication.resume w.runId false).exec ((mortalScript dies).answer sampleHost)
    (w.begin plainApplication.config)

theorem resumeFrom_steps (dies : Call → Bool) (w : World) :
    Prog.Steps (Answering sampleHost storedAnswer) (plainApplication.resume w.runId false)
      (w.begin plainApplication.config) (resumeFrom dies w).1 (resumeFrom dies w).2 := by
  apply Prog.exec_steps
  exact fun _ _ _ _ h => mortalScript_answering h

theorem plainApplication_plainReview : plainApplication.PlainReview := by
  intro s decision hr
  have hroute : (route sampleHost plainApplication.config
      (completionItem fanState plainApplication.config.completionTask) none).toOption.map
        (fun d => decide (d.persisted = d)) = some true := by decide +kernel
  rw [route_completionItem _ fanState s, hr] at hroute
  exact of_decide_eq_true (Option.some.inj hroute)

/-- A process that died half way changes nothing of how the run ends. -/
theorem planned_crash_transparent : ∃ t t',
    (resumeFrom finishes plannedWorld).1.outcome? = none ∧
      (resumeFrom (fun _ => false) (resumeFrom finishes plannedWorld).2).1.value? = some t ∧
      (resumeFrom (fun _ => false) plannedWorld).1.value? = some t' ∧ t.Equals t' := by
  have hfacts : (resumeFrom finishes plannedWorld).1.outcome?.isNone = true ∧
      (resumeFrom (fun _ => false) (resumeFrom finishes plannedWorld).2).1.value?.isSome = true ∧
      (resumeFrom (fun _ => false) plannedWorld).1.value?.isSome = true ∧
      ((loadSync sampleHost plannedWorld.runId plannedWorld.dir).toOption.map fun s =>
        s.workItems.entries.all (fun e => e.2.id = e.1) && s.newlyBlocked = []) = some true := by
    decide +kernel
  obtain ⟨hdied, hagain, honce, hloads⟩ := hfacts
  obtain ⟨t, ht⟩ := Option.isSome_iff_exists.1 hagain
  obtain ⟨t', ht'⟩ := Option.isSome_iff_exists.1 honce
  cases hl : loadSync sampleHost plannedWorld.runId plannedWorld.dir with
  | error e =>
    rw [hl] at hloads
    cases hloads
  | ok s =>
    rw [hl] at hloads
    have hs := Option.some.inj hloads
    simp only [Bool.and_eq_true, List.all_eq_true, decide_eq_true_eq] at hs
    have hkeyed : s.Keyed := fun k item hk => hs.1 (k, item) (Dict.mem_entries.2 hk)
    have hr := resumeFrom_steps (fun _ => false) (resumeFrom finishes plannedWorld).2
    have hr' := resumeFrom_steps (fun _ => false) plannedWorld
    rw [Prog.value?_eq_some.1 ht] at hr
    rw [Prog.value?_eq_some.1 ht'] at hr'
    refine ⟨t, t', Option.isNone_iff_eq_none.1 hdied, ht, ht', ?_⟩
    exact resume_crash_transparent plannedWorld_reachable hl hkeyed hs.2
      (fun t => (diligentAnswer t).persisted_idem) plainApplication_plainReview
      (.process .none (resumeFrom_steps finishes plannedWorld)) hr hr'

end Sample

end GoalRouter
