import GoalRouter.DependencyOrder

namespace GoalRouter
open Library
set_option autoImplicit true

namespace RunState

/-- Every item is stored under its own id. -/
def Keyed (s : RunState) : Prop := ∀ k item, s.workItems.get? k = some item → item.id = k

/-- What the item under a key depends on. -/
def dependenciesOf (s : RunState) (k : Text) : List Text :=
  ((s.workItems.get? k).map WorkItem.dependencies).getD []

/-- An item depends on another one, or on one that depends on it. -/
abbrev DependsOn (s : RunState) : Text → Text → Prop :=
  Relation.TransGen fun k d => d ∈ s.dependenciesOf k

/-- The dependencies of a run's items are among its items, and form no cycle. -/
def IsAcyclic (s : RunState) : Prop :=
  ∃ order, TopologicalOrder s.dependenciesOf order ∧ order.Nodup ∧
    ∀ k, k ∈ order ↔ k ∈ s.workItems.keys

/-- A run whose graph is what it was when it was planned. -/
structure Intact (s : RunState) : Prop where
  ordered : s.Ordered
  acyclic : s.IsAcyclic
  results : ∀ k ∈ s.results.keys, k ∈ s.workItems.keys

variable {s : RunState}

theorem mem_dependenciesOf : d ∈ s.dependenciesOf k ↔
    ∃ item, s.workItems.get? k = some item ∧ d ∈ item.dependencies := by
  rw [dependenciesOf]
  cases s.workItems.get? k <;> simp

namespace IsAcyclic

theorem persisted (h : s.IsAcyclic) (ho : s.Ordered)
    (hplain : ∀ k ∈ s.workItems.keys, persistText k = k) : s.persisted.IsAcyclic := by
  obtain ⟨order, ht, hn, hk⟩ := h
  refine ⟨order, ht.mono fun k _ d hd => ?_, hn, fun k => ?_⟩
  · obtain ⟨item, hg, hd⟩ := mem_dependenciesOf.1 hd
    rw [RunState.persisted, get?_persistDict, Option.map_eq_some_iff] at hg
    obtain ⟨item, hg, rfl⟩ := hg
    obtain ⟨d₀, hd₀, rfl⟩ := List.mem_map.1 hd
    rw [hplain d₀ (ho.closed k item hg d₀ hd₀)]
    exact mem_dependenciesOf.2 ⟨item, hg, hd₀⟩
  · rw [hk, mem_workItems_persisted]

theorem appended (h : s.IsAcyclic) (hn : completionId ∉ s.workItems.keys) (task : Text)
    (decision : RouteDecision) : (s.withCompletion task decision).IsAcyclic := by
  obtain ⟨order, ht, hd, hk⟩ := h
  have hc : completionId ∉ order := mt (hk _).1 hn
  refine ⟨completionId :: order, .cons (ht.mono fun k hm d hd => ?_) fun d hd => ?_,
    List.nodup_cons.2 ⟨hc, hd⟩, fun k => ?_⟩
  · have hne : k ≠ completionId := by
      rintro rfl
      exact hc hm
    rwa [dependenciesOf, withCompletion, Dict.get?_set_of_ne _ _ hne] at hd
  · rw [dependenciesOf, withCompletion, Dict.get?_set_self] at hd
    exact (hk d).2 (Dict.mem_sorted_keys.1 hd)
  · rw [List.mem_cons, withCompletion, Dict.mem_keys_set, hk]

end IsAcyclic

theorem Intact.congr {s' : RunState} (h : s.Intact) (hw : s'.workItems = s.workItems)
    (hr : s'.results = s.results) : s'.Intact := by
  cases s
  cases s'
  cases hw
  cases hr
  exact ⟨⟨h.ordered.ids, h.ordered.closed, h.ordered.justified⟩, h.acyclic, h.results⟩

/-- Where a reloaded item still bears its id, all ids were persisted as they are. -/
theorem Keyed.plain (h : s.persisted.Keyed) (hv : s.Valid) :
    s.Keyed ∧ ∀ k ∈ s.workItems.keys, persistText k = k := by
  have hitem {k : Text} {item : WorkItem} (hk : s.workItems.get? k = some item) :
      item.id = k ∧ persistText k = k := by
    have hp : s.persisted.workItems.get? k = some item.persisted := by
      rw [RunState.persisted, get?_persistDict, hk]
      rfl
    have hid : persistText item.id = k := h k _ hp
    rcases hv.ids k item hk with he | he
    · exact ⟨he, he ▸ hid⟩
    · rw [he, persistText_redacted] at hid
      exact absurd hid.symm (hv.keys k (Dict.mem_keys_of_get? hk)).ne_redacted
  refine ⟨fun k item hk => (hitem hk).1, fun k hk => ?_⟩
  obtain ⟨item, hk⟩ := Dict.mem_keys.1 hk
  exact (hitem hk).2

end RunState

theorem PlannedGraph.isAcyclic {config : RouterConfig} {items : List WorkItem} {s : RunState}
    (h : PlannedGraph config items)
    (hs : s.workItems = Dict.ofList (items.map fun item => (item.id, item))) : s.IsAcyclic := by
  obtain ⟨order, ht, hn, hm⟩ := h.ordered
  have hkeys : s.workItems.keys = items.map WorkItem.id := by
    rw [hs, keys_itemTable h.distinct]
  have hdeps (k d : Text) (hd : d ∈ s.dependenciesOf k) :
      d ∈ below (dependencyTable items) k ∧ d ∈ s.workItems.keys := by
    obtain ⟨item, hg, hdi⟩ := RunState.mem_dependenciesOf.1 hd
    rw [hs, get?_itemTable h.distinct] at hg
    obtain ⟨hi, rfl⟩ := hg
    rw [below_dependencyTable h.distinct hi, hkeys]
    exact ⟨hdi, h.closed item hi d hdi⟩
  refine ⟨order.filter (· ∈ s.workItems.keys), ?_, hn.filter _, fun k => ?_⟩
  · apply (ht.mono fun k _ d hd => (hdeps k d hd).1).filter
    exact fun k _ d hd => decide_eq_true (hdeps k d hd).2
  · rw [List.mem_filter, decide_eq_true_iff, and_iff_right_iff_imp, hkeys]
    intro hk
    obtain ⟨item, hi, rfl⟩ := List.mem_map.1 hk
    exact hm item hi

theorem Fresh.intact {app : Application host} (h : Fresh app s) : s.Intact where
  ordered := h.ordered
  acyclic := by
    cases h with
    | planned hp => exact (parseAndValidate_ok hp).isAcyclic rfl
    | @explicit task prompt paths item decision repository objective he ho ht =>
      have hnone : item.dependencies = [] := by
        rw [Application.explicitItem] at he
        obtain ⟨_, _, he⟩ := bind_ok he
        cases he
        rfl
      refine ⟨[item.id], .cons .nil fun d hd => ?_, List.nodup_singleton _, fun _ => Iff.rfl⟩
      obtain ⟨item', hg, hd⟩ := RunState.mem_dependenciesOf.1 hd
      cases List.mem_singleton.1 (Dict.mem_entries.2 hg)
      rwa [hnone] at hd
  results := by
    rw [h.results]
    exact fun _ hk => absurd hk List.not_mem_nil

theorem intact_invariant (host : Host) :
    ValidInvariant host fun _ s => s.Keyed → s.Intact where
  event _ h := h
  landed _ h := h
  fresh _ hf _ _ := hf.intact
  loaded {_ s _ _} hv h hl hk := by
    have hs := hv.load hl
    subst hs
    obtain ⟨hk₀, hp⟩ := RunState.Keyed.plain hk hv
    have hi := h hk₀
    refine ⟨hi.ordered.persisted hp, hi.acyclic.persisted hi.ordered hp, fun k hr => ?_⟩
    exact mem_keys_persistDict.2 (hi.results k (mem_keys_persistDict.1 hr))
  approved _ _ _ _ h ha hk := by
    obtain ⟨_, _, _, _, _, _, _, _, _, _, rfl⟩ := approve_ok ha
    exact (h hk).congr rfl rfl
  adopted _ _ _ h ha hk := by
    obtain ⟨_, rfl, _⟩ := RunState.adoptCurrentConfiguration_ok ha
    exact (h hk).congr rfl rfl
  blocked _ h hb hk := by
    obtain ⟨k, hg, hu, hf⟩ := hb
    have hi := h hk
    have hid := hk k _ hg
    subst hid
    refine ⟨hi.ordered.withResult hg hu hf, hi.acyclic, fun k hr => ?_⟩
    rcases Dict.mem_keys_set.1 hr with rfl | hr
    · exact Dict.mem_keys_of_get? hg
    · exact hi.results k hr
  finished _ h hf hk := by
    have hi := h hk
    have hid := hf.subject
    refine ⟨hi.ordered.withResult (hid ▸ hf.stored) (hid ▸ hf.unfinished) ?_, hi.acyclic,
      fun k hr => ?_⟩
    · rcases hf.terminal with hs | hs <;> simp only [RunState.isJustified, hs] <;> exact hf.ready
    · rcases Dict.mem_keys_set.1 hr with rfl | hr
      · exact hid ▸ Dict.mem_keys_of_get? hf.stored
      · exact hi.results k hr
  statusSet _ h _ hk := (h hk).congr rfl rfl
  concluded _ h _ _ hk := (h hk).congr rfl rfl
  appended {_ s _} app _ hv h _ _ hn _ hk := by
    have hk₀ : s.Keyed := by
      intro k item hg
      apply hk k item
      have hne : k ≠ completionId := by
        rintro rfl
        exact hn (Dict.mem_keys_of_get? hg)
      rwa [RunState.withCompletion, Dict.get?_set_of_ne _ _ hne]
    have hi := h hk₀
    refine ⟨hi.ordered.appended hv hn _ _, hi.acyclic.appended hn _ _, fun k hr => ?_⟩
    exact Dict.mem_keys_set.2 (.inr (hi.results k hr))

end GoalRouter
