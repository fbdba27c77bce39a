import GoalRouter.PlanValidation

namespace GoalRouter
open Library
set_option autoImplicit true

/-- What an item depends on, by the table of a plan. -/
def below (dependencies : Dict Text (List Text)) (id : Text) : List Text :=
  (dependencies.get? id).getD []

/-- What a visit keeps: an order of the items visited, and the items above left out. -/
structure Visited (dependencies : Dict Text (List Text)) (visiting before after : List Text) :
    Prop where
  order : TopologicalOrder (below dependencies) after
  nodup : after.Nodup
  kept : ∀ k ∈ before, k ∈ after
  added : ∀ k ∈ after, k ∈ before ∨ k ∉ visiting

theorem foldlM_visited {dependencies : Dict Text (List Text)} {visiting : List Text}
    {step : List Text → Text → Except PyError (List Text)}
    (hstep : ∀ id before after, step before id = .ok after →
      TopologicalOrder (below dependencies) before → before.Nodup →
      Visited dependencies visiting before after ∧ id ∈ after)
    {ids before after : List Text} (h : ids.foldlM step before = .ok after)
    (ho : TopologicalOrder (below dependencies) before) (hn : before.Nodup) :
    Visited dependencies visiting before after ∧ ∀ id ∈ ids, id ∈ after := by
  induction ids generalizing before with
  | nil =>
    cases h
    exact ⟨⟨ho, hn, fun _ hk => hk, fun _ hk => .inl hk⟩, fun _ hk => absurd hk List.not_mem_nil⟩
  | cons id ids ih =>
    rw [List.foldlM_cons] at h
    cases hs : step before id with
    | error e =>
      rw [hs] at h
      cases h
    | ok middle =>
      rw [hs, ok_bind] at h
      obtain ⟨hv, hid⟩ := hstep id before middle hs ho hn
      obtain ⟨hv', hids⟩ := ih h hv.order hv.nodup
      refine ⟨⟨hv'.order, hv'.nodup, fun k hk => hv'.kept k (hv.kept k hk), ?_⟩, ?_⟩
      · intro k hk
        rcases hv'.added k hk with hm | hm
        · exact hv.added k hm
        · exact .inr hm
      · intro k hk
        rcases List.mem_cons.1 hk with rfl | hk
        · exact hv'.kept k hid
        · exact hids k hk

theorem visit_ok {host : Host} {dependencies : Dict Text (List Text)} {depth : Nat}
    {visiting before after : List Text} {id : Text}
    (h : visit host dependencies depth visiting before id = .ok after)
    (ho : TopologicalOrder (below dependencies) before) (hn : before.Nodup) :
    Visited dependencies visiting before after ∧ id ∈ after := by
  induction depth generalizing visiting before after id with
  | zero => cases h
  | succ depth ih =>
    rw [visit] at h
    by_cases hvis : id ∈ visiting
    · rw [if_pos hvis] at h
      cases h
    · rw [if_neg hvis] at h
      by_cases hdone : id ∈ before
      · rw [if_pos hdone] at h
        cases h
        exact ⟨⟨ho, hn, fun _ hk => hk, fun _ hk => .inl hk⟩, hdone⟩
      · rw [if_neg hdone] at h
        cases hget : dependencies.get? id with
        | none =>
          simp only [hget] at h
          cases h
        | some deps =>
          simp only [hget] at h
          cases hf : deps.foldlM (visit host dependencies depth (id :: visiting)) before with
          | error e =>
            have he : (Except.error e >>= fun visited : List Text =>
              (Except.ok (id :: visited) : Except PyError (List Text))) = .ok after := by
              rw [← hf]
              exact h
            cases he
          | ok middle =>
            have he : (Except.ok middle >>= fun visited : List Text =>
              (Except.ok (id :: visited) : Except PyError (List Text))) = .ok after := by
              rw [← hf]
              exact h
            cases he
            obtain ⟨hv, hdeps⟩ := foldlM_visited
              (fun id before after hs ho hn => ih hs ho hn) hf ho hn
            have hid : id ∉ middle := by
              intro hm
              rcases hv.added id hm with hb | hv
              · exact hdone hb
              · exact hv List.mem_cons_self
            have hbelow : ∀ d ∈ below dependencies id, d ∈ middle := by
              rw [below, hget]
              exact hdeps
            refine ⟨⟨.cons hv.order hbelow, List.nodup_cons.2 ⟨hid, hv.nodup⟩, ?_, ?_⟩,
              List.mem_cons_self⟩
            · exact fun k hk => List.mem_cons_of_mem _ (hv.kept k hk)
            · intro k hk
              rcases List.mem_cons.1 hk with rfl | hk
              · exact .inr hvis
              · rcases hv.added k hk with hb | hv
                · exact .inl hb
                · exact .inr fun hm => hv (List.mem_cons_of_mem _ hm)

theorem rejectCycles_ok {host : Host} {items : List WorkItem} {order : List Text}
    (h : rejectCycles host items = .ok order) :
    TopologicalOrder (below (dependencyTable items)) order ∧ order.Nodup ∧
      ∀ item ∈ items, item.id ∈ order := by
  obtain ⟨hv, hids⟩ := foldlM_visited (fun _ _ _ hs ho hn => visit_ok hs ho hn) h .nil .nil
  exact ⟨hv.order, hv.nodup, fun item hi => hids _ (List.mem_map_of_mem hi)⟩

theorem below_dependencyTable {items : List WorkItem} (hn : (items.map WorkItem.id).Nodup)
    (hi : item ∈ items) : below (dependencyTable items) item.id = item.dependencies := by
  have hids : (items.map fun item => (item.id, item.dependencies)).map Prod.fst =
      items.map WorkItem.id := by
    rw [List.map_map]
    rfl
  have hg : (dependencyTable items).get? item.id = some item.dependencies := by
    rw [← Dict.mem_entries, dependencyTable, Dict.ofList_entries (hids ▸ hn)]
    exact List.mem_map.2 ⟨item, hi, rfl⟩
  rw [below, hg]
  rfl

open PlannerField

theorem parseWorkItem_ok {host : Host} {config : RouterConfig} {project : PurePath}
    {seen : List Text} {index : Nat} {value : Json} {item : WorkItem}
    (h : parseWorkItem host config project seen index value = .ok item) :
    ∃ raw, value = .obj raw ∧ string raw (text "id") = .ok item.id ∧ item.id ∉ seen ∧
      config.tasks.contains item.task = true ∧
      (item.access = .workspaceWrite → item.verification ≠ []) := by
  rw [parseWorkItem] at h
  obtain ⟨raw, hraw, h⟩ := bind_ok h
  obtain ⟨id, hid, h⟩ := bind_ok h
  split at h
  · cases h
  · rename_i hseen
    obtain ⟨task, _, h⟩ := bind_ok h
    split at h
    · cases h
    · rename_i htask
      obtain ⟨access, _, h⟩ := bind_ok h
      obtain ⟨verification, _, h⟩ := bind_ok h
      split at h
      · cases h
      · rename_i hverified
        obtain ⟨rawPaths, _, h⟩ := bind_ok h
        obtain ⟨affectedPaths, _, h⟩ := bind_ok h
        obtain ⟨title, _, h⟩ := bind_ok h
        obtain ⟨instructions, _, h⟩ := bind_ok h
        obtain ⟨phase, _, h⟩ := bind_ok h
        obtain ⟨dependencies, _, h⟩ := bind_ok h
        obtain ⟨expectedResult, _, h⟩ := bind_ok h
        obtain ⟨confidence, _, h⟩ := bind_ok h
        obtain ⟨riskFlags, _, h⟩ := bind_ok h
        cases h
        refine ⟨raw, ?_, hid, hseen, ?_, ?_⟩
        · cases value <;> cases hraw
          rfl
        · simpa using htask
        · intro (ha : access = _) (hv : verification = [])
          exact hverified (by simp [ha, hv])

/-- The shape of a plan that passed validation. -/
structure PlannedGraph (config : RouterConfig) (items : List WorkItem) : Prop where
  nonempty : items ≠ []
  distinct : (items.map WorkItem.id).Nodup
  identifiers : ∀ item ∈ items, searchIdentifier item.id = true
  configured : ∀ item ∈ items, config.tasks.contains item.task = true
  verified : ∀ item ∈ items, item.access = .workspaceWrite → item.verification ≠ []
  closed : ∀ item ∈ items, ∀ d ∈ item.dependencies, d ∈ items.map WorkItem.id
  ordered : ∃ order, TopologicalOrder (below (dependencyTable items)) order ∧ order.Nodup ∧
    ∀ item ∈ items, item.id ∈ order

theorem parseWorkItems_ok {host : Host} {config : RouterConfig} {project : PurePath}
    {seen : List Text} {index : Nat} {values : List Json} {items : List WorkItem}
    (h : parseWorkItems host config project seen index values = .ok items)
    (hs : ∀ value ∈ values, PlannerSchema.workItem.accepts value = true) :
    items.length = values.length ∧ (items.map WorkItem.id).Nodup ∧
      ∀ item ∈ items, item.id ∉ seen ∧ searchIdentifier item.id = true ∧
        config.tasks.contains item.task = true ∧
        (item.access = .workspaceWrite → item.verification ≠ []) := by
  induction values generalizing seen index items with
  | nil =>
    cases h
    exact ⟨rfl, .nil, fun _ hi => absurd hi List.not_mem_nil⟩
  | cons value values ih =>
    rw [parseWorkItems] at h
    obtain ⟨item, hitem, h⟩ := bind_ok h
    obtain ⟨rest, hrest, h⟩ := bind_ok h
    cases h
    obtain ⟨raw, rfl, hid, hseen, htask, hverified⟩ := parseWorkItem_ok hitem
    obtain ⟨hlen, hnodup, hall⟩ := ih hrest fun v hv => hs v (List.mem_cons_of_mem _ hv)
    have hpattern : searchIdentifier item.id = true := by
      obtain ⟨j, hj, hstr⟩ := bind_ok hid
      have hl : lookup (text "id") raw = some j := by
        rw [Decoder.field] at hj
        split at hj <;> cases hj
        assumption
      have ha := Schema.accepts_property (hs _ List.mem_cons_self)
        (List.mem_cons_of_mem _ (List.mem_cons_of_mem _ (List.mem_cons_of_mem _
          List.mem_cons_self))) List.mem_cons_self hl
      cases j <;> cases hstr
      simpa [identifierSchema, Schema.accepts, Schema.acceptsAll, JsonType.admits] using ha
    refine ⟨congrArg (· + 1) hlen, List.nodup_cons.2 ⟨?_, hnodup⟩, ?_⟩
    · intro hm
      obtain ⟨other, ho, he⟩ := List.mem_map.1 hm
      exact (hall other ho).1 (he ▸ List.mem_cons_self)
    · intro other ho
      rcases List.mem_cons.1 ho with rfl | ho
      · exact ⟨hseen, hpattern, htask, hverified⟩
      · obtain ⟨h1, h2⟩ := hall other ho
        exact ⟨fun hm => h1 (List.mem_cons_of_mem _ hm), h2⟩

theorem parseSemanticWorkItems_ok {host : Host} {config : RouterConfig} {project : PurePath}
    {raw : Fields} {items : List WorkItem}
    (ha : PlannerSchema.plannerOutput.accepts (.obj raw) = true)
    (h : parseSemanticWorkItems host config project raw = .ok items) :
    PlannedGraph config items := by
  rw [parseSemanticWorkItems] at h
  obtain ⟨values, hvalues, h⟩ := bind_ok h
  obtain ⟨parsed, hparsed, h⟩ := bind_ok h
  obtain ⟨_, hmissing, h⟩ := bind_ok h
  obtain ⟨order, horder, h⟩ := bind_ok h
  cases h
  have hseq : lookup (text "work-items") raw = some (.arr values) := by
    obtain ⟨j, hj, harr⟩ := bind_ok hvalues
    rw [Decoder.field] at hj
    split at hj <;> cases hj
    cases j <;> cases harr
    assumption
  have harr := Schema.accepts_property ha
    (List.mem_cons_of_mem _ (List.mem_cons_of_mem _ (List.mem_cons_of_mem _ List.mem_cons_self)))
    List.mem_cons_self hseq
  rw [Schema.accepts, Schema.acceptsAll_iff] at harr
  have hmin : 1 ≤ values.length := by
    have hm := harr (.minItems 1) (by simp)
    simpa [Schema.accepts] using hm
  have hitems : ∀ value ∈ values, PlannerSchema.workItem.accepts value = true := by
    have hm := harr (.items PlannerSchema.workItem) (by simp)
    rw [Schema.accepts] at hm
    exact List.all_eq_true.1 hm
  obtain ⟨hlen, hnodup, hall⟩ := parseWorkItems_ok hparsed hitems
  refine ⟨?_, hnodup, fun i hi => (hall i hi).2.1, fun i hi => (hall i hi).2.2.1,
    fun i hi => (hall i hi).2.2.2, ?_, order, rejectCycles_ok horder⟩
  · intro he
    rw [he] at hlen
    rw [← hlen] at hmin
    cases hmin
  · intro item hi d hd
    by_contra hn
    have hsome : (item.dependencies.find? (· ∉ items.map WorkItem.id)).isSome = true := by
      rw [List.find?_isSome]
      exact ⟨d, hd, by simpa using hn⟩
    obtain ⟨e, he⟩ : ∃ e, rejectMissing host (items.map WorkItem.id) item = .error e := by
      rw [rejectMissing]
      split
      · rename_i hnone
        rw [hnone] at hsome
        cases hsome
      · exact ⟨_, rfl⟩
    obtain ⟨e', he'⟩ := mapM_error hi he
    rw [hmissing] at he'
    cases he'

/-- A plan accepted by the validator is a finite acyclic graph of distinct, configured items. -/
theorem parseAndValidate_ok {host : Host} {config : RouterConfig} {project : PurePath}
    {content : Option Text} {items : List WorkItem}
    (h : parseAndValidate host config project content = .ok items) :
    PlannedGraph config items := by
  rw [parseAndValidate.eq_def] at h
  split at h
  · cases h
  · split at h
    · cases h
    · obtain ⟨raw, _, h⟩ := bind_ok h
      split at h
      · rename_i ha
        exact parseSemanticWorkItems_ok ha h
      · cases h

end GoalRouter
