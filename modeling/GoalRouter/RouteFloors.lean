import GoalRouter.ScriptedWorld
import Mathlib.Order.Bounds.Basic

namespace GoalRouter
open Library
set_option autoImplicit true

/-- What a configuration that passed the semantic checks promises the router. -/
structure RouterConfig.Sound (config : RouterConfig) : Prop where
  named : ∀ name entry, config.modelAliases.get? name = some entry → entry.name = name
  ranked : ∀ name name' entry entry', config.modelAliases.get? name = some entry →
    config.modelAliases.get? name' = some entry' → entry.rank = entry'.rank → name = name'
  tasks : ∀ task policy, config.tasks.get? task = some policy →
    policy.modelAlias ∈ config.modelAliases.keys
  rules : ∀ rule ∈ config.hardRiskRules, ∀ name, rule.minimumModelAlias = some name →
    name ∈ config.modelAliases.keys

section Semantics

variable {host : Host} {path : PurePath}

theorem parseModelAlias_ok (h : parseModelAlias name raw = .ok entry) :
    entry.name = name ∧ ConfigField.integer raw (text "rank") = .ok entry.rank := by
  obtain ⟨model, _, h⟩ := bind_ok h
  obtain ⟨effort, _, h⟩ := bind_ok h
  obtain ⟨rank, hr, h⟩ := bind_ok h
  cases h
  exact ⟨rfl, hr⟩

theorem parseTaskPolicy_ok (h : parseTaskPolicy name raw = .ok policy) :
    ConfigField.string raw (text "model-alias") = .ok policy.modelAlias := by
  obtain ⟨_, _, h⟩ := bind_ok h
  obtain ⟨entryAlias, ha, h⟩ := bind_ok h
  obtain ⟨_, _, h⟩ := bind_ok h
  obtain ⟨_, _, h⟩ := bind_ok h
  obtain ⟨_, _, h⟩ := bind_ok h
  obtain ⟨_, _, h⟩ := bind_ok h
  obtain ⟨_, _, h⟩ := bind_ok h
  obtain ⟨_, _, h⟩ := bind_ok h
  obtain ⟨_, _, h⟩ := bind_ok h
  cases h
  exact ha

theorem parseHardRiskRule_ok (h : parseHardRiskRule raw = .ok rule) :
    ConfigField.optionalString raw (text "minimum-model-alias") = .ok rule.minimumModelAlias := by
  obtain ⟨approval, _, h⟩ := bind_ok h
  obtain ⟨_, _, h⟩ := bind_ok h
  obtain ⟨name, hn, h⟩ := bind_ok h
  cases approval with
  | none =>
    cases h
    exact hn
  | some t =>
    obtain ⟨_, _, h⟩ := bind_ok h
    cases h
    exact hn

/-- One entry of a table, as `parseTable` reads it. -/
def parseEntry (parse : Text → Fields → Except PyError α) (context : Text) (e : Text × Json) :
    Except PyError (Text × α) := do
  let entry ← ConfigField.mapping (context ++ text "." ++ e.1) e.2
  let parsed ← parse e.1 entry
  return (e.1, parsed)

theorem parseEntry_ok (h : parseEntry parse context e = .ok (name, parsed)) :
    name = e.1 ∧ ∃ fields, e.2 = .obj fields ∧ parse e.1 fields = .ok parsed := by
  obtain ⟨fields, hf, h⟩ := bind_ok h
  obtain ⟨result, hp, h⟩ := bind_ok h
  cases h
  cases he : e.2 with
  | obj entries =>
    rw [he] at hf
    cases hf
    exact ⟨rfl, _, rfl, hp⟩
  | _ =>
    rw [he] at hf
    cases hf

theorem parseTable_ok (h : parseTable parse table context = .ok parsed) :
    ∃ entries, table.mapM (parseEntry parse context) = .ok entries ∧
      parsed = Dict.ofList entries := by
  obtain ⟨entries, hm, h⟩ := bind_ok h
  cases h
  exact ⟨entries, hm, rfl⟩

theorem parseTable_keys (h : parseTable parse table context = .ok parsed) {name : Text}
    (hn : (lookup name table).isNone = false) : name ∈ parsed.keys := by
  obtain ⟨entries, hm, rfl⟩ := parseTable_ok h
  obtain ⟨value, hv⟩ := Option.isSome_iff_exists.1 (Option.isNone_eq_false_iff.1 hn)
  have hkeys : entries.map Prod.fst = table.map Prod.fst :=
    mapM_ok_map hm fun e e' he => (parseEntry_ok he).1
  have hname : name ∈ entries.map Prod.fst :=
    hkeys ▸ List.mem_map_of_mem (mem_of_lookup hv)
  obtain ⟨e, he, rfl⟩ := List.mem_map.1 hname
  exact Dict.mem_keys_ofList he

/-- The ranks that passed the check are new and differ from each other. -/
theorem validateRanks_ok {table : Fields} (h : validateRanks path table ranks = .ok ())
    {entries : List (Text × ModelAlias)}
    (hp : table.mapM (parseEntry parseModelAlias context) = .ok entries) :
    (∀ e ∈ entries, lookup e.2.rank ranks = none) ∧ (entries.map fun e => e.2.rank).Nodup := by
  induction table generalizing ranks entries with
  | nil =>
    cases hp
    exact ⟨fun e he => absurd he List.not_mem_nil, .nil⟩
  | cons e table ih =>
    obtain ⟨name, value⟩ := e
    rw [List.mapM_cons] at hp
    obtain ⟨⟨name', parsed⟩, he, hp⟩ := bind_ok hp
    obtain ⟨rest, hrest, hp⟩ := bind_ok hp
    cases hp
    obtain ⟨_, fields, hv, hparse⟩ := parseEntry_ok he
    cases hv
    rw [validateRanks] at h
    obtain ⟨fields', hf, h⟩ := bind_ok h
    cases hf
    obtain ⟨rank, hr, h⟩ := bind_ok h
    rw [(parseModelAlias_ok hparse).2] at hr
    cases hr
    by_cases hpos : parsed.rank ≤ 0
    · simp only [if_pos hpos] at h
      cases h
    simp only [if_neg hpos] at h
    cases hl : lookup parsed.rank ranks with
    | some other =>
      simp only [hl] at h
      cases h
    | none =>
      simp only [hl] at h
      obtain ⟨hnew, hnodup⟩ := ih h hrest
      constructor
      · intro e' he'
        rcases List.mem_cons.1 he' with rfl | he'
        · exact hl
        · have := hnew e' he'
          rw [lookup_cons] at this
          split at this
          · cases this
          · exact this
      · rw [List.map_cons, List.nodup_cons]
        refine ⟨fun hm => ?_, hnodup⟩
        obtain ⟨e', he', hrank⟩ := List.mem_map.1 hm
        have := hnew e' he'
        rw [lookup_cons, if_pos hrank] at this
        cases this

theorem validateTask_ok (h : validateTask host path aliases tasks e = .ok ())
    (hp : parseEntry parseTaskPolicy context e = .ok (name, policy)) :
    (lookup policy.modelAlias aliases).isNone = false := by
  obtain ⟨_, fields, hv, hparse⟩ := parseEntry_ok hp
  rw [validateTask, hv] at h
  obtain ⟨fields', hf, h⟩ := bind_ok h
  cases hf
  obtain ⟨entryAlias, ha, h⟩ := bind_ok h
  rw [parseTaskPolicy_ok hparse] at ha
  cases ha
  split at h
  · cases h
  · rename_i hn
    exact Bool.eq_false_iff.2 hn

theorem validateRiskRule_ok (h : validateRiskRule host path aliases i value = .ok ())
    (hv : ConfigField.mapping (indexed (text "hard-risk-rules") i) value = .ok fields)
    (hp : parseHardRiskRule fields = .ok rule) {name : Text}
    (hn : rule.minimumModelAlias = some name) : (lookup name aliases).isNone = false := by
  rw [validateRiskRule, hv, ok_bind, parseHardRiskRule_ok hp, ok_bind, hn] at h
  dsimp only at h
  split at h
  · cases h
  · rename_i hn
    exact Bool.eq_false_iff.2 hn

/-- Checked for every entry, so for the entry a parsed one comes from. -/
theorem mapM_checked {α : Type} {check : α → Except PyError Unit} {xs : List α} {x : α}
    (h : xs.mapM check = .ok units) (hx : x ∈ xs) : check x = .ok () := by
  cases hc : check x with
  | ok u => rfl
  | error e =>
    obtain ⟨e', he⟩ := mapM_error hx hc
    rw [he] at h
    cases h

theorem semantics_sound {raw : Fields} (hs : validateSemantics host path raw = .ok ())
    (hp : parseRouterConfig raw digest = .ok config) : config.Sound := by
  obtain ⟨aliases, haliases, hs⟩ := bind_ok hs
  obtain ⟨tasks, htasks, hs⟩ := bind_ok hs
  obtain ⟨_, hranks, hs⟩ := bind_ok hs
  obtain ⟨_, _, hs⟩ := bind_ok hs
  obtain ⟨_, _, hs⟩ := bind_ok hs
  obtain ⟨_, _, hs⟩ := bind_ok hs
  obtain ⟨_, hcheck, hs⟩ := bind_ok hs
  obtain ⟨matching, hmatching, hs⟩ := bind_ok hs
  obtain ⟨_, _, hs⟩ := bind_ok hs
  obtain ⟨rules, hrules, hs⟩ := bind_ok hs
  obtain ⟨_, hriskCheck, _⟩ := bind_ok hs
  rw [parseRouterConfig, haliases, ok_bind, htasks, ok_bind] at hp
  obtain ⟨modelAliases, hma, hp⟩ := bind_ok hp
  obtain ⟨policies, hpo, hp⟩ := bind_ok hp
  rw [hmatching, ok_bind] at hp
  obtain ⟨_, _, hp⟩ := bind_ok hp
  rw [hrules, ok_bind] at hp
  obtain ⟨hardRiskRules, hhr, hp⟩ := bind_ok hp
  obtain ⟨_, _, hp⟩ := bind_ok hp
  obtain ⟨_, _, hp⟩ := bind_ok hp
  obtain ⟨_, _, hp⟩ := bind_ok hp
  obtain ⟨_, _, hp⟩ := bind_ok hp
  obtain ⟨_, _, hp⟩ := bind_ok hp
  obtain ⟨_, _, hp⟩ := bind_ok hp
  cases hp
  constructor
  · intro name entry h
    obtain ⟨entries, hm, rfl⟩ := parseTable_ok hma
    obtain ⟨e, _, he⟩ := mapM_ok_mem hm _ (Dict.mem_of_get?_ofList h)
    obtain ⟨hname, fields, _, hparse⟩ := parseEntry_ok he
    rw [(parseModelAlias_ok hparse).1, hname]
  · intro name name' entry entry' h h' hr
    obtain ⟨entries, hm, rfl⟩ := parseTable_ok hma
    have hnodup := (validateRanks_ok hranks hm).2
    have := List.inj_on_of_nodup_map hnodup (Dict.mem_of_get?_ofList h)
      (Dict.mem_of_get?_ofList h') hr
    exact (Prod.mk.inj this).1
  · intro task policy h
    obtain ⟨entries, hm, rfl⟩ := parseTable_ok hpo
    obtain ⟨e, hmem, he⟩ := mapM_ok_mem hm _ (Dict.mem_of_get?_ofList h)
    exact parseTable_keys hma (validateTask_ok (mapM_checked hcheck hmem) he)
  · intro rule hrule name hn
    obtain ⟨e, hmem, he⟩ := mapM_ok_mem hhr _ hrule
    obtain ⟨fields, hf, hparse⟩ := bind_ok he
    have hchecked := mapM_checked hriskCheck hmem
    exact parseTable_keys hma (validateRiskRule_ok hchecked hf hparse hn)

end Semantics

/-- The ranks that the active ones among `rules` ask for. -/
def ruleRanks (config : RouterConfig) (flags : List Text) (rules : List HardRiskRule) : Set Int :=
  {rank | ∃ rule ∈ rules, rule.flag ∈ flags ∧ ∃ name entry, rule.minimumModelAlias = some name ∧
    config.modelAliases.get? name = some entry ∧ entry.rank = rank}

/-- Whether an active one among `rules` asks for approval. -/
def RulesRequire (flags : List Text) (rules : List HardRiskRule) : Prop :=
  ∃ rule ∈ rules, rule.flag ∈ flags ∧ rule.approval = some .required

/-- The ranks an item's route answers to: its task's own and those of the active rules. -/
def demandedRanks (config : RouterConfig) (policy : TaskPolicy) (item : WorkItem) : Set Int :=
  {rank | ∃ entry, config.modelAliases.get? policy.modelAlias = some entry ∧ entry.rank = rank} ∪
    ruleRanks config (activeFlags item policy) config.hardRiskRules

theorem ruleRanks_cons (config : RouterConfig) (flags : List Text) (rule : HardRiskRule)
    (rules : List HardRiskRule) :
    ruleRanks config flags (rule :: rules) =
      ruleRanks config flags [rule] ∪ ruleRanks config flags rules := by
  ext rank
  simp [ruleRanks]

theorem rulesRequire_cons (flags : List Text) (rule : HardRiskRule) (rules : List HardRiskRule) :
    RulesRequire flags (rule :: rules) ↔ RulesRequire flags [rule] ∨ RulesRequire flags rules := by
  simp [RulesRequire]

theorem ruleRanks_mono {flags flags' : List Text} {rules rules' : List HardRiskRule}
    (hf : flags ⊆ flags') (hr : rules ⊆ rules') :
    ruleRanks config flags rules ⊆ ruleRanks config flags' rules' := by
  rintro rank ⟨rule, hrule, hflag, h⟩
  exact ⟨rule, hr hrule, hf hflag, h⟩

theorem RulesRequire.mono {flags flags' : List Text} {rules rules' : List HardRiskRule}
    (h : RulesRequire flags rules) (hf : flags ⊆ flags') (hr : rules ⊆ rules') :
    RulesRequire flags' rules' := by
  obtain ⟨rule, hrule, hflag, h⟩ := h
  exact ⟨rule, hr hrule, hf hflag, h⟩

theorem isGreatest_insert_union {a b c : Int} {s t : Set Int} (hb : IsGreatest (insert a s) b)
    (hc : IsGreatest (insert b t) c) : IsGreatest (insert a (s ∪ t)) c := by
  constructor
  · rcases hc.1 with rfl | ht
    · exact Set.insert_subset_insert Set.subset_union_left hb.1
    · exact .inr (.inr ht)
  · have hbc : b ≤ c := hc.2 (.inl rfl)
    rintro r (rfl | hs | ht)
    · exact (hb.2 (.inl rfl)).trans hbc
    · exact (hb.2 (.inr hs)).trans hbc
    · exact hc.2 (.inr ht)

/-- What a floor amounts to after `rules`, from the floor before them. -/
structure RiskFloor.Raised (config : RouterConfig) (flags : List Text) (rules : List HardRiskRule)
    (before after : RiskFloor) : Prop where
  rank : IsGreatest (insert before.minimumRank (ruleRanks config flags rules)) after.minimumRank
  approval : after.approval = .required ↔
    before.approval = .required ∨ RulesRequire flags rules

section Floors

variable (host : Host) {config : RouterConfig} (flags : List Text)

theorem requireAlias_ok (h : name ∈ config.modelAliases.keys) :
    ∃ entry, config.modelAliases.get? name = some entry ∧
      requireAlias host config name = .ok entry := by
  obtain ⟨entry, he⟩ := Dict.mem_keys.1 h
  exact ⟨entry, he, by rw [requireAlias, he]⟩

theorem applyRule_raised {rule : HardRiskRule} (floor : RiskFloor)
    (hr : ∀ name, rule.minimumModelAlias = some name → name ∈ config.modelAliases.keys) :
    ∃ after, applyRule host config flags floor rule = .ok after ∧
      floor.Raised config flags [rule] after := by
  by_cases hflag : rule.flag ∈ flags
  · have hrequire : RulesRequire flags [rule] ↔ rule.approval = some .required := by
      simp [RulesRequire, hflag]
    cases hname : rule.minimumModelAlias with
    | none =>
      have hranks : ruleRanks config flags [rule] = ∅ := by
        simp [ruleRanks, hname]
      refine ⟨
        if rule.approval = some .required then { floor with approval := .required } else floor,
        ?_, ?_, ?_⟩
      · simp only [applyRule, hflag, hname, not_true_eq_false, if_false, pure_bind]
        split <;> rfl
      · rw [hranks]
        split <;> simp
      · rw [hrequire]
        split <;> simp [*]
    | some name =>
      obtain ⟨entry, he, hentry⟩ := requireAlias_ok host (hr name hname)
      have hranks : ruleRanks config flags [rule] = {entry.rank} := by
        ext rank
        simp [ruleRanks, hflag, hname, he, eq_comm]
      have hmax : IsGreatest {floor.minimumRank, entry.rank} (max floor.minimumRank entry.rank) :=
        isGreatest_pair
      refine ⟨{ floor with
          minimumRank := max floor.minimumRank entry.rank
          approval := if rule.approval = some .required then .required else floor.approval
          appliedFloors := floor.appliedFloors ++ [rule.flag ++ text ":" ++ name] }, ?_, ?_, ?_⟩
      · simp only [applyRule, hflag, hname, hentry, not_true_eq_false, if_false, pure_bind, ok_bind]
        split <;> rfl
      · rw [hranks]
        exact hmax
      · rw [hrequire]
        dsimp only
        split <;> simp [*]
  · have hranks : ruleRanks config flags [rule] = ∅ := by
      simp [ruleRanks, hflag]
    have hrequire : ¬ RulesRequire flags [rule] := by
      simp [RulesRequire, hflag]
    refine ⟨floor, by rw [applyRule, if_pos hflag], ?_, ?_⟩
    · rw [hranks]
      simp
    · simp [hrequire]

theorem foldlM_raised {rules : List HardRiskRule} (floor : RiskFloor)
    (hr : ∀ rule ∈ rules, ∀ name, rule.minimumModelAlias = some name →
      name ∈ config.modelAliases.keys) :
    ∃ after, rules.foldlM (applyRule host config flags) floor = .ok after ∧
      floor.Raised config flags rules after := by
  induction rules generalizing floor with
  | nil => exact ⟨floor, rfl, by simp [ruleRanks], by simp [RulesRequire]⟩
  | cons rule rules ih =>
    obtain ⟨middle, hm, hraised⟩ := applyRule_raised host flags floor
      (hr rule List.mem_cons_self)
    obtain ⟨after, ha, hrest⟩ := ih middle fun rule' h => hr rule' (List.mem_cons_of_mem _ h)
    refine ⟨after, by rw [List.foldlM_cons, hm, ok_bind, ha], ?_, ?_⟩
    · rw [ruleRanks_cons]
      exact isGreatest_insert_union hraised.rank hrest.rank
    · rw [hrest.approval, hraised.approval, rulesRequire_cons flags rule rules, or_assoc]

theorem leastRank_least {entries : List ModelAlias} {entry : ModelAlias} (h : entry ∈ entries) :
    ∃ least, leastRank entries = some least ∧ least ∈ entries ∧
      ∀ other ∈ entries, least.rank ≤ other.rank := by
  induction entries generalizing entry with
  | nil => cases h
  | cons first rest ih =>
    cases rest with
    | nil => exact ⟨first, rfl, List.mem_cons_self, by simp⟩
    | cons second rest =>
      obtain ⟨least, hl, hmem, hle⟩ := ih List.mem_cons_self
      by_cases hlt : least.rank < first.rank
      · refine ⟨least, by rw [leastRank, hl]; exact if_pos hlt, List.mem_cons_of_mem _ hmem, ?_⟩
        intro other ho
        rcases List.mem_cons.1 ho with rfl | ho
        · exact hlt.le
        · exact hle other ho
      · refine ⟨first, by rw [leastRank, hl]; exact if_neg hlt, List.mem_cons_self, ?_⟩
        intro other ho
        rcases List.mem_cons.1 ho with rfl | ho
        · exact le_rfl
        · exact (not_lt.1 hlt).trans (hle other ho)

theorem leastRank_filter {entries : List ModelAlias} {entry : ModelAlias} (h : entry ∈ entries) :
    ∃ least ∈ entries, leastRank (entries.filter (entry.rank ≤ ·.rank)) = some least ∧
      least.rank = entry.rank := by
  have hself : entry ∈ entries.filter (entry.rank ≤ ·.rank) := List.mem_filter.2 ⟨h, by simp⟩
  obtain ⟨least, hl, hmem, hle⟩ := leastRank_least hself
  obtain ⟨hmem, hge⟩ := List.mem_filter.1 hmem
  exact ⟨least, hmem, hl, le_antisymm (hle entry hself) (of_decide_eq_true hge)⟩

theorem selectTask_configured (h : config.tasks.get? (explicitTask.getD task) = some policy)
    (prompt : Text) (paths : List PurePath) :
    ∃ source reason, selectTask host config explicitTask (some task) prompt paths =
      .ok (explicitTask.getD task, source, reason) := by
  cases explicitTask with
  | none =>
    have ht : config.tasks.get? task = some policy := h
    exact ⟨.planner, text "planner task " ++ host.repr task, by
      simp only [selectTask, requireTask, ht]
      rfl⟩
  | some name =>
    have ht : config.tasks.get? name = some policy := h
    exact ⟨.explicit, text "explicit task " ++ host.repr name, by
      simp only [selectTask, requireTask, ht]
      rfl⟩

/-- What the router decides for an item of a configured task. -/
structure Decided (config : RouterConfig) (policy : TaskPolicy) (item : WorkItem)
    (decision : RouteDecision) (entry : ModelAlias) : Prop where
  named : config.modelAliases.get? decision.modelAlias = some entry
  rank : IsGreatest (demandedRanks config policy item) entry.rank
  approval : decision.approval = .required ↔
    policy.approval = .required ∨ RulesRequire (activeFlags item policy) config.hardRiskRules

theorem demandedRanks_eq {original : ModelAlias}
    (h : config.modelAliases.get? policy.modelAlias = some original) (item : WorkItem) :
    demandedRanks config policy item = insert original.rank
      (ruleRanks config (activeFlags item policy) config.hardRiskRules) := by
  ext rank
  simp [demandedRanks, h, eq_comm]

theorem exists_of_demanded {item : WorkItem} (h : rank ∈ demandedRanks config policy item) :
    ∃ entry ∈ config.modelAliases.values, entry.rank = rank := by
  rcases h with ⟨entry, he, hr⟩ | ⟨_, _, _, name, entry, _, he, hr⟩
  · exact ⟨entry, Dict.mem_values.2 ⟨_, he⟩, hr⟩
  · exact ⟨entry, Dict.mem_values.2 ⟨_, he⟩, hr⟩

theorem RouterConfig.Sound.decides (h : config.Sound) {item : WorkItem} {explicitTask : Option Text}
    (ht : config.tasks.get? (explicitTask.getD item.task) = some policy) :
    ∃ decision entry, route host config item explicitTask = .ok decision ∧
      Decided config policy item decision entry := by
  obtain ⟨source, reason, hs⟩ := selectTask_configured host ht item.instructions
    item.affectedPaths
  obtain ⟨original, ho, horiginal⟩ := requireAlias_ok host (h.tasks _ _ ht)
  obtain ⟨floor, hf, hraised⟩ := foldlM_raised host (activeFlags item policy)
    ⟨original.rank, policy.approval, []⟩ h.rules
  have hgreatest : IsGreatest (demandedRanks config policy item) floor.minimumRank :=
    demandedRanks_eq ho item ▸ hraised.rank
  obtain ⟨top, htop, hrank⟩ := exists_of_demanded hgreatest.1
  obtain ⟨least, hmem, hl, heq⟩ := leastRank_filter htop
  rw [hrank] at hl
  obtain ⟨name, hname⟩ := Dict.mem_values.1 hmem
  have hroute : ∃ decision, route host config item explicitTask = .ok decision ∧
      decision.modelAlias = least.name ∧ decision.approval = floor.approval := by
    simp only [route, hs, ht, horiginal, hf, hl, ok_bind, pure_bind]
    exact ⟨_, rfl, rfl, rfl⟩
  obtain ⟨decision, hd, hname', hmode⟩ := hroute
  refine ⟨decision, least, hd, ?_, ?_, ?_⟩
  · rw [hname', h.named _ _ hname, hname]
  · rwa [heq, hrank]
  · rw [hmode]
    exact hraised.approval

theorem RouterConfig.Sound.unique (h : config.Sound) {decision : RouteDecision}
    (hd : Decided config policy item decision entry) {name : Text} {other : ModelAlias}
    (ho : config.modelAliases.get? name = some other)
    (hr : IsGreatest (demandedRanks config policy item) other.rank) : name = decision.modelAlias :=
  h.ranked _ _ _ _ ho hd.named (hr.unique hd.rank)

theorem activeFlags_mono {item item' : WorkItem} (h : item.riskFlags.keys ⊆ item'.riskFlags.keys)
    (policy : TaskPolicy) : activeFlags item policy ⊆ activeFlags item' policy := by
  intro flag hflag
  simp only [activeFlags, List.mem_append] at hflag ⊢
  exact hflag.imp_left (.imp_left (@h flag))

/-- More flags and more rules, in any order, ask for no less. -/
theorem Decided.mono {config' : RouterConfig} {item item' : WorkItem}
    (hd : Decided config policy item decision entry)
    (hd' : Decided config' policy item' decision' entry')
    (haliases : config'.modelAliases = config.modelAliases)
    (hrules : config.hardRiskRules ⊆ config'.hardRiskRules)
    (hflags : item.riskFlags.keys ⊆ item'.riskFlags.keys) :
    entry.rank ≤ entry'.rank ∧
      (decision.approval = .required → decision'.approval = .required) := by
  have hactive := activeFlags_mono hflags policy
  constructor
  · apply hd'.rank.2
    rcases hd.rank.1 with ⟨other, ho, hr⟩ | hr
    · exact .inl ⟨other, haliases ▸ ho, hr⟩
    · obtain ⟨rule, hrule, hflag, name, other, hn, ho, hr⟩ := ruleRanks_mono hactive hrules hr
      exact .inr ⟨rule, hrule, hflag, name, other, hn, haliases ▸ ho, hr⟩
  · rw [hd.approval, hd'.approval]
    exact .imp_right fun h => h.mono hactive hrules

end Floors

/-- Under a configuration whose semantics were checked the router always decides, for the one alias
whose rank is the greatest asked for, and asking for more never lowers what it decides. -/
theorem route_meets_floors {host : Host} {path : PurePath} {raw : Fields} {digest : Text}
    {config : RouterConfig} (hs : validateSemantics host path raw = .ok ())
    (hp : parseRouterConfig raw digest = .ok config) (item : WorkItem) (explicitTask : Option Text)
    {policy : TaskPolicy} (ht : config.tasks.get? (explicitTask.getD item.task) = some policy) :
    ∃ decision entry, route host config item explicitTask = .ok decision ∧
      Decided config policy item decision entry ∧
      (∀ name other, config.modelAliases.get? name = some other →
        IsGreatest (demandedRanks config policy item) other.rank → name = decision.modelAlias) ∧
      ∀ (path' : PurePath) (raw' : Fields) (digest' : Text) (config' : RouterConfig)
        (item' : WorkItem), validateSemantics host path' raw' = .ok () →
        parseRouterConfig raw' digest' = .ok config' →
        config'.modelAliases = config.modelAliases → config'.tasks = config.tasks →
        config.hardRiskRules ⊆ config'.hardRiskRules →
        explicitTask.getD item'.task = explicitTask.getD item.task →
        item.riskFlags.keys ⊆ item'.riskFlags.keys →
        ∃ decision' entry', route host config' item' explicitTask = .ok decision' ∧
          config'.modelAliases.get? decision'.modelAlias = some entry' ∧
          entry.rank ≤ entry'.rank ∧
          (decision.approval = .required → decision'.approval = .required) := by
  have hsound := semantics_sound hs hp
  obtain ⟨decision, entry, hroute, hd⟩ := hsound.decides host ht
  refine ⟨decision, entry, hroute, hd, fun name other ho hr => hsound.unique hd ho hr, ?_⟩
  intro path' raw' digest' config' item' hs' hp' haliases htasks hrules htask hflags
  have ht' : config'.tasks.get? (explicitTask.getD item'.task) = some policy := by
    rw [htasks, htask, ht]
  obtain ⟨decision', entry', hroute', hd'⟩ := (semantics_sound hs' hp').decides host ht'
  exact ⟨decision', entry', hroute', hd'.named, hd.mono hd' haliases hrules hflags⟩

/-- A configuration with two aliases and a rule that asks for the higher one. -/
def floorYaml : Fields := [
  (text "schema-version", .int 1),
  (text "default-task", .str (text "work")),
  (text "planner-task", .str (text "work")),
  (text "completion-task", .str (text "work")),
  (text "maximum-read-concurrency", .int 2),
  (text "repository-inspection-timeout-seconds", .int 60),
  (text "model-aliases", .obj [
    (text "base", .obj [(text "model", .str (text "model")),
      (text "reasoning-effort", .str (text "low")), (text "rank", .int 1)]),
    (text "strong", .obj [(text "model", .str (text "large")),
      (text "reasoning-effort", .str (text "high")), (text "rank", .int 3)])]),
  (text "tasks", .obj [
    (text "work", samplePolicy (text "Work") (text "read-only") (text "automatic"))]),
  (text "hard-risk-rules", .arr [.obj [(text "flag", .str (text "secrets")),
    (text "minimum-model-alias", .str (text "strong")),
    (text "approval", .str (text "required"))]])]

def floorPolicy : TaskPolicy := sampleTask (text "work") (text "Work") .readOnly .automatic

def floorConfig : RouterConfig where
  schemaVersion := 1
  defaultTask := text "work"
  plannerTask := text "work"
  completionTask := text "work"
  maximumReadConcurrency := 2
  repositoryInspectionTimeoutSeconds := 60
  modelAliases := Dict.ofList [(text "base", ⟨text "base", text "model", text "low", 1⟩),
    (text "strong", ⟨text "strong", text "large", text "high", 3⟩)]
  tasks := Dict.ofList [(text "work", floorPolicy)]
  matching := []
  hardRiskRules := [⟨text "secrets", some (text "strong"), some .required⟩]
  digest := text "digest"

/-- An item with the flag that the rule is about. -/
def flaggedItem : WorkItem := { singleItem with riskFlags := TextSet.ofTexts [text "secrets"] }

/-- The flag raises the model and asks for approval. -/
theorem route_meets_floors_sample : ∃ decision entry,
    route sampleHost floorConfig flaggedItem none = .ok decision ∧
      Decided floorConfig floorPolicy flaggedItem decision entry ∧
        decision.modelAlias = text "strong" ∧ decision.approval = .required := by
  have hs : validateSemantics sampleHost samplePath floorYaml = .ok () := by decide +kernel
  have hp : parseRouterConfig floorYaml (text "digest") = .ok floorConfig := by decide +kernel
  have ht : floorConfig.tasks.get? ((none : Option Text).getD flaggedItem.task) =
      some floorPolicy := by decide +kernel
  have hraised : (route sampleHost floorConfig flaggedItem none).map
      (fun decision => (decision.modelAlias, decision.approval)) =
        .ok (text "strong", .required) := by decide +kernel
  obtain ⟨decision, entry, hroute, hd, _⟩ := route_meets_floors hs hp flaggedItem none ht
  rw [hroute] at hraised
  obtain ⟨hmodel, happroval⟩ := Prod.mk.inj (Except.ok.inj hraised)
  exact ⟨decision, entry, hroute, hd, hmodel, happroval⟩

end GoalRouter
