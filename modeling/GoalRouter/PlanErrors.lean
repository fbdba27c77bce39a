import GoalRouter.PlanAcceptance
import GoalRouter.SnapshotFormat

namespace GoalRouter
open Library
set_option autoImplicit true

section Limited

variable (host : Host) (config : RouterConfig) (project : PurePath)

/-- `_reject_cycles` where the recursion limit leaves room for so many open calls of `visit`. -/
def rejectCyclesWithin (limit : Nat) (items : List WorkItem) : Except PyError (List Text) :=
  (items.map WorkItem.id).foldlM (visit host (dependencyTable items) limit []) []

def parseSemanticWithin (limit : Nat) (raw : Fields) : Except PyError (List WorkItem) := do
  let values ← PlannerField.sequence raw (text "work-items")
  let items ← parseWorkItems host config project [] 0 values
  let _ ← items.mapM (rejectMissing host (items.map WorkItem.id))
  let _ ← rejectCyclesWithin host limit items
  return items

/-- `_parse_and_validate`, from what `json.loads` makes of the response. -/
def validateReading (limit : Nat) : Reading → Except PyError (List WorkItem)
  | .unreadable message =>
    .error (structuralError (text "Planner response is not valid JSON: " ++ message))
  | .tooManyDigits message => .error ⟨.valueError, message⟩
  | .tooDeep message => .error ⟨.other (text "RecursionError"), message⟩
  | .value loaded => do
    let raw ← PlannerField.mapping (text "planner response") loaded
    if PlannerSchema.plannerOutput.accepts (.obj raw) then
      parseSemanticWithin host config project limit raw
    else
      let (location, message) := host.schemaError PlannerSchema.plannerOutput (.obj raw)
      .error (structuralError (text "Planner response violates schema at " ++ location ++
        text ": " ++ message))

/-- The most that a walk over the items needs, where visiting one needs `need`. -/
def deepest (step : List Text → Text → Except PyError (List Text))
    (need : List Text → Text → Nat) : List Text → List Text → Nat
  | [], _ => 0
  | id :: ids, visited => max (need visited id) <|
    match step visited id with
    | .ok visited => deepest step need ids visited
    | .error _ => 0

/-- How many calls of `visit` are open at once, at most, while an item is visited. -/
def nesting (table : Dict Text (List Text)) : Nat → List Text → List Text → Text → Nat
  | 0, _, _, _ => 0
  | room + 1, visiting, visited, id =>
    if id ∈ visiting ∨ id ∈ visited then 1
    else 1 + deepest (visit host table room (id :: visiting))
      (nesting table room (id :: visiting)) (below table id) visited

/-- How many calls of `visit` are open at once, at most, in `_reject_cycles` on items with those
ids and dependencies. -/
def walkNesting (edges : List (Text × List Text)) : Nat :=
  deepest (visit host (Dict.ofList edges) (edges.length + 1) [])
    (nesting host (Dict.ofList edges) (edges.length + 1) []) (edges.map Prod.fst) []

end Limited

variable {host : Host} {config : RouterConfig} {project : PurePath}

theorem foldlM_within {step step' : List Text → Text → Except PyError (List Text)}
    {need : List Text → Text → Nat} {limit : Nat}
    (hstep : ∀ visited id,
      step' visited id = if need visited id ≤ limit then step visited id else .error recursionError)
    (ids visited : List Text) : ids.foldlM step' visited =
      if deepest step need ids visited ≤ limit then ids.foldlM step visited
      else .error recursionError := by
  induction ids generalizing visited with
  | nil => rfl
  | cons id ids ih =>
    rw [List.foldlM_cons, List.foldlM_cons, deepest, hstep]
    by_cases hn : need visited id ≤ limit
    · rw [if_pos hn]
      cases step visited id with
      | error e => simp [hn]
      | ok middle =>
        rw [ok_bind, ok_bind, ih]
        simp [hn]
    · have hmax (n : Nat) : ¬max (need visited id) n ≤ limit := by omega
      rw [if_neg hn, if_neg (hmax _)]
      rfl

/-- With less room, a visit is the same where it needs no more, and runs out of it elsewhere. -/
theorem visit_within {table : Dict Text (List Text)} {limit room : Nat} (h : limit ≤ room)
    (visiting visited : List Text) (id : Text) :
    visit host table limit visiting visited id =
      if nesting host table room visiting visited id ≤ limit then
        visit host table room visiting visited id
      else .error recursionError := by
  induction limit generalizing room visiting visited id with
  | zero =>
    cases room with
    | zero => rfl
    | succ room =>
      have hpos : ¬nesting host table (room + 1) visiting visited id ≤ 0 := by
        rw [nesting]
        split <;> omega
      rw [if_neg hpos]
      rfl
  | succ limit ih =>
    cases room with
    | zero => omega
    | succ room =>
      have hroom : limit ≤ room := Nat.le_of_succ_le_succ h
      rw [visit, visit, nesting]
      by_cases hvis : id ∈ visiting
      · simp [hvis]
      · by_cases hdone : id ∈ visited
        · simp [hvis, hdone]
        · rw [if_neg hvis, if_neg hvis, if_neg hdone, if_neg hdone,
            if_neg (not_or.2 ⟨hvis, hdone⟩), below]
          cases table.get? id with
          | none => simp [deepest]
          | some deps =>
            have hfold := foldlM_within
              (fun visited d => ih hroom (id :: visiting) visited d) deps visited
            show (deps.foldlM (visit host table limit (id :: visiting)) visited >>= _) = _
            rw [hfold, Option.getD_some]
            by_cases hn : deepest (visit host table room (id :: visiting))
                (nesting host table room (id :: visiting)) deps visited ≤ limit
            · rw [if_pos hn, if_pos (by omega)]
              rfl
            · rw [if_neg hn, if_neg (by omega)]
              rfl

theorem deepest_le {step : List Text → Text → Except PyError (List Text)}
    {need : List Text → Text → Nat} {bound : Nat} {ids : List Text}
    (h : ∀ visited, ∀ id ∈ ids, need visited id ≤ bound) (visited : List Text) :
    deepest step need ids visited ≤ bound := by
  induction ids generalizing visited with
  | nil => exact Nat.zero_le _
  | cons id ids ih =>
    rw [deepest]
    apply max_le (h visited id List.mem_cons_self)
    cases step visited id with
    | error e => exact Nat.zero_le _
    | ok after => exact ih (fun visited d hd => h visited d (List.mem_cons_of_mem _ hd)) after

/-- The open calls are of different items, but for the last. -/
theorem nesting_le {table : Dict Text (List Text)} {ids : List Text}
    (hclosed : ∀ k ∈ ids, ∀ d ∈ below table k, d ∈ ids) {room : Nat}
    {visiting visited : List Text} {id : Text} (hid : id ∈ ids) (hn : visiting.Nodup)
    (hsub : ∀ k ∈ visiting, k ∈ ids) :
    nesting host table room visiting visited id + visiting.length ≤ ids.length + 1 := by
  induction room generalizing visiting visited id with
  | zero =>
    have hle : visiting.length ≤ ids.length := (hn.subperm hsub).length_le
    rw [nesting]
    omega
  | succ room ih =>
    rw [nesting]
    split
    · have hle : visiting.length ≤ ids.length := (hn.subperm hsub).length_le
      omega
    · rename_i hnot
      have hn' : (id :: visiting).Nodup := List.nodup_cons.2 ⟨fun hm => hnot (.inl hm), hn⟩
      have hsub' : ∀ k ∈ id :: visiting, k ∈ ids := List.forall_mem_cons.2 ⟨hid, hsub⟩
      have hle : (id :: visiting).length ≤ ids.length := (hn'.subperm hsub').length_le
      rw [List.length_cons] at hle
      have hneed : ∀ visited, ∀ d ∈ below table id,
          nesting host table room (id :: visiting) visited d ≤ ids.length - visiting.length := by
        intro visited d hd
        have hd := @ih _ visited _ (hclosed id hid d hd) hn' hsub'
        rw [List.length_cons] at hd
        omega
      have hdeep := @deepest_le (visit host table room (id :: visiting)) _ _ _ hneed visited
      omega

/-- Where room for the walk is left, the recursion limit makes no difference; elsewhere it ends
the walk. -/
theorem rejectCyclesWithin_eq {items : List WorkItem} (hn : (items.map WorkItem.id).Nodup)
    (hclosed : ∀ item ∈ items, ∀ d ∈ item.dependencies, d ∈ items.map WorkItem.id) (limit : Nat) :
    rejectCyclesWithin host limit items =
      if walkNesting host (items.map fun item => (item.id, item.dependencies)) ≤ limit then
        rejectCycles host items
      else .error recursionError := by
  have hnesting : walkNesting host (items.map fun item => (item.id, item.dependencies)) =
      deepest (visit host (dependencyTable items) (items.length + 1) [])
        (nesting host (dependencyTable items) (items.length + 1) [])
          (items.map WorkItem.id) [] := by
    rw [walkNesting, List.length_map, List.map_map]
    rfl
  have hstep (limit room : Nat) (h : limit ≤ room) := foldlM_within
    (fun visited id => @visit_within host (dependencyTable items) _ _ h [] visited id)
    (items.map WorkItem.id) []
  have hle (room : Nat) : deepest (visit host (dependencyTable items) room [])
      (nesting host (dependencyTable items) room []) (items.map WorkItem.id) [] ≤
        items.length + 1 := by
    apply deepest_le
    intro visited id hid
    have hbelow : ∀ k ∈ items.map WorkItem.id, ∀ d ∈ below (dependencyTable items) k,
        d ∈ items.map WorkItem.id := by
      intro k _ d hd
      obtain ⟨item, hi, _, hd⟩ := (mem_below_dependencyTable hn).1 hd
      exact hclosed item hi d hd
    have hb := @nesting_le host _ _ hbelow room [] visited id hid .nil fun _ h =>
      absurd h List.not_mem_nil
    rw [List.length_map] at hb
    exact hb
  rw [hnesting]
  rcases Nat.le_total limit (items.length + 1) with hl | hl
  · exact hstep limit (items.length + 1) hl
  · rw [if_pos ((hle _).trans hl)]
    have he := hstep (items.length + 1) limit hl
    rw [if_pos (hle limit)] at he
    exact he.symm

theorem foldlM_error {step : List Text → Text → Except PyError (List Text)}
    {ids visited : List Text}
    {e : PyError} (h : ids.foldlM step visited = .error e) :
    ∃ id ∈ ids, ∃ before, step before id = .error e := by
  induction ids generalizing visited with
  | nil => cases h
  | cons id ids ih =>
    rw [List.foldlM_cons] at h
    cases hs : step visited id with
    | error e' =>
      rw [hs] at h
      cases h
      exact ⟨id, List.mem_cons_self, visited, hs⟩
    | ok middle =>
      rw [hs, ok_bind] at h
      obtain ⟨k, hk, before, hb⟩ := ih h
      exact ⟨k, List.mem_cons_of_mem _ hk, before, hb⟩

/-- With room left for all items, the walk raises on a cycle and nowhere else. -/
theorem visit_error {table : Dict Text (List Text)} {ids : List Text}
    (hget : ∀ k ∈ ids, ∃ deps, table.get? k = some deps)
    (hclosed : ∀ k ∈ ids, ∀ d ∈ below table k, d ∈ ids) {depth : Nat}
    {visiting visited : List Text} {id : Text} (hid : id ∈ ids) (hn : visiting.Nodup)
    (hsub : ∀ k ∈ visiting, k ∈ ids) (hroom : ids.length < depth + visiting.length) {e : PyError}
    (h : visit host table depth visiting visited id = .error e) :
    e.kind = .plannerOutputError := by
  induction depth generalizing visiting visited id with
  | zero =>
    have hle : visiting.length ≤ ids.length := (hn.subperm hsub).length_le
    omega
  | succ depth ih =>
    rw [visit] at h
    by_cases hvis : id ∈ visiting
    · rw [if_pos hvis] at h
      cases h
      rfl
    · rw [if_neg hvis] at h
      by_cases hdone : id ∈ visited
      · rw [if_pos hdone] at h
        cases h
      · rw [if_neg hdone] at h
        obtain ⟨deps, hdeps⟩ := hget id hid
        simp only [hdeps] at h
        cases hf : deps.foldlM (visit host table depth (id :: visiting)) visited with
        | ok after =>
          have he : (Except.ok after >>= fun visited : List Text =>
            (Except.ok (id :: visited) : Except PyError (List Text))) = .error e := by
            rw [← hf]
            exact h
          cases he
        | error e' =>
          have he : (Except.error e' >>= fun visited : List Text =>
            (Except.ok (id :: visited) : Except PyError (List Text))) = .error e := by
            rw [← hf]
            exact h
          cases he
          obtain ⟨d, hd, before, hstep⟩ := foldlM_error hf
          have hbelow : d ∈ below table id := by
            rw [below, hdeps]
            exact hd
          apply ih (hclosed id hid d hbelow) (List.nodup_cons.2 ⟨hvis, hn⟩) _ _ hstep
          · exact List.forall_mem_cons.2 ⟨hid, hsub⟩
          · rw [List.length_cons]
            omega

theorem rejectCycles_error {items : List WorkItem} (hn : (items.map WorkItem.id).Nodup)
    (hclosed : ∀ item ∈ items, ∀ d ∈ item.dependencies, d ∈ items.map WorkItem.id) {e : PyError}
    (h : rejectCycles host items = .error e) : e.kind = .plannerOutputError := by
  obtain ⟨id, hid, before, hstep⟩ := foldlM_error h
  apply visit_error _ _ hid .nil _ _ hstep
  · exact dependencyTable_get?
  · intro j _ d hd
    obtain ⟨item, hi, _, hd⟩ := (mem_below_dependencyTable hn).1 hd
    exact hclosed item hi d hd
  · exact fun _ h => absurd h List.not_mem_nil
  · rw [List.length_map, List.length_nil]
    omega

section Loop

variable (host : Host) (config : RouterConfig) (project : PurePath)

/-- `Path.resolve` takes the path of the response, and the project. -/
def Resolves (t : Text) : Prop :=
  ∃ root target, host.resolve project = .ok root ∧
    host.resolve (root.join (PurePath.ofText t)) = .ok target

/-- The loop over the items comes to that affected path: all checks before it pass. -/
inductive ComesTo : List Text → List StatedItem → Text → Prop where
  | here : s.id ∉ seen → config.tasks.contains s.task = true →
      (s.access = .workspaceWrite → s.verification ≠ []) →
      s.affectedPaths = earlier ++ t :: later →
      (∀ p ∈ earlier, ∃ place, LeadsInside host project p place) → ComesTo seen (s :: rest) t
  | later : s.id ∉ seen → config.tasks.contains s.task = true →
      (s.access = .workspaceWrite → s.verification ≠ []) →
      (∀ p ∈ s.affectedPaths, ∃ place, LeadsInside host project p place) →
      ComesTo (s.id :: seen) rest t → ComesTo seen (s :: rest) t

/-- The items are returned, or a `PlannerOutputError` is raised. -/
def PlannerContained {α : Type} (r : Except PyError α) : Prop :=
  ∀ e, r = .error e → e.kind = .plannerOutputError ∨ e.kind = .structuralPlannerOutputError

end Loop

theorem LeadsInside.resolves {t : Text} {place : PurePath}
    (h : LeadsInside host project t place) : Resolves host project t := by
  obtain ⟨root, target, hroot, htarget, _⟩ := h
  exact ⟨root, target, hroot, htarget⟩

theorem resolvePath_error {path : PurePath} {e : PyError} (h : resolvePath host path = .error e) :
    e.kind = .valueError ∧ ∀ target, host.resolve path ≠ .ok target := by
  rw [resolvePath] at h
  split at h <;> cases h
  rename_i hr
  refine ⟨rfl, fun target ht => ?_⟩
  rw [hr] at ht
  cases ht

theorem containedRelativePath_error {t : Text} {e : PyError}
    (h : containedRelativePath host project t = .error e) :
    e.kind = .plannerOutputError ∧ Resolves host project t ∨
      e.kind = .valueError ∧ ¬Resolves host project t := by
  simp only [containedRelativePath, joined_candidate] at h
  cases hroot : resolvePath host project with
  | error e' =>
    rw [hroot] at h
    cases h
    obtain ⟨hk, hnot⟩ := resolvePath_error hroot
    refine .inr ⟨hk, ?_⟩
    rintro ⟨root, _, hroot, _⟩
    exact hnot root hroot
  | ok root =>
    rw [hroot, ok_bind] at h
    cases htarget : resolvePath host (root.join (PurePath.ofText t)) with
    | error e' =>
      rw [htarget] at h
      cases h
      obtain ⟨hk, hnot⟩ := resolvePath_error htarget
      refine .inr ⟨hk, ?_⟩
      rintro ⟨root', target, hr, ht⟩
      apply hnot target
      rw [resolvePath_ok_iff, hr] at hroot
      cases hroot
      exact ht
    | ok target =>
      rw [htarget, ok_bind] at h
      split at h <;> cases h
      exact .inl ⟨rfl, root, target, resolvePath_ok_iff.1 hroot, resolvePath_ok_iff.1 htarget⟩

theorem containedPaths_error {ts : List Text} {e : PyError}
    (h : ts.mapM (containedRelativePath host project) = .error e) :
    (e.kind = .plannerOutputError ∧ ∀ earlier t later, ts = earlier ++ t :: later →
      (∀ p ∈ earlier, ∃ place, LeadsInside host project p place) → Resolves host project t) ∨
    (e.kind = .valueError ∧ ∃ earlier t later, ts = earlier ++ t :: later ∧
      (∀ p ∈ earlier, ∃ place, LeadsInside host project p place) ∧ ¬Resolves host project t) := by
  induction ts with
  | nil => cases h
  | cons first ts ih =>
    rw [List.mapM_cons] at h
    cases hfirst : containedRelativePath host project first with
    | error e' =>
      rw [hfirst] at h
      cases h
      rcases containedRelativePath_error hfirst with ⟨hk, hr⟩ | ⟨hk, hr⟩
      · refine .inl ⟨hk, fun earlier t later he hearlier => ?_⟩
        cases earlier with
        | nil =>
          cases he
          exact hr
        | cons p earlier =>
          cases he
          obtain ⟨place, hp⟩ := hearlier first List.mem_cons_self
          rw [containedRelativePath_ok_iff.2 hp] at hfirst
          cases hfirst
      · exact .inr ⟨hk, [], first, ts, rfl, fun _ hp => absurd hp List.not_mem_nil, hr⟩
    | ok place =>
      rw [hfirst, ok_bind] at h
      have hin := containedRelativePath_ok_iff.1 hfirst
      cases hrest : ts.mapM (containedRelativePath host project) with
      | ok places =>
        rw [hrest] at h
        cases h
      | error e' =>
        rw [hrest] at h
        cases h
        rcases ih hrest with ⟨hk, hr⟩ | ⟨hk, earlier, t, later, he, hearlier, hr⟩
        · refine .inl ⟨hk, fun earlier t later he hearlier => ?_⟩
          cases earlier with
          | nil =>
            cases he
            exact hin.resolves
          | cons p earlier =>
            cases he
            exact hr earlier t later rfl fun q hq => hearlier q (List.mem_cons_of_mem _ hq)
        · exact .inr ⟨hk, first :: earlier, t, later, by rw [he]; rfl,
            List.forall_mem_cons.2 ⟨⟨place, hin⟩, hearlier⟩, hr⟩

/-- What the checks of one item raise, and whether the loop came to a path without an answer. -/
theorem StatedItem.check_error {s : StatedItem} {seen : List Text} {rest : List StatedItem}
    {e : PyError} (h : s.check host config project seen = .error e) :
    (e.kind = .plannerOutputError ∧
      ∀ t, ComesTo host config project seen (s :: rest) t → Resolves host project t) ∨
    (e.kind = .valueError ∧
      ∃ t, ComesTo host config project seen (s :: rest) t ∧ ¬Resolves host project t) := by
  have hfresh {t : Text} (hc : ComesTo host config project seen (s :: rest) t) :
      s.id ∉ seen ∧ config.tasks.contains s.task = true ∧
        (s.access = .workspaceWrite → s.verification ≠ []) := by
    cases hc with
    | here h1 h2 h3 _ _ => exact ⟨h1, h2, h3⟩
    | later h1 h2 h3 _ _ => exact ⟨h1, h2, h3⟩
  rw [check] at h
  by_cases hseen : s.id ∈ seen
  · rw [if_pos hseen] at h
    cases h
    exact .inl ⟨rfl, fun t hc => absurd hseen (hfresh hc).1⟩
  · rw [if_neg hseen] at h
    cases htask : config.tasks.contains s.task with
    | false =>
      rw [htask] at h
      cases h
      refine .inl ⟨rfl, fun t hc => ?_⟩
      rw [(hfresh hc).2.1] at htask
      cases htask
    | true =>
      rw [htask] at h
      by_cases hw : (decide (s.access = .workspaceWrite) && decide (s.verification = [])) = true
      · rw [hw] at h
        cases h
        obtain ⟨ha, hv⟩ : s.access = .workspaceWrite ∧ s.verification = [] := by simpa using hw
        exact .inl ⟨rfl, fun t hc => absurd hv ((hfresh hc).2.2 ha)⟩
      · have hverified : s.access = .workspaceWrite → s.verification ≠ [] := by simpa using hw
        simp only [hw] at h
        have hpaths : s.affectedPaths.mapM (containedRelativePath host project) = .error e := by
          cases hp : s.affectedPaths.mapM (containedRelativePath host project) with
          | ok places =>
            have hok : (s.affectedPaths.mapM (containedRelativePath host project) >>=
              fun paths => .ok (s.planned paths)) = Except.error e := h
            rw [hp] at hok
            cases hok
          | error e' =>
            have herr : (s.affectedPaths.mapM (containedRelativePath host project) >>=
              fun paths => .ok (s.planned paths)) = Except.error e := h
            rw [hp] at herr
            cases herr
            rfl
        rcases containedPaths_error hpaths with ⟨hk, hr⟩ | ⟨hk, earlier, t, later, he, hearlier, hr⟩
        · refine .inl ⟨hk, fun t hc => ?_⟩
          cases hc with
          | here _ _ _ he hearlier => exact hr _ t _ he hearlier
          | later _ _ _ hinside _ =>
            obtain ⟨places, hp⟩ := places_exist hinside
            rw [containedPaths_ok_iff.2 hp] at hpaths
            cases hpaths
        · exact .inr ⟨hk, t, .here hseen htask hverified he hearlier, hr⟩

theorem parseWorkItems_error {values : List Json} {stated : List StatedItem}
    (hstated : List.Forall₂
      (fun value (s : StatedItem) => ∃ fields, value = .obj fields ∧ s.StatedBy fields)
      values stated) {seen : List Text} {index : Nat} {e : PyError}
    (h : parseWorkItems host config project seen index values = .error e) :
    (e.kind = .plannerOutputError ∧
      ∀ t, ComesTo host config project seen stated t → Resolves host project t) ∨
    (e.kind = .valueError ∧
      ∃ t, ComesTo host config project seen stated t ∧ ¬Resolves host project t) := by
  induction hstated generalizing seen index with
  | nil => cases h
  | @cons value s values stated hs _ ih =>
    obtain ⟨fields, rfl, hf⟩ := hs
    rw [parseWorkItems, parseWorkItem_eq hf] at h
    cases hc : s.check host config project seen with
    | error e' =>
      rw [hc] at h
      cases h
      exact StatedItem.check_error hc
    | ok item =>
      rw [hc, ok_bind] at h
      obtain ⟨hseen, htask, hverified, paths, hp, rfl⟩ := StatedItem.check_ok_iff.1 hc
      have hinside : ∀ t ∈ s.affectedPaths, ∃ place, LeadsInside host project t place := by
        have hall := planned_inside (.cons ⟨paths, hp, rfl⟩ .nil)
        exact hall s List.mem_cons_self
      have hrest : parseWorkItems host config project (s.id :: seen) (index + 1) values =
          .error e := by
        cases hr : parseWorkItems host config project (s.id :: seen) (index + 1) values with
        | error e' =>
          rw [StatedItem.planned_id, hr] at h
          cases h
          rfl
        | ok rest =>
          rw [StatedItem.planned_id, hr] at h
          cases h
      rcases ih hrest with ⟨hk, hr⟩ | ⟨hk, t, hcomes, hr⟩
      · refine .inl ⟨hk, fun t hcomes => ?_⟩
        cases hcomes with
        | here _ _ _ he _ =>
          obtain ⟨place, hin⟩ := hinside t (by rw [he]; simp)
          exact hin.resolves
        | later _ _ _ _ hcomes => exact hr t hcomes
      · exact .inr ⟨hk, t, .later hseen htask hverified hinside hcomes, hr⟩

theorem ComesTo.mem {seen : List Text} {stated : List StatedItem} {t : Text}
    (h : ComesTo host config project seen stated t) : ∃ s ∈ stated, t ∈ s.affectedPaths := by
  induction h with
  | here _ _ _ he _ => exact ⟨_, List.mem_cons_self, by rw [he]; simp⟩
  | later _ _ _ _ _ ih =>
    obtain ⟨s, hs, ht⟩ := ih
    exact ⟨s, List.mem_cons_of_mem _ hs, ht⟩

theorem rejectMissing_error {items : List WorkItem} {ids : List Text} {e : PyError}
    (h : items.mapM (rejectMissing host ids) = .error e) : e.kind = .plannerOutputError := by
  induction items with
  | nil => cases h
  | cons item items ih =>
    rw [List.mapM_cons] at h
    cases hr : rejectMissing host ids item with
    | error e' =>
      rw [hr] at h
      cases h
      rw [rejectMissing] at hr
      split at hr <;> cases hr
      rfl
    | ok u =>
      rw [hr, ok_bind] at h
      cases hm : items.mapM (rejectMissing host ids) with
      | error e' =>
        rw [hm] at h
        cases h
        exact ih hm
      | ok us =>
        rw [hm] at h
        cases h

/-- The conditions on a response that the code itself raises planner errors for, or none. -/
def Reading.Plannable (host : Host) (config : RouterConfig) (project : PurePath) (limit : Nat) :
    Reading → Prop
  | .unreadable _ => True
  | .tooManyDigits _ | .tooDeep _ => False
  | .value loaded => ∀ raw stated, loaded = .obj raw →
    PlannerSchema.plannerOutput.accepts (.obj raw) = true → StatesPlan raw stated →
      (∀ t, ComesTo host config project [] stated t → Resolves host project t) ∧
      (CheckedPlan host config project stated →
        walkNesting host (stated.map fun s => (s.id, s.dependencies)) ≤ limit)

theorem parseSemanticWithin_contained_iff {raw : Fields} {stated : List StatedItem} {limit : Nat}
    (hs : StatesPlan raw stated) :
    PlannerContained (parseSemanticWithin host config project limit raw) ↔
      (∀ t, ComesTo host config project [] stated t → Resolves host project t) ∧
      (CheckedPlan host config project stated →
        walkNesting host (stated.map fun s => (s.id, s.dependencies)) ≤ limit) := by
  obtain ⟨values, hvalues, hstated⟩ := hs
  have hread : PlannerField.sequence raw (text "work-items") = .ok values :=
    required_ok hvalues rfl
  rw [parseSemanticWithin, hread, ok_bind]
  cases hitems : parseWorkItems host config project [] 0 values with
  | error e =>
    rw [error_bind]
    have hchecked : ¬CheckedPlan host config project stated := by
      intro hc
      obtain ⟨items, hp⟩ := planned_exists hc.inside
      rw [(parseWorkItems_ok_iff hstated).2 ⟨hc.distinct, fun _ _ => List.not_mem_nil,
        fun s hs => ⟨hc.configured s hs, hc.verified s hs⟩, hp⟩] at hitems
      cases hitems
    rcases parseWorkItems_error hstated hitems with ⟨hk, hr⟩ | ⟨hk, t, hcomes, hr⟩
    · refine iff_of_true (fun e' he' => ?_) ⟨hr, fun hc => absurd hc hchecked⟩
      cases he'
      exact .inl hk
    · refine iff_of_false (fun h => ?_) fun h => hr (h.1 t hcomes)
      have hkind := h e rfl
      rw [hk] at hkind
      rcases hkind with hkind | hkind <;> cases hkind
  | ok items =>
    rw [ok_bind]
    obtain ⟨hn, _, hall, hp⟩ := (parseWorkItems_ok_iff hstated).1 hitems
    have hresolves (t : Text) (hc : ComesTo host config project [] stated t) :
        Resolves host project t := by
      obtain ⟨s, hs, ht⟩ := hc.mem
      obtain ⟨place, hin⟩ := planned_inside hp s hs t ht
      exact hin.resolves
    rw [and_iff_right hresolves]
    cases hmissing : items.mapM (rejectMissing host (items.map WorkItem.id)) with
    | error e =>
      rw [error_bind]
      refine iff_of_true (fun e' he' => ?_) fun hc => ?_
      · cases he'
        exact .inl (rejectMissing_error hmissing)
      · obtain ⟨us, hus⟩ := (rejectMissing_all_iff).2 ((planned_closed_iff hp).2 hc.closed)
        rw [hmissing] at hus
        cases hus
    | ok us =>
      rw [ok_bind]
      have hclosed := rejectMissing_all_iff.1 ⟨us, hmissing⟩
      have hchecked : CheckedPlan host config project stated := ⟨hn, fun s hs => (hall s hs).1,
        fun s hs => (hall s hs).2, planned_inside hp, (planned_closed_iff hp).1 hclosed⟩
      have hnodup : (items.map WorkItem.id).Nodup := planned_ids hp ▸ hn
      rw [rejectCyclesWithin_eq hnodup hclosed, planned_edges hp, imp_iff_right hchecked]
      by_cases hle : walkNesting host (stated.map fun s => (s.id, s.dependencies)) ≤ limit
      · rw [if_pos hle]
        refine iff_of_true (fun e he => ?_) hle
        cases hcycles : rejectCycles host items with
        | ok order =>
          rw [hcycles] at he
          cases he
        | error e' =>
          rw [hcycles] at he
          cases he
          exact .inl (rejectCycles_error hnodup hclosed hcycles)
      · rw [if_neg hle]
        refine iff_of_false (fun h => ?_) hle
        have hkind := h recursionError rfl
        rcases hkind with hkind | hkind <;> cases hkind

/-- The validator keeps to planner errors on exactly the responses that meet the conditions. -/
theorem plannerErrors_iff (host : Host) (config : RouterConfig) (project : PurePath) (limit : Nat)
    (reading : Reading) : PlannerContained (validateReading host config project limit reading) ↔
      reading.Plannable host config project limit := by
  cases reading with
  | unreadable message =>
    refine iff_of_true (fun e he => ?_) trivial
    cases he
    exact .inr rfl
  | tooManyDigits message =>
    refine iff_of_false (fun h => ?_) id
    rcases h _ rfl with hk | hk <;> cases hk
  | tooDeep message =>
    refine iff_of_false (fun h => ?_) id
    rcases h _ rfl with hk | hk <;> cases hk
  | value loaded =>
    rw [validateReading, Reading.Plannable]
    cases loaded with
    | obj raw =>
      simp only [PlannerField.mapping, Decoder.mapping, ok_bind]
      by_cases ha : PlannerSchema.plannerOutput.accepts (.obj raw) = true
      · rw [if_pos ha]
        obtain ⟨stated, hs⟩ := stated_exists ha
        constructor
        · intro h raw' stated' he _ hs'
          cases he
          exact (parseSemanticWithin_contained_iff hs').1 h
        · intro h
          exact (parseSemanticWithin_contained_iff hs).2 (h raw stated rfl ha hs)
      · rw [if_neg ha]
        refine iff_of_true (fun e he => ?_) fun raw' _ he ha' => ?_
        · cases he
          exact .inr rfl
        · cases he
          exact absurd ha' ha
    | _ =>
      refine iff_of_true (fun e he => ?_) fun raw _ he => ?_
      · cases he
        exact .inr rfl
      · cases he

/-- A path as `Path.resolve` takes it: the NUL character raises `ValueError`. -/
def nulHost : Host :=
  { sampleHost with
    resolve := fun p => if 0 ∈ p.text then .error (text "embedded null byte") else .ok p }

/-- A plan of one item that is to touch the path `t`. -/
def touchingFields (t : Text) : Fields := [(text "work-items", .arr [.obj [
  (text "id", .str (text "a")),
  (text "title", .str (text "Title")),
  (text "instructions", .str (text "Do it")),
  (text "task", .str (text "work")),
  (text "phase", .str (text "one")),
  (text "dependencies", .arr []),
  (text "access", .str (text "read-only")),
  (text "affected-paths", .arr [.str t]),
  (text "expected-result", .str (text "Done")),
  (text "verification", .arr []),
  (text "confidence", .int 1),
  (text "risk-flags", .arr [])]])]

theorem nul_path_escapes :
    PlannerSchema.plannerOutput.accepts (.obj (touchingFields [0])) = true ∧
      ¬PlannerContained (validateReading nulHost (sampleConfig .automatic .automatic .readOnly)
        samplePath 1000 (.value (.obj (touchingFields [0])))) := by
  have he : validateReading nulHost (sampleConfig .automatic .automatic .readOnly) samplePath 1000
      (.value (.obj (touchingFields [0]))) = .error ⟨.valueError, text "embedded null byte"⟩ := by
    decide +kernel
  refine ⟨by decide +kernel, fun h => ?_⟩
  rcases h _ he with hk | hk <;> cases hk

/-- Without the limits of CPython's `json`. -/
def Reading.ofLoads : Except Text Json → Reading
  | .ok loaded => .value loaded
  | .error message => .unreadable message

theorem parseSemanticWithin_eq {raw : Fields} {stated : List StatedItem} {limit : Nat}
    (hs : StatesPlan raw stated)
    (h : CheckedPlan host config project stated →
      walkNesting host (stated.map fun s => (s.id, s.dependencies)) ≤ limit) :
    parseSemanticWithin host config project limit raw =
      parseSemanticWorkItems host config project raw := by
  obtain ⟨values, hvalues, hstated⟩ := hs
  have hread : PlannerField.sequence raw (text "work-items") = .ok values :=
    required_ok hvalues rfl
  rw [parseSemanticWithin, parseSemanticWorkItems, hread, ok_bind, ok_bind]
  cases hitems : parseWorkItems host config project [] 0 values with
  | error e => rfl
  | ok items =>
    rw [ok_bind, ok_bind]
    cases hmissing : items.mapM (rejectMissing host (items.map WorkItem.id)) with
    | error e => rfl
    | ok us =>
      obtain ⟨hn, _, hall, hp⟩ := (parseWorkItems_ok_iff hstated).1 hitems
      have hclosed := rejectMissing_all_iff.1 ⟨us, hmissing⟩
      have hle := h ⟨hn, fun s hs => (hall s hs).1, fun s hs => (hall s hs).2, planned_inside hp,
        (planned_closed_iff hp).1 hclosed⟩
      rw [rejectCyclesWithin_eq (planned_ids hp ▸ hn) hclosed, planned_edges hp, if_pos hle]

theorem validateReading_eq {content : Text} {limit : Nat}
    (h : ∀ raw stated, host.loads content = .ok (.obj raw) → StatesPlan raw stated →
      CheckedPlan host config project stated →
        walkNesting host (stated.map fun s => (s.id, s.dependencies)) ≤ limit) :
    validateReading host config project limit (Reading.ofLoads (host.loads content)) =
      parseAndValidate host config project (some content) := by
  cases hl : host.loads content with
  | error message =>
    simp only [parseAndValidate.eq_def, hl]
    rfl
  | ok loaded =>
    simp only [parseAndValidate.eq_def, hl, Reading.ofLoads, validateReading]
    cases loaded with
    | obj raw =>
      simp only [PlannerField.mapping, Decoder.mapping, ok_bind]
      by_cases ha : PlannerSchema.plannerOutput.accepts (.obj raw) = true
      · obtain ⟨stated, hs⟩ := stated_exists ha
        rw [if_pos ha, if_pos ha]
        exact parseSemanticWithin_eq hs (h raw stated hl hs)
      · rw [if_neg ha, if_neg ha]
    | _ => rfl

end GoalRouter
