import GoalRouter.PlanValidation
import GoalRouter.RedactionShape
import GoalRouter.StoredIdempotence
import Mathlib.Algebra.BigOperators.Group.List.Basic
import Mathlib.Algebra.Ring.Int.Defs
import Mathlib.Data.List.DropRight

namespace GoalRouter
open Library
set_option autoImplicit true

/-- How Python adds floats and writes them. -/
structure FloatFormat where
  /-- `format(x, "g")`. -/
  general : PyFloat → Text
  /-- `sum(xs)`. -/
  sum : List PyFloat → PyFloat

/-- The same, where a sum is taken not to depend on the order. -/
structure FloatText extends FloatFormat where
  general_nan : ∀ {x}, PyFloat.isNaN x = true → general x = general PyFloat.nan
  sum_perm : ∀ {xs ys}, xs.Perm ys → sum xs = sum ys
  sum_nan : ∀ {x xs}, x ∈ xs → PyFloat.isNaN x = true → PyFloat.isNaN (sum xs) = true

instance : Coe FloatText FloatFormat := ⟨FloatText.toFloatFormat⟩

def hexDigit (n : Nat) : CodePoint := Fin.ofNat _ (if n < 10 then 48 + n else 87 + n)

/-- The lowest hexadecimal digits of a number. -/
def hexDigits : Nat → Nat → Text
  | 0, _ => []
  | width + 1, n => hexDigits width (n / 16) ++ [hexDigit (n % 16)]

/-- One character in `_display_text`. -/
def displayCharacter (c : CodePoint) : Text :=
  if c = 0x5C then text "\\\\"
  else if c = 0x0A then text "\\n"
  else if c = 0x0D then text "\\r"
  else if c = 0x09 then text "\\t"
  else if 0xDC80 ≤ c.val ∧ c.val ≤ 0xDCFF then text "\\x" ++ hexDigits 2 (c.val - 0xDC00)
  else if c.val < 0x20 ∨ c.val = 0x7F then text "\\x" ++ hexDigits 2 c.val
  else if 0xD800 ≤ c.val ∧ c.val ≤ 0xDFFF then text "\\u" ++ hexDigits 4 c.val
  else [c]

def displayText (value : Text) : Text := value.flatMap displayCharacter

def displayPath (path : PurePath) : Text := displayText path.text

/-- `value or "(none)"`. -/
def orNone (value : Text) : Text := orElseText value (text "(none)")

def commaList (parts : List Text) : Text := orNone (joinTexts (text ", ") parts)

def displayPaths (paths : List PurePath) : Text := commaList (paths.map displayPath)

def displayPairs (values : List (Text × Int)) : Text :=
  commaList (values.map fun e => e.1 ++ text "=" ++ decimal e.2)

def dirtySummary (r : RepositoryContext) : Text :=
  if r.dirtyPaths = [] then text "clean"
  else joinTexts (text ", ") (r.dirtyPaths.map displayPath)

def branchText : Option Text → Text
  | none | some [] => text "(none)"
  | some branch => displayText branch

def safeJson (host : Host) (value : Json) : Text := host.canonicalDumps (redactJson value)

/-- `t.rstrip()`. -/
def rstrip (t : Text) : Text := t.rdropWhile isSpace

section Lines

def objectiveLines (s : RunState) : List Text := [
  text "# GoalRouter run " ++ s.runId,
  [],
  text "## Objective",
  [],
  text "- Prompt: " ++ s.objective.prompt,
  text "- Project path: " ++ displayPath s.objective.projectPath,
  text "- Status: " ++ StrEnum.value s.status,
  text "- Created: " ++ s.objective.createdAt.isoformat,
  text "- Configuration: " ++ displayPath s.objective.configPath,
  text "- Configuration digest: " ++ s.configurationDigest,
  []]

def instructionLines (f : InstructionFile) : List Text :=
  [text "#### " ++ displayPath f.path, [], rstrip f.content, []]

def repositoryLines (r : RepositoryContext) : List Text :=
  [
    text "## Repository",
    [],
    text "- Git worktree: " ++ text (if r.isGitWorktree then "yes" else "no"),
    text "- Branch: " ++ branchText r.branch,
    text "- Dirty state: " ++ dirtySummary r,
    text "- Languages: " ++ displayPairs r.languageCounts,
    text "- Docker files: " ++ displayPaths r.dockerFiles,
    [],
    text "### Instruction files",
    []] ++
  if r.instructionFiles = [] then [text "(none)", []]
  else r.instructionFiles.flatMap instructionLines

def itemLines (item : WorkItem) (route : RouteDecision) (result : Option WorkResult) :
    List Text := [
  text "### " ++ item.id ++ text ": " ++ item.title,
  [],
  text "- Phase: " ++ item.phase,
  text "- Task: " ++ route.task,
  text "- Route reason: " ++ route.reason,
  text "- Model: " ++ route.model,
  text "- Reasoning effort: " ++ route.reasoningEffort,
  text "- Sandbox: " ++ StrEnum.value route.sandbox,
  text "- Approval: " ++ StrEnum.value route.approval,
  text "- Dependencies: " ++ commaList item.dependencies,
  text "- Affected paths: " ++ displayPaths item.affectedPaths,
  text "- Required verification: " ++ commaList item.verification,
  text "- Status: " ++ (result.map fun r => StrEnum.value r.status).getD (text "pending"),
  text "- Thread ID: " ++ orNone ((result.bind WorkResult.threadId).getD []),
  text "- Turn ID: " ++ orNone ((result.bind WorkResult.turnId).getD [])]

variable (host : Host) (floats : FloatFormat)

def resultLines : Option WorkResult → List Text
  | none => [[]]
  | some r => [
    text "- Usage: input " ++ decimal r.inputTokens ++ text ", cached " ++
      decimal r.cachedInputTokens ++ text ", output " ++ decimal r.outputTokens,
    text "- Duration seconds: " ++ floats.general r.durationSeconds,
    text "- Changed paths: " ++ displayPaths r.changedPaths,
    text "- Verification evidence: " ++ commaList r.verification,
    text "- Confidence: " ++ floats.general r.confidence,
    text "- Error: " ++ orNone (r.error.getD []),
    [],
    text "#### Final response",
    [],
    orNone (r.finalResponse.getD []),
    [],
    text "#### Safe SDK item summary",
    [],
    safeJson host (.arr r.sdkItems),
    []]

def usageLines (results : List WorkResult) : List Text := [
  text "## Total usage",
  [],
  text "- Input tokens: " ++ decimal (results.map WorkResult.inputTokens).sum,
  text "- Cached input tokens: " ++ decimal (results.map WorkResult.cachedInputTokens).sum,
  text "- Output tokens: " ++ decimal (results.map WorkResult.outputTokens).sum,
  text "- Duration seconds: " ++
    floats.general (floats.sum (results.map WorkResult.durationSeconds)),
  []]

/-- The lines about the item under a key. -/
def entryLines (s : RunState) (e : Text × WorkItem) : Except PyError (List Text) :=
  match s.routes.get? e.1 with
  | none => .error ⟨.keyError, host.repr e.1⟩
  | some route =>
    let result := s.results.get? e.1
    .ok (itemLines e.2 route result ++ resultLines host floats result)

/-- `ReportRenderer.render`, where no limit of the interpreter is reached. -/
def renderReport (s : RunState) : Except PyError Text := do
  let items ← s.workItems.sorted.entries.mapM (entryLines host floats s)
  return joinTexts [0x0A] (objectiveLines s ++ repositoryLines s.repository ++
    [text "## Work items", []] ++ items.flatten ++ usageLines floats s.results.values)

/-- The integers that a line prints. -/
def printIntegers (limits : InterpreterLimits) (ns : List Int) : Except PyError Unit :=
  if ∀ n ∈ ns, n.natAbs < 10 ^ limits.digits then .ok () else .error ⟨.valueError, []⟩

/-- `_safe_json` of the items of a result, for its errors. -/
def printItems (limits : InterpreterLimits) (r : WorkResult) : Except PyError Unit := do
  let items ← redactJsonWithin limits.keyCalls limits.calls (.arr r.sdkItems)
  match dumpsError limits items with
  | some e => .error e
  | none => .ok ()

def printResult (limits : InterpreterLimits) : Option WorkResult → Except PyError Unit
  | none => .ok ()
  | some r => do
    printIntegers limits [r.inputTokens, r.cachedInputTokens, r.outputTokens]
    printItems limits r

def totals (results : List WorkResult) : List Int :=
  [(results.map WorkResult.inputTokens).sum, (results.map WorkResult.cachedInputTokens).sum,
    (results.map WorkResult.outputTokens).sum]

/-- `ReportRenderer.render` within the limits of the interpreter: what raises first, in the order of
the lines, or else the text. -/
def renderWithin (limits : InterpreterLimits) (s : RunState) : Except PyError Text := do
  printIntegers limits (s.repository.languageCounts.map Prod.snd)
  s.workItems.sorted.entries.forM fun e => do
    let _ ← entryLines host floats s e
    printResult limits (s.results.get? e.1)
  printIntegers limits (totals s.results.values)
  renderReport host floats s

end Lines

section Shown

/-- The texts that the report shows of a record. -/
def InstructionFile.shown (f : InstructionFile) : List Text := [f.path.text, f.content]

def RepositoryContext.shown (r : RepositoryContext) : List Text :=
  r.branch.toList ++ r.dirtyPaths.map PurePath.text ++
    r.instructionFiles.flatMap InstructionFile.shown ++
    r.languageCounts.map Prod.fst ++ r.dockerFiles.map PurePath.text

def WorkItem.shown (i : WorkItem) : List Text :=
  [i.id, i.title, i.phase] ++ i.dependencies ++ i.affectedPaths.map PurePath.text ++ i.verification

def RouteDecision.shown (r : RouteDecision) : List Text :=
  [r.task, r.reason, r.model, r.reasoningEffort]

def WorkResult.shown (r : WorkResult) : List Text :=
  r.threadId.toList ++ r.turnId.toList ++ r.changedPaths.map PurePath.text ++ r.verification ++
    r.error.toList ++ r.finalResponse.toList

def RunState.shown (s : RunState) : List Text :=
  [s.runId, s.objective.prompt, s.objective.projectPath.text, s.objective.configPath.text,
    s.configurationDigest] ++ s.repository.shown ++ s.workItems.values.flatMap WorkItem.shown ++
    s.routes.values.flatMap RouteDecision.shown ++ s.results.values.flatMap WorkResult.shown

/-- A JSON value whose objects have each key once, and whose keys are free of surrogate pairs. -/
inductive PlainlyKeyed : Json → Prop where
  | null : PlainlyKeyed .null
  | bool (b : Bool) : PlainlyKeyed (.bool b)
  | int (n : Int) : PlainlyKeyed (.int n)
  | float (x : PyFloat) : PlainlyKeyed (.float x)
  | str (t : Text) : PlainlyKeyed (.str t)
  | arr (h : ∀ x ∈ xs, PlainlyKeyed x) : PlainlyKeyed (.arr xs)
  | obj (hn : (fields.map Prod.fst).Nodup) (hk : ∀ e ∈ fields, joinSurrogates e.1 = e.1)
      (hv : ∀ e ∈ fields, PlainlyKeyed e.2) : PlainlyKeyed (.obj fields)

/-- What the report shows of the state is stored as it is. -/
structure RunState.Showable (s : RunState) : Prop where
  texts : ∀ t ∈ s.shown, persistText t = t
  items : ∀ r ∈ s.results.values, PlainlyKeyed (.arr r.sdkItems)

/-- `json.dumps` with sorted keys writes a value read back as it wrote the value. -/
def Host.RewritesJson (host : Host) : Prop :=
  ∀ j, PlainlyKeyed j → host.canonicalDumps j.reload = host.canonicalDumps j

end Shown

section Persisted

theorem map_persistText {ts : List Text} (h : ∀ t ∈ ts, persistText t = t) :
    ts.map persistText = ts := by
  rw [List.map_congr_left h, List.map_id']

theorem persistPath_of_text {p : PurePath} (h : persistText p.text = p.text) :
    persistPath p = p := by
  rw [persistPath, h, PurePath.ofText_text]

theorem map_persistPath {ps : List PurePath} (h : ∀ t ∈ ps.map PurePath.text, persistText t = t) :
    ps.map persistPath = ps := by
  have hp (p : PurePath) (hp : p ∈ ps) : persistPath p = p :=
    persistPath_of_text (h _ (List.mem_map_of_mem hp))
  rw [List.map_congr_left hp, List.map_id']

theorem optionMap_persistText {t : Option Text} (h : ∀ u ∈ t.toList, persistText u = u) :
    t.map persistText = t := by
  cases t with
  | none => rfl
  | some t => exact congrArg some (h t List.mem_cons_self)

theorem redactText_persistText (t : Text) : redactText (persistText t) = persistText t := by
  by_cases h : isSecretValue (persistText t) = true
  · have hi := persistText_idem t
    rw [persistText, redactText, if_pos h, joined_redacted] at hi
    rw [redactText, if_pos h, hi]
  · rw [redactText, if_neg h]

theorem redactJson_persistJson (j : Json) : redactJson (persistJson j) = persistJson j := by
  induction j using Json.induct with
  | null | bool | int | float => rfl
  | str t => rw [persistJson_str, redactJson, redactText_persistText]
  | arr xs ih =>
    rw [persistJson_arr, redactJson, redactList_eq_map, List.map_map]
    exact congrArg _ (List.map_congr_left ih)
  | obj fields ih =>
    rw [persistJson_obj, redactJson, redactFields_eq_map]
    congr 1
    conv => rhs; rw [← List.map_id (persistFields fields)]
    apply List.map_congr_left
    intro e he
    obtain ⟨k, hk, hj⟩ := Json.mem_reloadKeys he
    obtain ⟨d, hd, hv⟩ := List.mem_map.1 hk
    obtain ⟨rfl, hd2⟩ := Prod.mk.inj hv
    have hs : isSecretKey e.1 = isSecretKey d.1 := by rw [hj, isSecretKey_join]
    have hm : redactMember e.1 e.2 = e.2 := by
      rw [← hd2, redactMember, hs, persistMember]
      cases isSecretKey d.1 with
      | true => rfl
      | false => exact ih d hd
    rw [hm]
    rfl

theorem PlainlyKeyed.redacted (h : PlainlyKeyed j) : PlainlyKeyed (redactJson j) := by
  induction h with
  | null => exact .null
  | bool b => exact .bool b
  | int n => exact .int n
  | float x => exact .float x
  | str t => exact .str _
  | arr _ ih =>
    rw [redactJson, redactList_eq_map]
    apply PlainlyKeyed.arr
    intro x hx
    obtain ⟨y, hy, rfl⟩ := List.mem_map.1 hx
    exact ih y hy
  | obj hn hk _ ih =>
    rw [redactJson, redactFields_eq_map]
    apply PlainlyKeyed.obj
    · rw [List.map_map]
      exact hn
    · intro e he
      obtain ⟨d, hd, rfl⟩ := List.mem_map.1 he
      exact hk d hd
    · intro e he
      obtain ⟨d, hd, rfl⟩ := List.mem_map.1 he
      simp only [redactMember]
      split
      · exact .str _
      · exact ih d hd

theorem safeJson_persisted (hd : host.RewritesJson) {items : List Json}
    (h : PlainlyKeyed (.arr items)) :
    safeJson host (.arr (items.map persistJson)) = safeJson host (.arr items) := by
  rw [safeJson, safeJson, ← persistJson_arr, redactJson_persistJson]
  exact hd _ h.redacted

variable {floats : FloatText}

theorem general_persistFloat (x : PyFloat) :
    floats.general (persistFloat x) = floats.general x := by
  cases h : PyFloat.isNaN x with
  | true => rw [persistFloat, if_pos h, floats.general_nan h]
  | false => rw [persistFloat, h, if_neg Bool.false_ne_true]

theorem general_sum_persistFloat (xs : List PyFloat) :
    floats.general (floats.sum (xs.map persistFloat)) = floats.general (floats.sum xs) := by
  by_cases h : ∃ x ∈ xs, PyFloat.isNaN x = true
  · obtain ⟨x, hx, hn⟩ := h
    have hp : persistFloat x = PyFloat.nan := by rw [persistFloat, if_pos hn]
    have hm : PyFloat.nan ∈ xs.map persistFloat := hp ▸ List.mem_map_of_mem hx
    rw [floats.general_nan (floats.sum_nan hx hn),
      floats.general_nan (floats.sum_nan hm PyFloat.isNaN_nan)]
  · have hx (x : PyFloat) (hm : x ∈ xs) : persistFloat x = x := by
      rw [persistFloat, if_neg fun hn => h ⟨x, hm, hn⟩]
    rw [List.map_congr_left hx, List.map_id']

theorem repositoryLines_persisted {r : RepositoryContext} (h : ∀ t ∈ r.shown, persistText t = t) :
    repositoryLines r.persisted = repositoryLines r := by
  simp only [RepositoryContext.shown, List.forall_mem_append] at h
  obtain ⟨⟨⟨⟨hb, hd⟩, hf⟩, hl⟩, hk⟩ := h
  have hfile (f : InstructionFile) (hm : f ∈ r.instructionFiles) : f.persisted = f := by
    have hs := List.forall_mem_flatMap.1 hf f hm
    rw [InstructionFile.persisted, persistPath_of_text (hs _ List.mem_cons_self),
      hs f.content (List.mem_cons_of_mem _ List.mem_cons_self)]
  have hfiles : r.instructionFiles.map InstructionFile.persisted = r.instructionFiles := by
    rw [List.map_congr_left hfile, List.map_id']
  have hcount (e : Text × Int) (hm : e ∈ r.languageCounts) : (persistText e.1, e.2) = e := by
    rw [hl e.1 (List.mem_map_of_mem hm)]
  have hcounts : r.languageCounts.map (fun e => (persistText e.1, e.2)) = r.languageCounts := by
    rw [List.map_congr_left hcount, List.map_id']
  simp only [repositoryLines, dirtySummary, RepositoryContext.persisted, optionMap_persistText hb,
    map_persistPath hd, hfiles, hcounts, map_persistPath hk]

theorem itemLines_persisted {item : WorkItem} {route : RouteDecision} {result : Option WorkResult}
    (hi : ∀ t ∈ item.shown, persistText t = t) (ho : ∀ t ∈ route.shown, persistText t = t)
    (hr : ∀ r ∈ result, ∀ t ∈ r.shown, persistText t = t) :
    itemLines item.persisted route.persisted (result.map WorkResult.persisted) =
      itemLines item route result := by
  simp only [WorkItem.shown, List.forall_mem_append, List.forall_mem_cons] at hi
  simp only [RouteDecision.shown, List.forall_mem_cons] at ho
  obtain ⟨⟨⟨⟨hid, htitle, hphase, _⟩, hdeps⟩, hpaths⟩, hver⟩ := hi
  obtain ⟨htask, hreason, hmodel, heffort, _⟩ := ho
  have hthread : (result.map WorkResult.persisted).bind WorkResult.threadId =
      result.bind WorkResult.threadId := by
    cases result with
    | none => rfl
    | some r =>
      have hs := hr r rfl
      simp only [WorkResult.shown, List.forall_mem_append] at hs
      exact optionMap_persistText hs.1.1.1.1.1
  have hturn : (result.map WorkResult.persisted).bind WorkResult.turnId =
      result.bind WorkResult.turnId := by
    cases result with
    | none => rfl
    | some r =>
      have hs := hr r rfl
      simp only [WorkResult.shown, List.forall_mem_append] at hs
      exact optionMap_persistText hs.1.1.1.1.2
  have hstatus : (result.map WorkResult.persisted).map (fun r => StrEnum.value r.status) =
      result.map fun r => StrEnum.value r.status := by
    rw [Option.map_map]
    rfl
  simp only [itemLines, WorkItem.persisted, RouteDecision.persisted, hid, htitle, hphase, htask,
    hreason, hmodel, heffort, map_persistText hdeps, map_persistPath hpaths, map_persistText hver,
    hthread, hturn, hstatus]

theorem resultLines_persisted (hd : host.RewritesJson) {result : Option WorkResult}
    (hr : ∀ r ∈ result, (∀ t ∈ r.shown, persistText t = t) ∧ PlainlyKeyed (.arr r.sdkItems)) :
    resultLines host floats (result.map WorkResult.persisted) = resultLines host floats result := by
  cases result with
  | none => rfl
  | some r =>
    obtain ⟨hs, hj⟩ := hr r rfl
    simp only [WorkResult.shown, List.forall_mem_append] at hs
    obtain ⟨⟨⟨⟨_, hpaths⟩, hver⟩, herror⟩, hfinal⟩ := hs
    simp only [Option.map_some, resultLines, WorkResult.persisted, general_persistFloat,
      map_persistPath hpaths, map_persistText hver, optionMap_persistText herror,
      optionMap_persistText hfinal, safeJson_persisted hd hj]

theorem values_persisted_perm (m : Dict Text WorkResult) :
    (persistDict WorkResult.persisted m).values.Perm (m.values.map WorkResult.persisted) := by
  have hentries : m.sorted.entries.Perm m.entries := by
    apply (List.perm_ext_iff_of_nodup _ _).2
    · intro e
      rw [SortedMap.mem_entries, Dict.get?_sorted, Dict.mem_entries]
    · exact List.Nodup.of_map _ m.sorted.keys_nodup
    · exact List.Nodup.of_map _ m.nodup
  have hvalues : (persistDict WorkResult.persisted m).values =
      m.sorted.entries.map fun e => e.2.persisted := by
    rw [persistDict, Dict.values, Dict.ofSorted, SortedMap.map]
    simp only [List.map_map]
    rfl
  rw [hvalues, Dict.values, List.map_map]
  exact hentries.map _

theorem usageLines_persisted (m : Dict Text WorkResult) :
    usageLines floats (persistDict WorkResult.persisted m).values = usageLines floats m.values := by
  have hp := values_persisted_perm m
  have hsum (f : WorkResult → Int) (hf : ∀ r : WorkResult, f r.persisted = f r) :
      ((persistDict WorkResult.persisted m).values.map f).sum = (m.values.map f).sum := by
    rw [(hp.map f).sum_eq, List.map_map]
    exact congrArg List.sum (List.map_congr_left fun r _ => hf r)
  have hduration : floats.general (floats.sum
      ((persistDict WorkResult.persisted m).values.map WorkResult.durationSeconds)) =
        floats.general (floats.sum (m.values.map WorkResult.durationSeconds)) := by
    have hm : (m.values.map WorkResult.persisted).map WorkResult.durationSeconds =
        (m.values.map WorkResult.durationSeconds).map persistFloat := by
      rw [List.map_map, List.map_map]
      rfl
    rw [floats.sum_perm (hp.map WorkResult.durationSeconds), hm, general_sum_persistFloat]
  simp only [usageLines, hsum WorkResult.inputTokens fun _ => rfl,
    hsum WorkResult.cachedInputTokens fun _ => rfl, hsum WorkResult.outputTokens fun _ => rfl,
    hduration]

end Persisted

theorem mapM_congr {f g : α → Except PyError β} {xs : List α} (h : ∀ x ∈ xs, f x = g x) :
    xs.mapM f = xs.mapM g := by
  induction xs with
  | nil => rfl
  | cons x xs ih =>
    rw [List.mapM_cons, List.mapM_cons, h x List.mem_cons_self,
      ih fun y hy => h y (List.mem_cons_of_mem _ hy)]

namespace RunState.Showable

variable {s : RunState} {floats : FloatText}

theorem objectiveLines (h : s.Showable) : objectiveLines s.persisted = objectiveLines s := by
  have ht := h.texts
  simp only [shown, List.forall_mem_append, List.forall_mem_cons] at ht
  obtain ⟨⟨⟨⟨⟨hid, hprompt, hproject, hconfig, hdigest, _⟩, _⟩, _⟩, _⟩, _⟩ := ht
  rw [runId] at hid
  simp only [GoalRouter.objectiveLines, runId, RunState.persisted, Objective.persisted, hid,
    hprompt, persistPath_of_text hproject, persistPath_of_text hconfig, hdigest]

theorem entryLines (h : s.Showable) (hd : host.RewritesJson) (he : s.workItems.get? k = some item) :
    entryLines host floats s.persisted (k, item.persisted) =
      entryLines host floats s (k, item) := by
  have ht := h.texts
  simp only [shown, List.forall_mem_append, List.forall_mem_flatMap] at ht
  obtain ⟨⟨⟨_, hi⟩, ho⟩, hr⟩ := ht
  have hresult (r : WorkResult) (hg : s.results.get? k = some r) : r ∈ s.results.values :=
    Dict.mem_values.2 ⟨k, hg⟩
  simp only [GoalRouter.entryLines, RunState.persisted, get?_persistDict]
  cases hg : s.routes.get? k with
  | none => rfl
  | some route =>
    have hl := itemLines_persisted (hi _ (Dict.mem_values.2 ⟨k, he⟩))
      (ho _ (Dict.mem_values.2 ⟨k, hg⟩)) fun r hg => hr r (hresult r hg)
    have hrl := @resultLines_persisted floats host hd _ fun r hg =>
      ⟨hr r (hresult r hg), h.items r (hresult r hg)⟩
    simp only [Option.map_some, hl, hrl]

/-- A state whose texts are stored as they are is reported as it is after a reload. -/
theorem renderReport (h : s.Showable) (hd : host.RewritesJson) :
    renderReport host floats s.persisted = renderReport host floats s := by
  have ht := h.texts
  simp only [shown, List.forall_mem_append] at ht
  have hentries : s.persisted.workItems.sorted.entries =
      s.workItems.sorted.entries.map fun e => (e.1, e.2.persisted) := by
    rw [RunState.persisted, persistDict, Dict.sorted_ofSorted]
    rfl
  have hitems : s.persisted.workItems.sorted.entries.mapM
      (GoalRouter.entryLines host floats s.persisted) =
      s.workItems.sorted.entries.mapM (GoalRouter.entryLines host floats s) := by
    rw [hentries, List.mapM_map]
    apply mapM_congr
    intro e he
    have hg := SortedMap.mem_entries.1 he
    rw [Dict.get?_sorted] at hg
    exact h.entryLines hd hg
  have hrepository : repositoryLines s.persisted.repository = repositoryLines s.repository :=
    repositoryLines_persisted ht.1.1.1.2
  have husage : usageLines floats s.persisted.results.values = usageLines floats s.results.values :=
    usageLines_persisted s.results
  rw [GoalRouter.renderReport, GoalRouter.renderReport, hitems, h.objectiveLines, hrepository,
    husage]

end RunState.Showable

end GoalRouter
