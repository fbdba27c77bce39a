import GoalRouter.IdentifierRedaction
import GoalRouter.ReportAgreement

namespace GoalRouter
open Library
set_option autoImplicit true

/-- UTF-8 encodes the text: no surrogate stands in it. -/
def Encodable (t : Text) : Prop := ∀ c ∈ t, isHighSurrogate c = false ∧ isLowSurrogate c = false

namespace Encodable

@[simp] theorem nil : Encodable [] := fun _ h => absurd h List.not_mem_nil

@[simp] theorem append_iff {t u : Text} : Encodable (t ++ u) ↔ Encodable t ∧ Encodable u :=
  List.forall_mem_append

theorem cons_iff {c : CodePoint} {t : Text} :
    Encodable (c :: t) ↔ (isHighSurrogate c = false ∧ isLowSurrogate c = false) ∧ Encodable t :=
  List.forall_mem_cons

theorem of_ascii {t : Text} (h : t.all isAscii = true) : Encodable t :=
  fun c hc => isAscii_not_surrogate (List.all_eq_true.1 h c hc)

/-- A text written in the source holds no surrogate. -/
@[simp] theorem literal (s : String) : Encodable (text s) := by
  intro c hc
  obtain ⟨d, _, rfl⟩ := List.mem_map.1 hc
  have hd := d.valid
  have hn : d.toNat < 0xD800 ∨ 0xDFFF < d.toNat ∧ d.toNat < 0x110000 := hd
  have hlt : d.toNat < 0x110000 := by omega
  simp only [isHighSurrogate, isLowSurrogate, Fin.ofNat, Nat.mod_eq_of_lt hlt,
    Bool.and_eq_false_iff, decide_eq_false_iff_not]
  omega

@[simp] theorem decimal (n : Int) : Encodable (decimal n) := literal _

@[simp] theorem isoformat (d : DateTime) : Encodable d.isoformat := of_ascii d.isAscii_isoformat

@[simp] theorem runStatus (a : RunStatus) : Encodable (StrEnum.value a) := by
  cases a <;> exact literal _

@[simp] theorem workStatus (a : WorkStatus) : Encodable (StrEnum.value a) := by
  cases a <;> exact literal _

@[simp] theorem sandbox (a : SandboxMode) : Encodable (StrEnum.value a) := by
  cases a <;> exact literal _

@[simp] theorem approval (a : ApprovalMode) : Encodable (StrEnum.value a) := by
  cases a <;> exact literal _

theorem joinTexts_iff {separator : Text} (hs : Encodable separator) {ts : List Text} :
    Encodable (joinTexts separator ts) ↔ ∀ t ∈ ts, Encodable t := by
  rw [joinTexts]
  induction ts with
  | nil => simp [List.intercalate]
  | cons t ts ih =>
    cases ts with
    | nil => simp [List.intercalate]
    | cons u ts =>
      rw [List.intercalate_cons_cons, append_iff, append_iff, ih, List.forall_mem_cons]
      simp [hs]

@[simp] theorem orNone_iff {t : Text} : Encodable (orNone t) ↔ Encodable t := by
  rw [orNone, orElseText]
  split
  · rename_i h
    simp [h]
  · exact Iff.rfl

@[simp] theorem commaList_iff {ts : List Text} :
    Encodable (commaList ts) ↔ ∀ t ∈ ts, Encodable t := by
  rw [commaList, orNone_iff, joinTexts_iff (literal _)]

theorem isAscii_hexDigits (width n : Nat) : (hexDigits width n).all isAscii = true := by
  induction width generalizing n with
  | zero => rfl
  | succ width ih =>
    have hd : isAscii (hexDigit (n % 16)) = true := by
      have hlt := Nat.mod_lt n (Nat.zero_lt_succ 15)
      have hv : (if n % 16 < 10 then 48 + n % 16 else 87 + n % 16) < 128 := by
        split <;> omega
      rw [isAscii, hexDigit, Fin.ofNat]
      simp only [Nat.mod_eq_of_lt (hv.trans (by omega : 128 < 0x110000))]
      exact decide_eq_true hv
    rw [GoalRouter.hexDigits, List.all_append, ih]
    simp [hd]

theorem hexDigits (width n : Nat) : Encodable (hexDigits width n) :=
  of_ascii (isAscii_hexDigits width n)

theorem displayCharacter (c : CodePoint) : Encodable (displayCharacter c) := by
  rw [GoalRouter.displayCharacter]
  repeat' split
  all_goals try simp [hexDigits]
  rename_i hs
  rw [cons_iff]
  refine ⟨?_, nil⟩
  simp only [isHighSurrogate, isLowSurrogate, Bool.and_eq_false_iff, decide_eq_false_iff_not]
  omega

@[simp] theorem displayText (value : Text) : Encodable (displayText value) := by
  intro c hc
  obtain ⟨d, _, hd⟩ := List.mem_flatMap.1 hc
  exact displayCharacter d c hd

@[simp] theorem displayPath (path : PurePath) : Encodable (displayPath path) := displayText _

@[simp] theorem displayPaths (paths : List PurePath) : Encodable (displayPaths paths) := by
  rw [GoalRouter.displayPaths, commaList_iff, List.forall_mem_map]
  exact fun p _ => displayPath p

theorem space {c : CodePoint} (h : isSpace c = true) :
    isHighSurrogate c = false ∧ isLowSurrogate c = false := by
  simp only [isSpace, Bool.or_eq_true, Bool.and_eq_true, decide_eq_true_eq, beq_iff_eq] at h
  simp only [isHighSurrogate, isLowSurrogate, Bool.and_eq_false_iff, decide_eq_false_iff_not]
  omega

/-- Only whitespace is stripped, and no surrogate is whitespace. -/
@[simp] theorem rstrip_iff {t : Text} : Encodable (rstrip t) ↔ Encodable t := by
  rw [rstrip]
  induction t using List.reverseRecOn with
  | nil => simp
  | append_singleton t c ih =>
    by_cases hc : isSpace c = true
    · rw [List.rdropWhile_concat_pos _ _ _ hc, ih, append_iff]
      exact ⟨fun h => ⟨h, cons_iff.2 ⟨space hc, nil⟩⟩, fun h => h.1⟩
    · rw [List.rdropWhile_concat_neg _ _ _ hc]

@[simp] theorem branchText (branch : Option Text) : Encodable (branchText branch) := by
  rw [GoalRouter.branchText.eq_def]
  split <;> simp

@[simp] theorem dirtySummary (r : RepositoryContext) : Encodable (dirtySummary r) := by
  rw [GoalRouter.dirtySummary]
  split
  · exact literal _
  · rw [joinTexts_iff (literal _), List.forall_mem_map]
    exact fun p _ => displayPath p

@[simp] theorem displayPairs_iff {values : List (Text × Int)} :
    Encodable (displayPairs values) ↔ ∀ t ∈ values.map Prod.fst, Encodable t := by
  rw [displayPairs, commaList_iff, List.forall_mem_map, List.forall_mem_map]
  simp

end Encodable

section Unescaped

/-- The texts of a record that the report shows as they are. -/
def WorkItem.unescaped (i : WorkItem) : List Text :=
  [i.id, i.title, i.phase] ++ i.dependencies ++ i.verification

def WorkResult.unescaped (r : WorkResult) : List Text :=
  r.threadId.toList ++ r.turnId.toList ++ r.verification ++ r.error.toList ++ r.finalResponse.toList

/-- The texts that the section about the item under a key shows as they are. -/
def RunState.unescapedEntry (s : RunState) (e : Text × WorkItem) : List Text :=
  e.2.unescaped ++ ((s.routes.get? e.1).map RouteDecision.shown).getD [] ++
    ((s.results.get? e.1).map WorkResult.unescaped).getD []

/-- All texts that the report shows as they are; paths and the branch go through
`_display_text`. -/
def RunState.unescaped (s : RunState) : List Text :=
  [s.runId, s.objective.prompt, s.configurationDigest] ++
    s.repository.languageCounts.map Prod.fst ++
    s.repository.instructionFiles.map InstructionFile.content ++
    s.workItems.sorted.entries.flatMap s.unescapedEntry

/-- `json.dumps` escapes what is not ASCII, and so does `format(x, "g")`, which writes none. -/
structure AsciiText (host : Host) (floats : FloatFormat) : Prop where
  dumps : ∀ j, (host.canonicalDumps j).all isAscii = true
  general : ∀ x, (floats.general x).all isAscii = true

end Unescaped

section Lines

variable {host : Host} {floats : FloatFormat} {limits : InterpreterLimits} {s : RunState}

theorem objectiveLines_encodable_iff : (∀ t ∈ objectiveLines s, Encodable t) ↔
    ∀ t ∈ [s.runId, s.objective.prompt, s.configurationDigest], Encodable t := by
  simp [objectiveLines]

theorem repositoryLines_encodable_iff {r : RepositoryContext} :
    (∀ t ∈ repositoryLines r, Encodable t) ↔
      ∀ t ∈ r.languageCounts.map Prod.fst ++ r.instructionFiles.map InstructionFile.content,
        Encodable t := by
  rw [repositoryLines, List.forall_mem_append, List.forall_mem_append]
  have hfiles : (∀ t ∈ (if r.instructionFiles = [] then [text "(none)", []]
      else r.instructionFiles.flatMap instructionLines), Encodable t) ↔
        ∀ t ∈ r.instructionFiles.map InstructionFile.content, Encodable t := by
    split
    · rename_i h
      simp [h]
    · simp only [List.forall_mem_flatMap, List.forall_mem_map, instructionLines]
      simp
  rw [hfiles]
  simp

theorem itemLines_encodable_iff {item : WorkItem} {route : RouteDecision}
    {result : Option WorkResult} : (∀ t ∈ itemLines item route result, Encodable t) ↔
      ∀ t ∈ item.unescaped ++ route.shown ++ (result.bind WorkResult.threadId).toList ++
        (result.bind WorkResult.turnId).toList, Encodable t := by
  have hstatus : Encodable
      ((result.map fun r => StrEnum.value r.status).getD (text "pending")) := by
    cases result <;> simp
  have hoption (t : Option Text) : Encodable (t.getD []) ↔ ∀ u ∈ t.toList, Encodable u := by
    cases t <;> simp
  simp only [itemLines, List.forall_mem_cons, List.forall_mem_append, WorkItem.unescaped,
    RouteDecision.shown, Encodable.append_iff, Encodable.literal, Encodable.orNone_iff,
    Encodable.commaList_iff, hoption]
  simp [hstatus]
  tauto

theorem resultLines_encodable_iff (ha : AsciiText host floats) {result : Option WorkResult} :
    (∀ t ∈ resultLines host floats result, Encodable t) ↔
      ∀ r ∈ result, ∀ t ∈ r.verification ++ r.error.toList ++ r.finalResponse.toList,
        Encodable t := by
  cases result with
  | none => simp [resultLines]
  | some r =>
    have hoption (t : Option Text) : Encodable (t.getD []) ↔ ∀ u ∈ t.toList, Encodable u := by
      cases t <;> simp
    have hgeneral (x : PyFloat) : Encodable (floats.general x) := .of_ascii (ha.general x)
    have hdumps (j : Json) : Encodable (host.canonicalDumps j) := .of_ascii (ha.dumps j)
    simp only [resultLines, List.forall_mem_cons, List.forall_mem_append, safeJson, hoption,
      Encodable.append_iff, Encodable.literal, Encodable.orNone_iff, Encodable.commaList_iff]
    simp [hgeneral, hdumps, and_assoc]

theorem usageLines_encodable (ha : AsciiText host floats) (results : List WorkResult) :
    ∀ t ∈ usageLines floats results, Encodable t := by
  have hgeneral (x : PyFloat) : Encodable (floats.general x) := .of_ascii (ha.general x)
  simp [usageLines, hgeneral]

theorem entryLines_encodable_iff (ha : AsciiText host floats) {e : Text × WorkItem}
    (hr : e.1 ∈ s.routes.keys) : ∃ lines, entryLines host floats s e = .ok lines ∧
      ((∀ t ∈ lines, Encodable t) ↔ ∀ t ∈ s.unescapedEntry e, Encodable t) := by
  obtain ⟨route, hroute⟩ := Dict.mem_keys.1 hr
  refine ⟨itemLines e.2 route (s.results.get? e.1) ++ resultLines host floats (s.results.get? e.1),
    ?_, ?_⟩
  · rw [entryLines, hroute]
  · rw [List.forall_mem_append, itemLines_encodable_iff, resultLines_encodable_iff ha,
      RunState.unescapedEntry, hroute]
    cases s.results.get? e.1 with
    | none => simp
    | some r =>
      simp only [Option.map_some, Option.getD_some, WorkResult.unescaped, Option.bind_some,
        Option.mem_some_iff, forall_eq', List.forall_mem_append]
      tauto

theorem mapM_entryLines (ha : AsciiText host floats) {entries : List (Text × WorkItem)}
    (hr : ∀ e ∈ entries, e.1 ∈ s.routes.keys) :
    ∃ items, entries.mapM (entryLines host floats s) = .ok items ∧
      ((∀ t ∈ items.flatten, Encodable t) ↔
        ∀ t ∈ entries.flatMap s.unescapedEntry, Encodable t) := by
  induction entries with
  | nil => exact ⟨[], rfl, Iff.rfl⟩
  | cons e entries ih =>
    obtain ⟨lines, hl, hiff⟩ := entryLines_encodable_iff ha (hr e List.mem_cons_self)
    obtain ⟨items, hi, hrest⟩ := ih fun d hd => hr d (List.mem_cons_of_mem _ hd)
    refine ⟨lines :: items, by rw [List.mapM_cons, hl, ok_bind, hi]; rfl, ?_⟩
    rw [List.flatten_cons, List.flatMap_cons, List.forall_mem_append, List.forall_mem_append, hiff,
      hrest]

theorem renderReport_encodable_iff (ha : AsciiText host floats)
    (hr : ∀ k ∈ s.workItems.keys, k ∈ s.routes.keys) :
    ∃ content, renderReport host floats s = .ok content ∧
      (Encodable content ↔ ∀ t ∈ s.unescaped, Encodable t) := by
  have hkeys : ∀ e ∈ s.workItems.sorted.entries, e.1 ∈ s.routes.keys := by
    intro e he
    have hg := SortedMap.mem_entries.1 he
    rw [Dict.get?_sorted] at hg
    exact hr e.1 (Dict.mem_keys_of_get? hg)
  obtain ⟨items, hitems, hiff⟩ := mapM_entryLines ha hkeys
  refine ⟨_, by rw [renderReport, hitems, ok_bind]; rfl, ?_⟩
  have hnewline : Encodable [0x0A] := Encodable.of_ascii (by decide)
  rw [Encodable.joinTexts_iff hnewline, RunState.unescaped]
  simp only [List.forall_mem_append, hiff, objectiveLines_encodable_iff,
    repositoryLines_encodable_iff]
  have husage := usageLines_encodable ha s.results.values
  have hheading : ∀ t ∈ [text "## Work items", []], Encodable t := by simp
  tauto

/-- The integers that are printed about a result are short, and so are those of its SDK items, which
are not nested too deep. -/
structure WorkResult.Printed (limits : InterpreterLimits) (r : WorkResult) : Prop where
  tokens : ∀ n ∈ [r.inputTokens, r.cachedInputTokens, r.outputTokens], n.natAbs < 10 ^ limits.digits
  calls : (redaction limits.keyCalls).depth (.arr r.sdkItems) ≤ limits.calls
  items : (redactJson (.arr r.sdkItems)).Printable limits.digits
  nesting : (redactJson (.arr r.sdkItems)).nesting ≤ limits.nesting

/-- Rendering the state meets no limit of the interpreter. -/
structure RunState.Printed (limits : InterpreterLimits) (s : RunState) : Prop where
  languages : ∀ n ∈ s.repository.languageCounts.map Prod.snd, n.natAbs < 10 ^ limits.digits
  results : ∀ e ∈ s.workItems.sorted.entries, ∀ r, s.results.get? e.1 = some r → r.Printed limits
  totals : ∀ n ∈ totals s.results.values, n.natAbs < 10 ^ limits.digits

theorem printIntegers_iff {ns : List Int} :
    printIntegers limits ns = .ok () ↔ ∀ n ∈ ns, n.natAbs < 10 ^ limits.digits := by
  rw [printIntegers]
  split
  · exact iff_of_true rfl ‹_›
  · exact iff_of_false nofun ‹_›

theorem bind_unit_iff {α : Type} {x : Except PyError Unit} {y : Except PyError α} {a : α} :
    (x >>= fun _ => y) = .ok a ↔ x = .ok () ∧ y = .ok a := by
  cases x with
  | error e => exact iff_of_false nofun fun h => by cases h.1
  | ok u => exact ⟨fun h => ⟨rfl, h⟩, And.right⟩

theorem forM_ok_iff {α : Type} {f : α → Except PyError Unit} {xs : List α} :
    xs.forM f = .ok () ↔ ∀ x ∈ xs, f x = .ok () := by
  induction xs with
  | nil => exact iff_of_true rfl fun x hx => absurd hx List.not_mem_nil
  | cons x xs ih =>
    have hcons : (x :: xs).forM f = (f x >>= fun _ => xs.forM f) := rfl
    rw [hcons, bind_unit_iff, ih, List.forall_mem_cons]

theorem printResult_iff {r : WorkResult} :
    printResult limits (some r) = .ok () ↔ r.Printed limits := by
  rw [printResult, bind_unit_iff, printIntegers_iff, printItems, redactJsonWithin_eq]
  by_cases hd : (redaction limits.keyCalls).depth (.arr r.sdkItems) ≤ limits.calls
  · rw [if_pos hd, ok_bind]
    cases he : dumpsError limits (redactJson (.arr r.sdkItems)) with
    | some e =>
      apply iff_of_false (fun h => by cases h.2)
      intro h
      rw [dumpsError_eq_none.2 ⟨h.items, h.nesting⟩] at he
      cases he
    | none =>
      obtain ⟨hi, hn⟩ := dumpsError_eq_none.1 he
      exact ⟨fun h => ⟨h.1, hd, hi, hn⟩, fun h => ⟨h.tokens, rfl⟩⟩
  · rw [if_neg hd]
    exact iff_of_false (fun h => by cases h.2) fun h => hd h.calls

/-- A report that is rendered within the limits is the report. -/
theorem renderWithin_iff (hr : ∀ e ∈ s.workItems.sorted.entries, e.1 ∈ s.routes.keys)
    {content : Text} : renderWithin host floats limits s = .ok content ↔
      s.Printed limits ∧ renderReport host floats s = .ok content := by
  rw [renderWithin, bind_unit_iff, bind_unit_iff, bind_unit_iff, printIntegers_iff,
    printIntegers_iff, forM_ok_iff]
  have hentry (e : Text × WorkItem) (he : e ∈ s.workItems.sorted.entries) :
      (entryLines host floats s e >>= fun _ => printResult limits (s.results.get? e.1)) = .ok () ↔
        ∀ r, s.results.get? e.1 = some r → r.Printed limits := by
    obtain ⟨route, hroute⟩ := Dict.mem_keys.1 (hr e he)
    rw [entryLines, hroute, ok_bind]
    cases s.results.get? e.1 with
    | none =>
      refine iff_of_true rfl fun r hr => ?_
      cases hr
    | some r => exact printResult_iff.trans ⟨fun h _ hr => by cases hr; exact h, fun h => h r rfl⟩
  constructor
  · rintro ⟨hl, hitems, ht, hc⟩
    exact ⟨⟨hl, fun e he => (hentry e he).1 (hitems e he), ht⟩, hc⟩
  · rintro ⟨h, hc⟩
    exact ⟨h.languages, fun e he => (hentry e he).2 (h.results e he), h.totals, hc⟩

/-- The report of a state whose routes cover its work items is rendered and can be encoded exactly
where it meets no limit of the interpreter and no text that it shows unescaped holds a surrogate. -/
theorem report_encodable_iff (ha : AsciiText host floats)
    (hr : ∀ k ∈ s.workItems.keys, k ∈ s.routes.keys) :
    (∃ content, renderWithin host floats limits s = .ok content ∧ Encodable content) ↔
      s.Printed limits ∧ ∀ t ∈ s.unescaped, Encodable t := by
  have hkeys : ∀ e ∈ s.workItems.sorted.entries, e.1 ∈ s.routes.keys := by
    intro e he
    have hg := SortedMap.mem_entries.1 he
    rw [Dict.get?_sorted] at hg
    exact hr e.1 (Dict.mem_keys_of_get? hg)
  obtain ⟨content, hc, hiff⟩ := renderReport_encodable_iff ha hr
  constructor
  · rintro ⟨content', hw, he⟩
    obtain ⟨hp, hc'⟩ := (renderWithin_iff hkeys).1 hw
    cases hc.symm.trans hc'
    exact ⟨hp, hiff.1 he⟩
  · rintro ⟨hp, he⟩
    exact ⟨content, (renderWithin_iff hkeys).2 ⟨hp, hc⟩, hiff.2 he⟩

end Lines

/-- `json.dumps` on a value whose strings hold no code point past U+FFFF. -/
def asciiDumps (j : Json) : Text :=
  (renderJson j).flatMap fun c => if isAscii c then [c] else text "\\u" ++ hexDigits 4 c.val

def asciiHost : Host := { sampleHost with canonicalDumps := asciiDumps }

theorem asciiHost_asciiText : AsciiText asciiHost sampleFloats where
  dumps j := by
    show (asciiDumps j).all isAscii = true
    rw [asciiDumps, List.all_flatMap, List.all_eq_true]
    intro c _
    split
    · rename_i h
      simp [h]
    · rw [List.all_append, Encodable.isAscii_hexDigits]
      decide
  general x := by
    show List.all (if PyFloat.isNaN x then text "nan" else
      if x = PyFloat.one then text "1" else text "0") isAscii = true
    split
    · decide
    · split <;> decide

/-- The planned run with a result of the item. -/
def reportedState : RunState :=
  (singleState (text "run") (text "a")).withResult
    { readerResult { singleItem with id := text "a" } (.error PyError.cancelled) with
      sdkItems := [.obj [(text "token", .int 7)]], inputTokens := 12 }

theorem reportedState_encodable : ∃ content,
    renderWithin asciiHost sampleFloats usualLimits reportedState = .ok content ∧
      Encodable content := by
  have hr : ∀ k ∈ reportedState.workItems.keys, k ∈ reportedState.routes.keys := by
    decide
  have ha : reportedState.unescaped.all (List.all · isAscii) = true := by
    decide +kernel
  have hp : reportedState.Printed usualLimits := by
    refine ⟨by decide +kernel, fun e he r hg => ?_, by decide +kernel⟩
    cases List.mem_singleton.1 he
    cases hg
    exact ⟨by decide +kernel, by decide +kernel, by decide +kernel, by decide +kernel⟩
  exact (report_encodable_iff asciiHost_asciiText hr).2
    ⟨hp, fun t ht => .of_ascii (List.all_eq_true.1 ha t ht)⟩

/-- A run whose prompt is a lone surrogate. -/
def surrogateState : RunState :=
  { singleState (text "run") (text "a") with
    objective := { (singleState (text "run") (text "a")).objective with prompt := [0xD800] } }

/-- The store restores the prompt, and the report shows it as it is. -/
theorem surrogate_prompt_unencodable :
    loadSync asciiHost (text "run") (.snapshot (snapshotOf surrogateState)) =
        .ok surrogateState.persisted ∧
      (∀ k ∈ surrogateState.persisted.workItems.keys, k ∈ surrogateState.persisted.routes.keys) ∧
      ¬∃ content, renderWithin asciiHost sampleFloats usualLimits surrogateState.persisted =
        .ok content ∧ Encodable content := by
  have hb := @singleState_buildable (text "run") (text "a") (by decide) (by decide)
  have hk := hb.plainKeys (by decide +kernel)
  refine ⟨loadSync_snapshotOf asciiHost (text "run") hb.version hb.aware
    ⟨hk.workItems, hk.routes, hk.results, hk.approvals⟩, by decide +kernel, ?_⟩
  rintro ⟨content, hc, he⟩
  have hm : (renderWithin asciiHost sampleFloats usualLimits surrogateState.persisted).toOption.any
      (fun content => decide (0xD800 ∈ content)) = true := by
    decide +kernel
  rw [hc] at hm
  have hh := (he 0xD800 (of_decide_eq_true hm)).1
  cases hh

end GoalRouter
