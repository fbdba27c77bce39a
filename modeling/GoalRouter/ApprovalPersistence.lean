import GoalRouter.IdentifierRedaction
import GoalRouter.StateRoundTrip

namespace GoalRouter
open Library
set_option autoImplicit true

open StateField

/-- A state whose snapshot can be loaded. -/
structure RunState.Savable (s : RunState) : Prop where
  version : s.schemaVersion = 1
  aware : s.Aware
  keys : s.PlainKeys

/-- A state as it is loaded from a snapshot that the store wrote: storing it again changes nothing
that an approval is bound to. -/
structure RunState.Stored (s : RunState) : Prop extends s.Savable where
  runId : persistText s.runId = s.runId
  digest : persistText s.configurationDigest = s.configurationDigest
  items : ∀ k item, s.workItems.get? k = some item → item.persisted = item
  routes : ∀ k route, s.routes.get? k = some route → route.persisted = route

theorem datetime_ok {value : Fields} {name : Text} {d : DateTime}
    (h : datetime value name = .ok d) : d.offset ≠ none := by
  obtain ⟨raw, _, h⟩ := bind_ok h
  split at h
  · cases h
  · split at h
    · cases h
    · rename_i hn
      cases h
      exact hn

theorem Objective.fromDict_ok {value : Fields} {o : Objective} (h : fromDict value = .ok o) :
    string value (text "id") = .ok o.id ∧ o.createdAt.offset ≠ none := by
  rw [fromDict] at h
  obtain ⟨id, hid, h⟩ := bind_ok h
  obtain ⟨_, _, h⟩ := bind_ok h
  obtain ⟨_, _, h⟩ := bind_ok h
  obtain ⟨_, _, h⟩ := bind_ok h
  obtain ⟨_, _, h⟩ := bind_ok h
  obtain ⟨createdAt, hd, h⟩ := bind_ok h
  cases h
  exact ⟨hid, datetime_ok hd⟩

theorem ApprovalRecord.fromDict_ok {value : Fields} {r : ApprovalRecord}
    (h : fromDict value = .ok r) : r.approvedAt.offset ≠ none := by
  rw [fromDict] at h
  obtain ⟨_, _, h⟩ := bind_ok h
  obtain ⟨_, _, h⟩ := bind_ok h
  obtain ⟨_, _, h⟩ := bind_ok h
  obtain ⟨approvedAt, hd, h⟩ := bind_ok h
  obtain ⟨_, _, h⟩ := bind_ok h
  obtain ⟨_, _, h⟩ := bind_ok h
  cases h
  exact datetime_ok hd

/-- A record that is read back stands under a plain key, and was written for a record. -/
theorem recordsOf_ok {α : Type} {fields : Fields} {itemFields : α → Fields} {m m' : Dict Text α}
    {dec : Fields → Except PyError α} (k : Text) (hn : PlainNames (fields.map Prod.fst))
    (h : lookup k fields = some (dictOf (fun v => .obj (itemFields v)) m))
    (hr : recordsOf dec (persistFields fields) k = .ok m') {key : Text} {v' : α}
    (hg : m'.get? key = some v') :
    PlainKey key ∧ ∃ v, dec (persistFields (itemFields v)) = .ok v' := by
  rw [recordsOf, read_fieldMapping k hn h, ok_bind] at hr
  obtain ⟨entries, hentries, hr⟩ := bind_ok hr
  cases hr
  obtain ⟨e, he, hrecord⟩ := mapM_ok_mem hentries _ (Dict.mem_of_get?_ofList hg)
  obtain ⟨key₀, hk, hj⟩ := Json.mem_reloadKeys he
  obtain ⟨d, hd, he⟩ := List.mem_map.1 hk
  obtain ⟨e', he', rfl⟩ := List.mem_map.1 hd
  obtain ⟨hkey, hvalue⟩ := Prod.mk.inj he
  cases hkey
  rw [recordOf, hj, ← hvalue, persistMember] at hrecord
  cases hs : isSecretKey e'.1 with
  | true =>
    rw [hs, if_pos rfl] at hrecord
    cases hrecord
  | false =>
    rw [hs, if_neg Bool.false_ne_true, persistJson_obj] at hrecord
    obtain ⟨item, hitem, hread⟩ := bind_ok hrecord
    obtain ⟨record, hdec, hlast⟩ := bind_ok hread
    obtain rfl : persistFields (itemFields e'.2) = item := Except.ok.inj hitem
    obtain ⟨rfl, rfl⟩ := Prod.mk.inj (Except.ok.inj hlast)
    exact ⟨⟨joinSurrogates_idem _, by rw [isSecretKey_join, hs]⟩, e'.2, hdec⟩

/-- The parts of a state that is read from a snapshot. -/
structure RunState.ReadFrom (s : RunState) (raw : Fields) : Prop where
  workItems : recordsOf WorkItem.fromDict raw (text "work_items") = .ok s.workItems
  routes : recordsOf RouteDecision.fromDict raw (text "routes") = .ok s.routes
  results : recordsOf WorkResult.fromDict raw (text "results") = .ok s.results
  approvals : recordsOf ApprovalRecord.fromDict raw (text "approvals") = .ok s.approvals
  schemaVersion : integer raw (text "schema_version") = .ok s.schemaVersion
  digest : string raw (text "configuration_digest") = .ok s.configurationDigest
  objective : (fieldMapping raw (text "objective") >>= Objective.fromDict) = .ok s.objective
  status : enum RunStatus raw (text "status") = .ok s.status

theorem RunState.fromDict_ok {raw : Fields} {s : RunState} (h : fromDict raw = .ok s) :
    s.ReadFrom raw := by
  have hdecoded := catchInvalid_ok h
  obtain ⟨workItems, hitems, hdecoded⟩ := bind_ok hdecoded
  obtain ⟨routes, hroutes, hdecoded⟩ := bind_ok hdecoded
  obtain ⟨results, hresults, hdecoded⟩ := bind_ok hdecoded
  obtain ⟨approvals, happrovals, hdecoded⟩ := bind_ok hdecoded
  obtain ⟨version, hversion, hdecoded⟩ := bind_ok hdecoded
  obtain ⟨digest, hdigest, hdecoded⟩ := bind_ok hdecoded
  obtain ⟨objective, hobjective, hdecoded⟩ := bind_ok hdecoded
  obtain ⟨repository, _, hdecoded⟩ := bind_ok hdecoded
  obtain ⟨status, hstatus, hdecoded⟩ := bind_ok hdecoded
  cases hdecoded
  exact ⟨hitems, hroutes, hresults, happrovals, hversion, hdigest, hobjective, hstatus⟩

theorem loadSync_versioned {host : Host} {runId : Text} {dir : RunDir} {s : RunState}
    (h : loadSync host runId dir = .ok s) : ∃ raw, dir = .snapshot (.obj raw) ∧
      ((lookup (text "schema_version") raw).map (Json.equalsInt 1)).getD false = true ∧
      RunState.fromDict raw = .ok s := by
  obtain ⟨raw, rfl, hf⟩ := loadSync_ok h
  refine ⟨raw, rfl, ?_, hf⟩
  rw [loadSync] at h
  cases hv : ((lookup (text "schema_version") raw).map (Json.equalsInt 1)).getD false with
  | true => rfl
  | false =>
    simp only [hv] at h
    cases h

theorem readFrom_of_load {host : Host} {rid : Text} {s₀ s : RunState}
    (h : loadSync host rid (.snapshot (snapshotOf s₀)) = .ok s) :
    s₀.schemaVersion = 1 ∧ s.ReadFrom (persistFields s₀.fields) := by
  obtain ⟨raw, hd, hv, hf⟩ := loadSync_versioned h
  rw [snapshotOf_eq] at hd
  cases hd
  rw [lookup_schemaVersion] at hv
  exact ⟨by simpa [Json.equalsInt] using hv, RunState.fromDict_ok hf⟩

theorem load_digest {host : Host} {rid : Text} {s₀ s : RunState}
    (h : loadSync host rid (.snapshot (snapshotOf s₀)) = .ok s) :
    s.configurationDigest = persistText s₀.configurationDigest := by
  have hdigest := (readFrom_of_load h).2.digest
  rw [read_string (text "configuration_digest") s₀.plainNames rfl] at hdigest
  exact (Except.ok.inj hdigest).symm

/-- What is loaded from a snapshot of any state is as the store keeps it. -/
theorem stored_of_load {host : Host} {rid : Text} {s₀ s : RunState}
    (h : loadSync host rid (.snapshot (snapshotOf s₀)) = .ok s) : s.Stored := by
  have hn := s₀.plainNames
  obtain ⟨hversion, hread⟩ := readFrom_of_load h
  have hv := hread.schemaVersion
  have hobjective := hread.objective
  rw [read_integer (text "schema_version") hn rfl, hversion] at hv
  rw [read_fieldMapping (text "objective") hn rfl, ok_bind] at hobjective
  obtain ⟨hid, hcreated⟩ := Objective.fromDict_ok hobjective
  rw [read_string (text "id") s₀.objective.plainNames rfl] at hid
  have plain {α : Type} {m : Dict Text α} {k : Text}
      (hm : ∀ v, m.get? k = some v → PlainKey k) (hk : k ∈ m.keys) : PlainKey k := by
    obtain ⟨v, hv⟩ := Dict.mem_keys.1 hk
    exact hm v hv
  have hitem (k : Text) (item : WorkItem) (hg : s.workItems.get? k = some item) :=
    recordsOf_ok (text "work_items") hn rfl hread.workItems hg
  have hroute (k : Text) (route : RouteDecision) (hg : s.routes.get? k = some route) :=
    recordsOf_ok (text "routes") hn rfl hread.routes hg
  have hresult (k : Text) (r : WorkResult) (hg : s.results.get? k = some r) :=
    recordsOf_ok (text "results") hn rfl hread.results hg
  have happroval (k : Text) (record : ApprovalRecord) (hg : s.approvals.get? k = some record) :=
    recordsOf_ok (text "approvals") hn rfl hread.approvals hg
  refine ⟨⟨(Except.ok.inj hv).symm, ⟨hcreated, fun r hr => ?_⟩,
    ⟨fun k hk => plain (fun v hg => (hitem k v hg).1) hk,
      fun k hk => plain (fun v hg => (hroute k v hg).1) hk,
      fun k hk => plain (fun v hg => (hresult k v hg).1) hk,
      fun k hk => plain (fun v hg => (happroval k v hg).1) hk⟩⟩, ?_, ?_, ?_, ?_⟩
  · obtain ⟨k, hg⟩ := Dict.mem_values.1 hr
    obtain ⟨_, _, hdec⟩ := happroval k r hg
    exact ApprovalRecord.fromDict_ok hdec
  · have hid' : s.objective.id = persistText s₀.objective.id := (Except.ok.inj hid).symm
    rw [RunState.runId, hid', persistText_idem]
  · rw [load_digest h, persistText_idem]
  · intro k item hg
    obtain ⟨_, item₀, hdec⟩ := hitem k item hg
    rw [WorkItem.fromDict_persisted] at hdec
    cases hdec
    exact WorkItem.persisted_idem _
  · intro k route hg
    obtain ⟨_, route₀, hdec⟩ := hroute k route hg
    rw [RouteDecision.fromDict_persisted] at hdec
    cases hdec
    exact RouteDecision.persisted_idem _

/-- `hexdigest` writes hexadecimal digits. -/
def Host.WritesHex (host : Host) : Prop :=
  ∀ t, ∀ c ∈ host.sha256 t, (48 ≤ c.val ∧ c.val ≤ 57) ∨ (97 ≤ c.val ∧ c.val ≤ 102)

theorem casefoldChar_hex {c : CodePoint}
    (h : (48 ≤ c.val ∧ c.val ≤ 57) ∨ (97 ≤ c.val ∧ c.val ≤ 102)) : casefoldChar c = [c] := by
  have h1 : ¬(65 ≤ c.val ∧ c.val ≤ 90) := by omega
  rw [casefoldChar, if_neg h1]
  split <;> first | rfl | omega

theorem persistText_of_hex {t : Text}
    (h : ∀ c ∈ t, (48 ≤ c.val ∧ c.val ≤ 57) ∨ (97 ≤ c.val ∧ c.val ≤ 102)) : persistText t = t := by
  have hcase : casefold t = t := by
    rw [casefold, List.flatMap_congr fun c hc => casefoldChar_hex (h c hc)]
    exact List.flatMap_singleton' _
  have hnot {p : Text} {c : CodePoint} (hc : c ∈ p)
      (hx : ¬((48 ≤ c.val ∧ c.val ≤ 57) ∨ (97 ≤ c.val ∧ c.val ≤ 102))) :
      p.isPrefixOf t = false := by
    rw [← Bool.not_eq_true, List.isPrefixOf_iff_prefix]
    exact fun hp => hx (h c (hp.subset hc))
  apply persistText_of_plain
  · rw [isSecretValue, hcase, hnot (c := 115) (by decide) (by decide),
      hnot (c := 114) (by decide) (by decide), Bool.false_and, Bool.false_or]
  · apply joined_of_ascii
    intro c hc
    have hx := h c hc
    exact decide_eq_true (by omega)

/-- Saving a run and loading it again. -/
def resave (host : Host) (dir : RunDir) (s : RunState) : Except PyError RunState := do
  let runId ← validateRunId host s.runId
  let dir ← saveSync s dir
  loadSync host runId dir

section Storing

variable {host : Host} {id : Text} {s s' : RunState}

namespace RunState.Savable

theorem load (h : s.Savable) (rid : Text) :
    loadSync host rid (.snapshot (snapshotOf s)) = .ok s.persisted :=
  loadSync_snapshotOf host rid h.version h.aware h.keys

theorem withApproval (h : s.Savable) {record : ApprovalRecord} (hk : id ∈ s.workItems.keys)
    (ha : record.approvedAt.offset ≠ none) :
    { s with approvals := s.approvals.set id record : RunState }.Savable where
  version := h.version
  aware := by
    refine ⟨h.aware.1, fun r hr => ?_⟩
    obtain ⟨k, hg⟩ := Dict.mem_values.1 hr
    by_cases hkid : k = id
    · rw [hkid, Dict.get?_set_self] at hg
      cases hg
      exact ha
    · rw [Dict.get?_set_of_ne _ _ hkid] at hg
      exact h.aware.2 r (Dict.mem_values.2 ⟨k, hg⟩)
  keys := by
    refine ⟨h.keys.workItems, h.keys.routes, h.keys.results, fun k hm => ?_⟩
    rcases Dict.mem_keys_set.1 hm with rfl | hm
    · exact h.keys.workItems _ hk
    · exact h.keys.approvals k hm

theorem resave (h : s.Savable) {dir : RunDir} (hd : dir ≠ .absent) (hid : isRunId s.runId = true) :
    resave host dir s = .ok s.persisted := by
  have hsave : saveSync s dir = .ok (.snapshot (snapshotOf s)) := by
    rw [saveSync.eq_def]
    split
    · exact absurd rfl hd
    · rfl
  rw [GoalRouter.resave, validateRunId, if_pos hid, ok_bind, hsave, ok_bind]
  exact h.load _

theorem eq_of_resave (h : s.Savable) {dir : RunDir} (hr : GoalRouter.resave host dir s = .ok s') :
    s' = s.persisted := by
  obtain ⟨runId, hid, hr'⟩ := bind_ok hr
  have hvalid : isRunId s.runId = true := by
    rw [validateRunId] at hid
    by_contra hn
    rw [if_neg hn] at hid
    cases hid
  have hd : dir ≠ .absent := by
    intro hd
    rw [hd] at hr'
    cases hr'
  rw [h.resave hd hvalid] at hr
  exact (Except.ok.inj hr).symm

end RunState.Savable

namespace RunState.Stored

theorem persisted (h : s.Stored) : s.persisted.Stored :=
  stored_of_load (h.load [] : loadSync sampleHost [] _ = _)

theorem persisted_runId (h : s.Stored) : s.persisted.runId = s.runId := h.runId

theorem persisted_digest (h : s.Stored) :
    s.persisted.configurationDigest = s.configurationDigest := h.digest

theorem persisted_item (h : s.Stored) (k : Text) :
    s.persisted.workItems.get? k = s.workItems.get? k := by
  simp only [RunState.persisted, get?_persistDict]
  cases hg : s.workItems.get? k with
  | none => rfl
  | some item => exact congrArg some (h.items k item hg)

theorem persisted_route (h : s.Stored) (k : Text) :
    s.persisted.routes.get? k = s.routes.get? k := by
  simp only [RunState.persisted, get?_persistDict]
  cases hg : s.routes.get? k with
  | none => rfl
  | some route => exact congrArg some (h.routes k route hg)

theorem persisted_fingerprint (h : s.Stored) (k : Text) :
    fingerprint host s.persisted k = fingerprint host s k := by
  simp only [fingerprint, requireItemAndRoute, h.persisted_item, h.persisted_route,
    h.persisted_digest]

theorem withApproval (h : s.Stored) {record : ApprovalRecord} (hk : id ∈ s.workItems.keys)
    (ha : record.approvedAt.offset ≠ none) :
    { s with approvals := s.approvals.set id record : RunState }.Stored :=
  ⟨h.toSavable.withApproval hk ha, h.runId, h.digest, h.items, h.routes⟩

end RunState.Stored

/-- The state holds a current approval for the routed item. -/
structure Approved (host : Host) (id : Text) (s : RunState) : Prop where
  stored : s.Stored
  routed : ∃ item route, s.workItems.get? id = some item ∧ s.routes.get? id = some route
  current : ∃ record, s.approvals.get? id = some record ∧ record.runId = s.runId ∧
    record.configurationDigest = s.configurationDigest ∧
    fingerprint host s id = .ok record.fingerprint

theorem Approved.dispatchable (h : Approved host id s) :
    requireDispatchable host s id = .ok () := by
  obtain ⟨item, route, hi, hr⟩ := h.routed
  obtain ⟨record, hg, hrun, hdigest, hprint⟩ := h.current
  rw [requireDispatchable, requireItemAndRoute_of hi hr, ok_bind]
  by_cases ha : route.approval = .automatic
  · simp only [ha, ↓reduceIte]
    rfl
  · simp only [ha, ↓reduceIte, hg, hrun, hdigest, hprint, ne_eq, not_true_eq_false]
    rfl

theorem approve_current {by' : Text} {at' : DateTime} (h : approve host s id by' at' = .ok s') :
    ∃ record : ApprovalRecord, at'.offset ≠ none ∧ record.approvedAt = at' ∧
      record.runId = s.runId ∧ record.configurationDigest = s.configurationDigest ∧
      fingerprint host s id = .ok record.fingerprint ∧
      s' = { s with approvals := s.approvals.set id record } := by
  rw [approve] at h
  by_cases ho : at'.offset = none
  · simp only [ho, ↓reduceIte, error_bind, reduceCtorEq] at h
  · simp only [ho, ↓reduceIte] at h
    by_cases hb : by'.all isSpace = true
    · simp only [hb, ↓reduceIte] at h
      cases h
    · simp only [hb] at h
      obtain ⟨_, _, h⟩ := bind_ok h
      obtain ⟨print, hprint, h⟩ := bind_ok h
      cases h
      exact ⟨_, ho, rfl, rfl, rfl, hprint, rfl⟩

theorem approve_approved {by' : Text} {at' : DateTime} (h : s.Stored)
    (ha : approve host s id by' at' = .ok s') : Approved host id s' := by
  obtain ⟨item, route, _, hi, hr, _⟩ := approve_ok ha
  obtain ⟨record, ho, hat, hrun, hdigest, hprint, rfl⟩ := approve_current ha
  rw [← hat] at ho
  exact ⟨h.withApproval (Dict.mem_keys_of_get? hi) ho, ⟨item, route, hi, hr⟩, record,
    Dict.get?_set_self _ _ _, hrun, hdigest, hprint⟩

theorem Approved.persisted (hh : host.WritesHex) (h : Approved host id s) :
    Approved host id s.persisted := by
  obtain ⟨item, route, hi, hr⟩ := h.routed
  obtain ⟨record, hg, hrun, hdigest, hprint⟩ := h.current
  have hfingerprint : persistText record.fingerprint = record.fingerprint := by
    rw [fingerprint, requireItemAndRoute_of hi hr, ok_bind] at hprint
    rw [← Except.ok.inj hprint]
    exact persistText_of_hex (hh _)
  refine ⟨h.stored.persisted, ⟨item, route, ?_, ?_⟩, record.persisted, ?_, ?_, ?_, ?_⟩
  · rw [h.stored.persisted_item, hi]
  · rw [h.stored.persisted_route, hr]
  · simp only [RunState.persisted, get?_persistDict, hg, Option.map_some]
  · show persistText record.runId = _
    rw [hrun, h.stored.runId, h.stored.persisted_runId]
  · show persistText record.configurationDigest = _
    rw [hdigest, h.stored.digest, h.stored.persisted_digest]
  · show _ = Except.ok (persistText record.fingerprint)
    rw [h.stored.persisted_fingerprint, hprint, hfingerprint]

/-- An approval of an item of a state that was loaded from a snapshot the store wrote is accepted
after any number of saves and loads, each of which gives back a state that was not refused. -/
theorem approval_survives_storing {rid by' : Text} {at' : DateTime} {s₀ s₁ : RunState}
    (hh : host.WritesHex) (hl : loadSync host rid (.snapshot (snapshotOf s₀)) = .ok s)
    (ha : approve host s id by' at' = .ok s₁)
    (hr : Relation.ReflTransGen (fun a b => ∃ dir, resave host dir a = .ok b) s₁ s') :
    requireDispatchable host s' id = .ok () ∧
      (isRunId s.runId = true → ∃ s'', resave host (.snapshot (snapshotOf s')) s' = .ok s'') := by
  have happroved : Approved host id s' ∧ s'.runId = s.runId := by
    induction hr with
    | refl =>
      obtain ⟨record, _, _, _, _, _, rfl⟩ := approve_current ha
      exact ⟨approve_approved (stored_of_load hl) ha, rfl⟩
    | tail _ hstep ih =>
      obtain ⟨dir, hstep⟩ := hstep
      rw [ih.1.stored.eq_of_resave hstep]
      exact ⟨ih.1.persisted hh, by rw [ih.1.stored.persisted_runId, ih.2]⟩
  refine ⟨happroved.1.dispatchable, fun hid => ⟨s'.persisted, ?_⟩⟩
  rw [← happroved.2] at hid
  exact happroved.1.stored.resave nofun hid

end Storing

theorem sampleHost_writesHex : sampleHost.WritesHex := by
  intro t c hc
  have hs : c ∈ sampleSha256 t := hc
  rw [sampleSha256] at hs
  split at hs
  · have hall : (text "36e76082e97a0e92cc5aacc01ef574392acd35507df3769b1354e2a318f256dc").all
        (fun d => (48 ≤ d.val ∧ d.val ≤ 57) ∨ (97 ≤ d.val ∧ d.val ≤ 102)) = true := by
      decide +kernel
    exact of_decide_eq_true (List.all_eq_true.1 hall c hs)
  · cases hs

/-- An approval in a run of one item, through a save and a load. -/
theorem single_approval_survives : ∃ s s₁ s',
    loadSync sampleHost (text "run")
      (.snapshot (snapshotOf (singleState (text "run") (text "a")))) =
        .ok s ∧
      approve sampleHost s (text "a") (text "operator") (sampleScript singlePlan []).time = .ok s₁ ∧
      resave sampleHost (.snapshot (snapshotOf s₁)) s₁ = .ok s' ∧
      requireDispatchable sampleHost s' (text "a") = .ok () := by
  have hb := @singleState_buildable (text "run") (text "a") (by decide) (by decide)
  have hl := @RunState.Buildable.load _ sampleHost hb (by decide +kernel)
  have hok : (approve sampleHost (singleState (text "run") (text "a")).persisted (text "a")
      (text "operator") (sampleScript singlePlan []).time).isOk = true := by
    decide +kernel
  cases ha : approve sampleHost (singleState (text "run") (text "a")).persisted (text "a")
      (text "operator") (sampleScript singlePlan []).time with
  | error e =>
    rw [ha] at hok
    cases hok
  | ok s₁ =>
    obtain ⟨_, hnext⟩ := approval_survives_storing sampleHost_writesHex hl ha .refl
    obtain ⟨s', hs'⟩ := hnext (by decide +kernel)
    exact ⟨_, s₁, s', hl, ha, hs',
      (approval_survives_storing sampleHost_writesHex hl ha (.single ⟨_, hs'⟩)).1⟩

/-- The item of the sample plan, with instructions shaped like a secret. -/
def secretItem : WorkItem := { singleItem with instructions := text "sk-abcdef" }

/-- A run edited by hand: no save writes those instructions. -/
def editedState : RunState :=
  { singleState (text "run") (text "a") with
    workItems := ⟨[(text "a", secretItem)], List.nodup_singleton _⟩ }

/-- The digests of the payload before and after redaction. -/
def editedSha256 (t : Text) : Text :=
  if t = renderJson (fingerprintPayload (text "digest") secretItem singleDecision) then
    text "52d2f1d889803609609b3e9fb5e5515353c2a46b7db02577187d9d44f55e67e5"
  else if t = renderJson
      (fingerprintPayload (text "digest") secretItem.persisted singleDecision) then
    text "e2dd8981cf8689c645c28a864f8a78ed780fc8d955d103969c784c8ae6f4a432"
  else []

def editedHost : Host := { sampleHost with sha256 := editedSha256 }

/-- The approval of an item that was written into the snapshot unredacted is lost at the first
save, which redacts it. -/
theorem edited_approval_lost :
    ¬∀ (content : Json) (rid id by' : Text) (at' : DateTime) (s s₁ s' : RunState) (dir : RunDir),
      loadSync editedHost rid (.snapshot content) = .ok s →
      approve editedHost s id by' at' = .ok s₁ → resave editedHost dir s₁ = .ok s' →
      requireDispatchable editedHost s' id = .ok () := by
  intro h
  have ha : editedState.Aware := ⟨fun h => (by cases h), fun _ hm => absurd hm List.not_mem_nil⟩
  have hl : loadSync editedHost (text "run") (.snapshot editedState.toDict) =
      .ok editedState.sorted := by
    rw [RunState.toDict, loadSync, editedState.fromDict_fields ha]
    rfl
  have hsavable : editedState.sorted.Savable := by
    have hkey : PlainKey (text "a") := ⟨by decide, by decide +kernel⟩
    have hkeys {α : Type} {m : Dict Text α} (hm : m.keys = [text "a"]) (k : Text)
        (hk : k ∈ m.keys) : PlainKey k := by
      rw [hm, List.mem_singleton] at hk
      rw [hk]
      exact hkey
    exact ⟨rfl, ⟨fun h => (by cases h), fun _ hm => absurd hm List.not_mem_nil⟩,
      hkeys rfl, hkeys rfl,
      fun _ hm => absurd hm List.not_mem_nil, fun _ hm => absurd hm List.not_mem_nil⟩
  have hlost : (approve editedHost editedState.sorted (text "a") (text "operator")
      (sampleScript singlePlan []).time).toOption.any (fun s₁ =>
        !(requireDispatchable editedHost s₁.persisted (text "a")).isOk) = true := by
    decide +kernel
  cases hs : approve editedHost editedState.sorted (text "a") (text "operator")
      (sampleScript singlePlan []).time with
  | error e =>
    rw [hs] at hlost
    cases hlost
  | ok s₁ =>
    obtain ⟨_, _, _, hi, _⟩ := approve_ok hs
    obtain ⟨record, ho, hat, _, _, _, hs₁⟩ := approve_current hs
    rw [← hat] at ho
    have hr : resave editedHost .empty s₁ = .ok s₁.persisted := by
      rw [hs₁]
      exact (hsavable.withApproval (Dict.mem_keys_of_get? hi) ho).resave fun h => by cases h
        (show isRunId (text "run") = true by decide)
    have hd := h _ _ _ _ _ _ _ _ _ hl hs hr
    rw [hs] at hlost
    change (!(requireDispatchable editedHost s₁.persisted (text "a")).isOk) = true at hlost
    rw [hd] at hlost
    cases hlost

end GoalRouter
