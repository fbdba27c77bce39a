import GoalRouter.ApprovalPersistence
import GoalRouter.RouteFloors
import GoalRouter.SandboxAlignment

namespace GoalRouter
open Library
set_option autoImplicit true

variable {host : Host} {app : Application host} {s s' : RunState}

/-- What `resume` does with an acknowledged change before it continues the run. -/
def Application.adoption (app : Application host) (runId : Text) : Program RunState := do
  let s ← loadRun host runId (some app.config.digest) true
  let s ← app.acknowledgeChange s
  app.validateModelInventory
  return s

theorem Application.resumeUnlocked_eq (app : Application host) (runId : Text) :
    app.resumeUnlocked runId true = app.adoption runId >>= app.continueRun := by
  simp only [resumeUnlocked, adoption, bind_assoc, pure_bind]

/-- The task of every unfinished item is known to the configuration. -/
def RunState.Routable (s : RunState) (config : RouterConfig) : Prop :=
  ∀ k item, s.workItems.get? k = some item → s.isUnfinished k = true →
    item.task ∈ config.tasks.keys

theorem AcceptedConfig.sound (accepted : AcceptedConfig host) : accepted.config.Sound := by
  obtain ⟨loaded, digest, h⟩ := accepted.accepted
  obtain ⟨raw, _, h⟩ := bind_ok h
  obtain ⟨_, _, h⟩ := bind_ok h
  obtain ⟨_, hs, h⟩ := bind_ok h
  exact semantics_sound hs h

namespace RunState

theorem reroute_total {config : RouterConfig} {entries : List (Text × WorkItem)}
    (h : ∀ k item, (k, item) ∈ entries → s.isUnfinished k = true →
      ∃ decision, route host config item none = .ok decision) :
    ∃ s', reroute host config s entries = .ok s' := by
  induction entries generalizing s with
  | nil => exact ⟨s, rfl⟩
  | cons e entries ih =>
    obtain ⟨id, item⟩ := e
    have hrest (k : Text) (item : WorkItem) (hm : (k, item) ∈ entries) :=
      h k item (List.mem_cons_of_mem _ hm)
    rw [reroute]
    split
    · rename_i hu
      obtain ⟨decision, hd⟩ := h id item List.mem_cons_self hu
      rw [hd, ok_bind]
      exact ih hrest
    · exact ih hrest

theorem adopts_iff : (∃ s', s.adoptCurrentConfiguration host app.config = .ok s') ↔
    s.Routable app.config := by
  constructor
  · rintro ⟨s', ha⟩ k item hi hu
    obtain ⟨decision, hd, _⟩ := adopted_route ha hi hu
    obtain ⟨policy, hp, _⟩ := route_sandbox hd
    exact Dict.mem_keys_of_get? hp
  · intro h
    have hroutes (k : Text) (item : WorkItem) (hm : (k, item) ∈ s.workItems.entries)
        (hu : s.isUnfinished k = true) :
        ∃ decision, route host app.config item none = .ok decision := by
      obtain ⟨policy, hp⟩ := Dict.mem_keys.1 (h k item (Dict.mem_entries.1 hm) hu)
      have hp : app.config.tasks.get? ((none : Option Text).getD item.task) = some policy := hp
      obtain ⟨decision, _, hd, _⟩ := app.accepted.sound.decides host hp
      exact ⟨decision, hd⟩
    obtain ⟨s₁, hs⟩ := reroute_total hroutes
    rw [adoptCurrentConfiguration, hs]
    exact ⟨_, rfl⟩

end RunState

/-- Why the call whose events these are was refused: the task of an unfinished item is unknown, or
the inventory cannot be fetched or lacks a model. -/
inductive Application.Refuses (app : Application host) (s : RunState) :
    List Event → PyError → Prop where
  | unknownTask (h : s.adoptCurrentConfiguration host app.config = .error e) :
      Refuses app s events e
  | unavailable : Refuses app s (.answered .availableModels (.error e) :: earlier) e
  | lacking {available : List Text} (h : validateModels app.config available = .error e) :
      Refuses app s (.answered .availableModels (.ok available) :: earlier) e

/-- The run is bound to the configuration already, or cannot be routed under it. -/
def Application.LeavesAlone (app : Application host) (s : RunState) : Prop :=
  s.configurationDigest = app.config.digest ∨ ¬s.Routable app.config

/-- What an adoption that was given up tells about the directory. -/
structure GivenUp (app : Application host) (s : RunState) (w w' : World) : Prop where
  kept : app.LeavesAlone s → w'.dir = w.dir
  changed : ∀ r earlier, w'.log = .answered .availableModels r :: (earlier ++ w.log) →
    w'.dir = w.dir → app.LeavesAlone s

/-- An event that tells how the inventory was fetched. -/
def Event.isInventory : Event → Bool
  | .answered .availableModels _ => true
  | _ => false

namespace GivenUp

variable {w w' : World}

theorem start (app : Application host) (s : RunState) (w : World) : GivenUp app s w w where
  kept _ := rfl
  changed r earlier hl := by
    have hlen := congrArg List.length hl
    rw [List.length_cons, List.length_append] at hlen
    omega

theorem early (hk : app.LeavesAlone s → w'.dir = w.dir) (hl : w'.log = e :: log)
    (he : e.isInventory = false) : GivenUp app s w w' where
  kept := hk
  changed r earlier hl' := by
    rw [hl] at hl'
    rw [(List.cons.inj hl').1] at he
    cases he

end GivenUp

section Adoption

variable {w w₀ : World}

/-- From `w`, the program gives up only as an adoption that began in `w₀` may. -/
abbrev Settles (app : Application host) (s : RunState) (w₀ : World) (Q : α → World → Prop)
    (p : Program α) (w : World) : Prop :=
  p.Safe (Next host) (fun _ => True) Q (fun _ w' => GivenUp app s w₀ w') w

theorem saveRun_settles (hs : ¬app.LeavesAlone s) (hw : GivenUp app s w₀ w) :
    Settles app s w₀ (fun _ w' => w'.dir = .snapshot (snapshotOf s')) (saveRun host s') w := by
  apply Prog.Safe.bind (Q := fun _ w' => w' = w)
  · exact Prog.Safe.ofExcept (fun _ _ => rfl) fun _ _ => hw
  · rintro _ _ rfl
    apply Prog.Safe.invoke
    intro r w' hn
    cases hn with
    | raises => exact ⟨trivial, .early (fun h => absurd h hs) rfl rfl⟩
    | saved _ _ _ =>
      cases r with
      | ok => exact ⟨trivial, rfl⟩
      | error => exact ⟨trivial, .early (fun h => absurd h hs) rfl rfl⟩

theorem recordEvent_settles (hs : ¬app.LeavesAlone s) (event : Text) :
    Settles app s w₀ (fun _ w' => w'.dir = w.dir) (recordEvent host s' event none []) w := by
  apply Prog.Safe.bind (Q := fun _ w' => w'.dir = w.dir ∧ GivenUp app s w₀ w')
  · apply Prog.Safe.invoke
    intro r w' hn
    cases hn with
    | raises hc => cases hc
    | now => exact ⟨trivial, rfl, .early (fun h => absurd h hs) rfl rfl⟩
  · rintro time w₁ ⟨hd, hw⟩
    apply Prog.Safe.bind (Q := fun _ w' => w' = w₁)
    · exact Prog.Safe.ofExcept (fun _ _ => rfl) fun _ _ => hw
    · rintro _ _ rfl
      apply Prog.Safe.invoke
      intro r w' hn
      cases hn with
      | raises => exact ⟨trivial, .early (fun h => absurd h hs) rfl rfl⟩
      | appendEvent => exact ⟨trivial, hd⟩

/-- After the change was acknowledged the directory is as it was, or holds the adopted state. -/
def Acknowledged (app : Application host) (s : RunState) (w₀ w : World) : Prop :=
  app.LeavesAlone s ∧ w.dir = w₀.dir ∨ ¬app.LeavesAlone s ∧ ∃ s' : RunState,
    s'.configurationDigest = app.config.digest ∧ w.dir = .snapshot (snapshotOf s')

theorem acknowledgeChange_settles (hd : w.dir = w₀.dir) (hl : w.log = e :: log)
    (he : e.isInventory = false) :
    Settles app s w₀ (fun _ w' => Acknowledged app s w₀ w') (app.acknowledgeChange s) w := by
  rw [Application.acknowledgeChange]
  split
  · rename_i hne
    apply Prog.Safe.bind (Q := fun s' w' =>
      s.adoptCurrentConfiguration host app.config = .ok s' ∧ w' = w)
    · exact Prog.Safe.ofExcept (fun _ ha => ⟨ha, rfl⟩) fun _ _ => .early (fun _ => hd) hl he
    · rintro s' _ ⟨ha, rfl⟩
      have hs : ¬app.LeavesAlone s := by
        rintro (h | h)
        · exact hne h
        · exact h (RunState.adopts_iff.1 ⟨s', ha⟩)
      have hdigest : s'.configurationDigest = app.config.digest := by
        obtain ⟨_, rfl, _⟩ := RunState.adoptCurrentConfiguration_ok ha
        rfl
      apply Prog.Safe.bind (Q := fun _ w' => GivenUp app s w₀ w')
      · apply Prog.Safe.invoke
        intro r w' hn
        cases hn with
        | raises hc => cases hc
        | note => exact ⟨trivial, .early (fun h => absurd h hs) rfl rfl⟩
      · intro _ w₁ h₁
        apply (saveRun_settles hs h₁).bind
        intro _ w₂ h₂
        apply (recordEvent_settles hs _).bind
        intro _ w₃ h₃
        exact .inr ⟨hs, s', hdigest, h₃.trans h₂⟩
  · rename_i heq
    exact .inl ⟨.inl (not_not.1 heq), hd⟩

/-- The digest of a configuration is in hexadecimal digits. -/
def RouterConfig.HexDigest (config : RouterConfig) : Prop :=
  ∀ c ∈ config.digest, (48 ≤ c.val ∧ c.val ≤ 57) ∨ (97 ≤ c.val ∧ c.val ≤ 102)

theorem Acknowledged.settled (h : Acknowledged app s w₀ w) (hx : app.config.HexDigest)
    (hl : loadSync host w₀.runId w₀.dir = .ok s) : GivenUp app s w₀ w := by
  rcases h with ⟨hs, hd⟩ | ⟨hs, s', hdigest, hd⟩
  · exact ⟨fun _ => hd, fun _ _ _ _ => hs⟩
  · refine ⟨fun h => absurd h hs, fun _ _ _ hsame => ?_⟩
    rw [← hsame, hd] at hl
    left
    rw [load_digest hl, hdigest, persistText_of_hex hx]

theorem Acknowledged.push (h : Acknowledged app s w₀ w) (c : Call) (r : Except PyError (Val c)) :
    Acknowledged app s w₀ (w.push c r) := h

theorem adoption_settles (hx : app.config.HexDigest) (hl : loadSync host w.runId w.dir = .ok s)
    (rid : Text) : Settles app s w (fun _ _ => True) (app.adoption rid) w := by
  apply Prog.Safe.bind (Q := fun s' w' => s = s' ∧ w'.dir = w.dir ∧
    ∃ e log, w'.log = e :: log ∧ e.isInventory = false)
  · apply Prog.Safe.bind (Q := fun _ w' => w = w')
    · exact Prog.Safe.ofExcept (fun _ _ => rfl) fun _ _ => .start app s _
    · rintro _ _ rfl
      apply Prog.Safe.bind (Q := fun s' w' => s = s' ∧ w'.dir = w.dir ∧
        ∃ e log, w'.log = e :: log ∧ e.isInventory = false)
      · apply Prog.Safe.invoke
        intro r w' hn
        cases hn with
        | raises => exact ⟨trivial, .early (fun _ => rfl) rfl rfl⟩
        | loaded hr hl' =>
          subst hr
          rw [hl] at hl'
          exact ⟨trivial, Except.ok.inj hl', rfl, _, _, rfl, rfl⟩
      · rintro s' w₁ h₁
        have hnot : ¬(s'.configurationDigest ≠ app.config.digest ∧ true = false) :=
          fun h => Bool.noConfusion h.2
        simp only [if_neg hnot]
        exact h₁
  · rintro _ w₁ ⟨rfl, hd, e, log, hlog, he⟩
    apply (acknowledgeChange_settles hd hlog he).bind
    intro _ w₂ h₂
    apply Prog.Safe.bind (Q := fun _ _ => True)
    · apply Prog.Safe.bind (Q := fun _ w' => Acknowledged app s w w')
      · apply Prog.Safe.invoke
        intro r w' hn
        cases hn with
        | raises => exact ⟨trivial, (h₂.push _ _).settled hx hl⟩
        | availableModels => exact ⟨trivial, h₂.push _ _⟩
      · intro available w₃ h₃
        exact Prog.Safe.ofExcept (fun _ _ => trivial) fun _ _ => h₃.settled hx hl
    · exact fun _ _ _ => trivial

/-- When `resume` refuses to adopt an acknowledged configuration before it starts any turn, the
stored run is as it was if and only if it was bound to this configuration already, or the task of
one of its unfinished items is unknown to it. -/
theorem refused_adoption_iff (hx : app.config.HexDigest)
    (hl : loadSync host w.runId w.dir = .ok s) {rid : Text}
    (hs : Prog.Steps (Next host) (app.adoption rid) w (.throw e) w')
    (hlog : w'.log = events ++ w.log) (hr : app.Refuses s events e) :
    w'.dir = w.dir ↔ s.configurationDigest = app.config.digest ∨ ¬s.Routable app.config := by
  have hsettled : GivenUp app s w w' := ((adoption_settles hx hl rid).steps trivial hs).2
  constructor
  · intro hsame
    cases hr with
    | unknownTask ha =>
      right
      intro hroutable
      obtain ⟨s', hs'⟩ := RunState.adopts_iff.2 hroutable
      rw [ha] at hs'
      cases hs'
    | unavailable => exact hsettled.changed _ _ hlog hsame
    | lacking => exact hsettled.changed _ _ hlog hsame
  · exact hsettled.kept

end Adoption

section Storing

theorem saveRun_steps {w : World} (hid : isRunId w.runId = true) (hr : s.runId = w.runId)
    (hd : w.dir ≠ .absent) : Prog.Steps (Next host) (saveRun host s) w (.pure ())
      ((w.land s).push (.save s) (.ok ())) := by
  have hvalid : validateRunId host s.runId = .ok s.runId := if_pos (hr ▸ hid)
  have hsave : ∃ dir, saveSync s w.dir = .ok dir := by
    cases hw : w.dir with
    | absent => exact absurd hw hd
    | empty | snapshot => exact ⟨_, rfl⟩
  obtain ⟨dir, hsave⟩ := hsave
  rw [saveRun, hvalid]
  exact .call (.saved hr hsave (.inl rfl)) .refl

theorem recordEvent_steps {w : World} {time : DateTime} (ht : time.offset ≠ none)
    (hid : isRunId s.runId = true) (event : Text) :
    Prog.Steps (Next host) (recordEvent host s event none []) w (.pure ())
      ((w.push .now (.ok time)).push
        (.appendEvent s.runId { timestamp := time, event, workItemId := none, details := [] })
        (.ok ())) := by
  have hvalid : validateRunId host s.runId = .ok s.runId := if_pos hid
  apply Prog.Steps.answer (.now time ht)
  rw [appendEvent, hvalid]
  exact .call .appendEvent .refl

/-- The world in which the state `s` was loaded and the adopted state `s'` stored. -/
def World.adopted (w : World) (s s' : RunState) (time : DateTime) : World :=
  let noted := (w.push (.load w.runId) (.ok s)).push (.note (.adopted s')) (.ok ())
  (((noted.land s').push (.save s') (.ok ())).push .now (.ok time)).push
    (.appendEvent s'.runId
      { timestamp := time, event := text "configuration-change-acknowledged", workItemId := none,
        details := [] })
    (.ok ())

theorem World.adopted_dir (w : World) (s s' : RunState) (time : DateTime) :
    (w.adopted s s' time).dir = .snapshot (snapshotOf s') := rfl

/-- The adopted state is stored before the inventory is asked for. -/
theorem adopted_steps {w : World} {time : DateTime} (ht : time.offset ≠ none)
    (hid : isRunId w.runId = true) (hl : loadSync host w.runId w.dir = .ok s)
    (hd : s.configurationDigest ≠ app.config.digest)
    (ha : s.adoptCurrentConfiguration host app.config = .ok s') (hr : s'.runId = w.runId)
    {q : Program RunState}
    (hq : Prog.Steps (Next host) (do app.validateModelInventory; return s') (w.adopted s s' time) q
      w') : Prog.Steps (Next host) (app.adoption w.runId) w q w' := by
  have hdir : w.dir ≠ .absent := by
    intro h
    rw [h] at hl
    cases hl
  have hload : Prog.Steps (Next host) (loadRun host w.runId (some app.config.digest) true) w
      (.pure s) (w.push (.load w.runId) (.ok s)) := loadRun_steps hid hl _
  have hadopt : Prog.Steps (Next host) (app.acknowledgeChange s) (w.push (.load w.runId) (.ok s))
      (.pure s') (w.adopted s s' time) := by
    have hsave := @saveRun_steps host s'
      (w := (w.push (.load w.runId) (.ok s)).push (.note (.adopted s')) (.ok ())) hid hr hdir
    have hid' : isRunId s'.runId = true := hr ▸ hid
    rw [Application.acknowledgeChange, if_pos hd, ha]
    exact .answer .note (hsave.seq ((recordEvent_steps ht hid' _).seq .refl))
  exact hload.seq (hadopt.seq hq)

theorem validateModelInventory_steps {w : World} {available : List Text} {q : Program RunState}
    (hq : (do validateModels app.config available; return s : Program RunState) = q) :
    Prog.Steps (Next host) (do app.validateModelInventory; return s) w q
      (w.push .availableModels (.ok available)) :=
  .call (.availableModels available) (hq ▸ .refl)

end Storing

section Sample

/-- The sample run of a task, resumed under another configuration while the inventory is empty. -/
theorem task_adoption_refused : ∃ app : Application sampleHost, ∃ s' e events w',
    app.config.HexDigest ∧ app.config.digest = text otherDigest ∧
      taskState.persisted.adoptCurrentConfiguration sampleHost app.config = .ok s' ∧
      Prog.Steps (Next sampleHost) (app.adoption diedWorld.runId) diedWorld (.throw e) w' ∧
      validateModels app.config [] = .error e ∧
      w'.log = .answered .availableModels (.ok []) :: events ++ diedWorld.log ∧
      w'.dir = .snapshot (snapshotOf s') := by
  have hconfig : loadRouterConfig sampleHost samplePath (sampleYaml .automatic .automatic .readOnly)
      (text otherDigest) = .ok (otherConfig .readOnly) := by decide +kernel
  obtain ⟨s', ha, _⟩ := task_adopts .readOnly hconfig
  have hrun : taskState.persisted.runId = diedWorld.runId := by decide +kernel
  have hr : s'.runId = diedWorld.runId := by
    obtain ⟨_, rfl, _⟩ := RunState.adoptCurrentConfiguration_ok ha
    exact hrun
  have hd : taskState.persisted.configurationDigest ≠ text otherDigest := by decide +kernel
  have hm : (validateModels (otherConfig .readOnly) []).isOk = false := by decide +kernel
  have hx : (otherConfig .readOnly).HexDigest := by
    have hall : (text otherDigest).all (fun c =>
        (48 ≤ c.val ∧ c.val ≤ 57) ∨ (97 ≤ c.val ∧ c.val ≤ 102)) = true := by decide +kernel
    exact fun c hc => of_decide_eq_true (List.all_eq_true.1 hall c hc)
  cases he : validateModels (otherConfig .readOnly) [] with
  | ok =>
    rw [he] at hm
    cases hm
  | error e =>
    have hraise : (do validateModels (otherConfig .readOnly) []; return s' : Program RunState) =
        .throw e := by
      rw [he]
      rfl
    have hsteps := @adopted_steps _ (otherApplication .readOnly hconfig) _ _ _ _ _ dyingScript.aware
      (show isRunId (text "run") = true by decide) taskState_load hd ha hr
      _ (validateModelInventory_steps hraise)
    exact ⟨_, s', e, [_, _, _, _, _, _], _, hx, rfl, ha, hsteps, he, rfl, rfl⟩

/-- The configuration is refused, and yet the run is bound to it. -/
theorem refused_adoption_stored :
    ¬∀ (host : Host) (app : Application host) (w w' : World) (s : RunState) (events : List Event)
      (e : PyError), Reachable host w → loadSync host w.runId w.dir = .ok s →
      Prog.Steps (Next host) (app.adoption w.runId) w (.throw e) w' →
      w'.log = events ++ w.log → app.Refuses s events e → w'.dir = w.dir := by
  intro h
  obtain ⟨app, s', e, events, w', hx, hdigest, ha, hs, he, hlog, hdir⟩ := task_adoption_refused
  have hsame := h _ app _ w' _ (.answered .availableModels (.ok []) :: events) e
    diedWorld_reachable taskState_load hs hlog (.lacking he)
  have hl := taskState_load
  rw [← hsame, hdir] at hl
  have hload := load_digest hl
  obtain ⟨_, rfl, _⟩ := RunState.adoptCurrentConfiguration_ok ha
  have hne : taskState.persisted.configurationDigest ≠ text otherDigest := by decide +kernel
  exact hne (by rw [hload, persistText_of_hex hx, hdigest])

/-- What the refused call did to the directory, by the condition. -/
theorem refused_adoption_sample : ∃ app : Application sampleHost, ∃ e w',
    Prog.Steps (Next sampleHost) (app.adoption diedWorld.runId) diedWorld (.throw e) w' ∧
      (w'.dir = diedWorld.dir ↔ taskState.persisted.configurationDigest = app.config.digest ∨
        ¬taskState.persisted.Routable app.config) := by
  obtain ⟨app, s', e, events, w', hx, _, _, hs, he, hlog, _⟩ := task_adoption_refused
  have hrefused : app.Refuses taskState.persisted
      (.answered .availableModels (.ok []) :: events) e := .lacking he
  exact ⟨app, e, w', hs, refused_adoption_iff hx taskState_load hs hlog hrefused⟩

end Sample

end GoalRouter
