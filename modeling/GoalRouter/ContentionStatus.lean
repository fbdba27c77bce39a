import GoalRouter.RefusedAdoption
import GoalRouter.SchedulerQuiescence
import GoalRouter.StoreCalls

namespace GoalRouter
open Library
set_option autoImplicit true

/-- The status in the stored snapshot of a run. -/
def RunDir.status? : RunDir → Option RunStatus
  | .snapshot (.obj fields) => (StateField.enum RunStatus fields (text "status")).toOption
  | _ => none

theorem status?_snapshotOf (s : RunState) :
    (RunDir.snapshot (snapshotOf s)).status? = some s.status := by
  rw [snapshotOf_eq, RunDir.status?, read_enum (text "status") s.plainNames rfl]
  rfl

theorem status?_of_load {dir : RunDir} (h : loadSync host rid dir = .ok s) :
    dir.status? = some s.status := by
  obtain ⟨raw, rfl, hf⟩ := loadSync_ok h
  rw [RunDir.status?, (RunState.fromDict_ok hf).status]
  rfl

/-- Calls that ask for the project lease. -/
def Call.leases : Call → Bool
  | .acquireProject _ => true
  | _ => false

/-- Calls that neither ask for the project lease nor touch the directory. -/
def Call.idle : Call → Bool
  | .acquireProject _ | .create _ | .save _ => false
  | _ => true

/-- The last answer is not that the project is busy. -/
def World.Calm (w : World) : Prop :=
  ∀ path e log, w.log ≠ .answered (.acquireProject path) (.error e) :: log

/-- The project lease has been granted since `w₀`. -/
def Granted (w₀ w : World) : Prop :=
  ∃ since path, w.log = since ++ w₀.log ∧ .answered (.acquireProject path) (.ok ()) ∈ since

/-- The project lease has not been granted since `w₀`. -/
def Ungranted (w₀ w : World) : Prop :=
  ∃ since, w.log = since ++ w₀.log ∧ ∀ path, .answered (.acquireProject path) (.ok ()) ∉ since

section Calls

variable {host : Host}

theorem Next.calm (h : Next host w c r w') (hc : c.leases = false) : w'.Calm := by
  intro path e log hl
  cases h <;> cases hl
  cases hc

theorem World.calm_push (w : World) (c : Call) (v : Val c) : (w.push c (.ok v)).Calm := by
  intro path e log hl
  cases hl

theorem Next.granted (h : Next host w c r w') (hg : Granted w₀ w) : Granted w₀ w' := by
  obtain ⟨since, path, hl, hm⟩ := hg
  obtain ⟨e, he, _⟩ := h.since
  refine ⟨.answered c r :: (e ++ since), path, ?_, ?_⟩
  · rw [he, hl, List.cons_append, List.append_assoc]
  · exact List.mem_cons_of_mem _ (List.mem_append_right _ hm)

theorem Next.ungranted (h : Next host w c r w') (hc : c.leases = false) (hg : Ungranted w₀ w) :
    Ungranted w₀ w' := by
  obtain ⟨since, hl, hn⟩ := hg
  obtain ⟨e, he, hr⟩ := h.since
  refine ⟨.answered c r :: (e ++ since), ?_, ?_⟩
  · rw [he, hl, List.cons_append, List.append_assoc]
  · intro path hm
    rcases List.mem_cons.1 hm with hm | hm
    · cases hm
      cases hc
    · rcases List.mem_append.1 hm with hm | hm
      · obtain ⟨s, hs⟩ := hr _ hm
        cases hs
      · exact hn path hm

theorem Next.idle_dir (h : Next host w c r w') (hc : c.idle = true) : w'.dir = w.dir := by
  cases h <;> first | rfl | cases hc

end Calls

section OffLease

variable {host : Host}

/-- The program never asks for the project lease. -/
abbrev OffLease (p : Program α) : Prop := p.Only fun c => c.leases = false

theorem Works.offLease {p : Program α} (h : Works p) : OffLease p := by
  apply Prog.Only.mono h
  intro c hc
  cases c <;> first | rfl | cases hc

theorem Consults.idle {p : Program α} (h : Consults p) : p.Only fun c => c.idle = true := by
  apply Prog.Only.mono h
  intro c hc
  cases c <;> first | rfl | cases hc

end OffLease

section Loop

variable {host : Host} {D : World → Prop}

/-- The project was busy when it was asked for in a world with `D`. -/
def Busy (D : World → Prop) (w : World) : Prop :=
  ∃ w₁ path e, w = w₁.push (.acquireProject path) (.error e) ∧ D w₁

/-- What the answers to calls other than for the project lease keep. -/
def Steady (host : Host) (D : World → Prop) : Prop :=
  ∀ w c r w', c.leases = false → Next host w c r w' → D w → D w'

theorem OffLease.safe {p : Program α} {Q : α → World → Prop} (h : OffLease p)
    (hD : Steady host D) (hc : w.Calm) (hd : D w)
    (hq : p.Safe (Next host) (fun _ => True) Q (fun _ _ => True) w) :
    p.Safe (Next host) (fun _ => True) (fun a w' => w'.Calm ∧ D w' ∧ Q a w')
      (fun _ w' => w'.Calm) w := by
  have hkept := Prog.Only.safe (F := fun w => w.Calm ∧ D w) h
    (fun w c r w' hc hn hw => ⟨hn.calm hc, hD w c r w' hc hn hw.2⟩) ⟨hc, hd⟩
  apply ((hkept.and hq).weaken fun _ _ => trivial).mono
  · exact fun a w' hw => ⟨hw.1.1, hw.1.2, hw.2⟩
  · exact fun e w' hw => hw.1.1

theorem saveRun_lands (s : RunState) (w : World) :
    (saveRun host s).Safe (Next host) (fun _ => True)
      (fun _ w' => w'.dir = .snapshot (snapshotOf s)) (fun _ _ => True) w := by
  apply Prog.Safe.bind (Q := fun _ _ => True)
  · exact Prog.Safe.ofExcept (fun _ _ => trivial) fun _ _ => trivial
  · intro _ w₁ _
    apply Prog.Safe.invoke
    intro r w' hn
    cases hn with
    | raises => exact ⟨trivial, trivial⟩
    | saved =>
      cases r with
      | ok => exact ⟨trivial, rfl⟩
      | error => exact ⟨trivial, trivial⟩

theorem leased_calm (hD : Steady host D) (hc : w.Calm) (hd : D w) (s : RunState) (item : WorkItem)
    (path : PurePath) :
    ((writerBody host s item).ensure (invoke (.releaseProject path))).Safe (Next host)
      (fun _ => True) (fun s' w' => w'.Calm ∧ D w' ∧ s'.status = .running)
      (fun _ w' => w'.Calm) w := by
  have hbody := (writerBody_works s item).offLease.safe hD hc hd (writerBody_within rfl s item)
  apply hbody.ensure
  · rintro s' w' ⟨_, hd, _, r, _, rfl⟩
    apply Prog.Safe.invoke
    intro r' w'' hn
    have hcalm := hn.calm rfl
    cases r' with
    | ok => exact ⟨trivial, hcalm, hD _ _ _ _ rfl hn hd, rfl⟩
    | error => exact ⟨trivial, hcalm⟩
  · intro e w' _
    apply Prog.Safe.invoke
    intro r' w'' hn
    have hcalm := hn.calm rfl
    cases r' <;> exact ⟨trivial, hcalm⟩

/-- A writer of a running run is refused only after the run was stored as planned. -/
theorem runWriter_running (hD : ∀ w c r w', Next host w c r w' → D w → D w') {s : RunState}
    (hs : s.status = .running) (hc : w.Calm) (hd : D w) (item : WorkItem) :
    (runWriter host s item).Safe (Next host) (fun _ => True)
      (fun s' w' => w'.Calm ∧ D w' ∧ s'.status = .running)
      (fun _ w' => w'.Calm ∨ Busy (fun w₁ => D w₁ ∧ w₁.dir.status? = some .planned) w') w := by
  have hsteady : Steady host D := fun w c r w' _ hn hw => hD w c r w' hn hw
  have hpre : s.status.isPreWriter = true := by
    rw [hs]
    rfl
  rw [runWriter, if_pos hpre]
  simp only [bind_assoc, pure_bind]
  have hsave := (saveRun_stores { s with status := .planned }).works.offLease.safe hsteady hc hd
    (saveRun_lands { s with status := .planned } w)
  apply (hsave.mono (fun _ _ h => h) fun _ _ h => .inl h).bind
  rintro _ w₁ ⟨_, hd₁, hdir⟩
  apply Prog.Safe.bind (Q := fun _ w' => w'.Calm ∧ D w')
  · apply Prog.Safe.invoke
    intro r w' hn
    have hd' : D w' := hD _ _ _ _ hn hd₁
    cases hn with
    | raises =>
      refine ⟨trivial, .inr ⟨w₁, _, _, rfl, hd₁, ?_⟩⟩
      rw [hdir, status?_snapshotOf]
    | acquireProject => exact ⟨trivial, w₁.calm_push _ _, hd'⟩
  · rintro _ w₂ ⟨hc₂, hd₂⟩
    exact (leased_calm hsteady hc₂ hd₂ _ item _).mono (fun _ _ h => h) fun _ _ h => .inl h

theorem blockAll_status (s : RunState) : s.blockAll.status = s.status := by
  obtain ⟨d, hd⟩ := RunState.blockAll_eq s
  rw [hd]

theorem validated_calm (hD : Steady host D) (hc : w.Calm) (hd : D w) (s : RunState)
    (ready : List WorkItem) :
    (ready.forM fun item => note (.validated s item.id)).Safe (Next host) (fun _ => True)
      (fun _ w' => w'.Calm ∧ D w') (fun _ w' => w'.Calm) w := by
  have h := (forM_validated_records s ready).stores.works.offLease.safe hD hc hd
    (forM_validated_within rfl s ready)
  exact h.mono (fun _ _ h => ⟨h.1, h.2.1⟩) fun _ _ h => h

theorem runReaders_calm (hD : Steady host D) (hc : w.Calm) (hd : D w) (s : RunState)
    (batch : List WorkItem) :
    (runReaders host s batch).Safe (Next host) (fun _ => True)
      (fun s' w' => w'.Calm ∧ D w' ∧ s'.status = .running) (fun _ w' => w'.Calm) w := by
  apply ((runReaders_works s batch).offLease.safe hD hc hd (runReaders_within rfl s batch)).mono
  · rintro s' w' ⟨hc, hd, _, results, _, rfl⟩
    refine ⟨hc, hd, ?_⟩
    rw [RunState.foldl_withResult_status]
  · exact fun _ _ h => h

theorem runLoop_running (hD : ∀ w c r w', Next host w c r w' → D w → D w') (maxRead n : Nat)
    {s : RunState} (hs : s.status = .running) (hc : w.Calm) (hd : D w) :
    (runLoop host maxRead n s).Safe (Next host) (fun _ => True) (fun _ w' => w'.Calm)
      (fun _ w' => w'.Calm ∨ Busy (fun w₁ => D w₁ ∧ w₁.dir.status? = some .planned) w') w := by
  have hsteady : Steady host D := fun w c r w' _ hn hw => hD w c r w' hn hw
  induction n generalizing s w with
  | zero => exact hc
  | succ n ih =>
    apply Prog.Safe.bind (Q := fun _ w' => w'.Calm ∧ D w')
    · apply Prog.Safe.invoke
      intro r w' hn
      have hw := And.intro (hn.calm rfl) (hD _ _ _ _ hn hd)
      cases r with
      | ok => exact ⟨trivial, hw⟩
      | error => exact ⟨trivial, .inl hw.1⟩
    rintro _ w₁ ⟨hc₁, hd₁⟩
    have hblock := (persistBlocked_stores s _).works.offLease.safe hsteady hc₁ hd₁
      (persistBlocked_within rfl s)
    apply (hblock.mono (fun _ _ h => h) fun _ _ h => .inl h).bind
    rintro _ w₂ ⟨hc₂, hd₂, _, rfl⟩
    have hstatus : s.blockAll.status = .running := (blockAll_status s).trans hs
    simp only
    split
    · exact hc₂
    · apply ((validated_calm hsteady hc₂ hd₂ _ _).mono (fun _ _ h => h) fun _ _ h => .inl h).bind
      rintro _ w₃ ⟨hc₃, hd₃⟩
      split
      · rename_i item _
        apply (runWriter_running hD hstatus hc₃ hd₃ item).bind
        exact fun s' w' hw => ih hw.2.2 hw.1 hw.2.1
      · apply ((runReaders_calm hsteady hc₃ hd₃ _ _).mono (fun _ _ h => h) fun _ _ h => .inl h).bind
        exact fun s' w' hw => ih hw.2.2 hw.1 hw.2.1

/-- Of the items that can be dispatched once those with a failed dependency are blocked, one is a
writer. -/
def RunState.WriterReady (host : Host) (s : RunState) : Prop :=
  ∃ item ∈ s.blockAll.dispatchable host, item.isWriter = true

/-- The world in which the first request of a call of `run_ready` for the lease is refused, as the
state it was entered with is still stored. -/
def FirstRefused (host : Host) (s : RunState) (w₀ w : World) : Prop :=
  s.WriterReady host ∧ Ungranted w₀ w ∧ w.dir.status? = some s.status

/-- A world in which a later request is refused, after something else was dispatched. -/
def LaterRefused (host : Host) (s : RunState) (w₀ w : World) : Prop :=
  (¬s.WriterReady host ∨ Granted w₀ w) ∧ w.dir.status? = some .planned

theorem idle_status {p : Program α} (hp : p.Only fun c => c.idle = true)
    (hd : w.dir.status? = some status) : p.Safe (Next host) (fun _ => True)
      (fun _ w' => w'.dir.status? = some status) (fun _ _ => True) w := by
  have hstep (w : World) (c : Call) (r : Except PyError (Val c)) (w' : World) (hc : c.idle = true)
      (hn : Next host w c r w') (hw : w.dir.status? = some status) :
      w'.dir.status? = some status := by
    rw [hn.idle_dir hc]
    exact hw
  exact ((hp.safe hstep hd).weaken fun _ _ => trivial).mono (fun _ _ h => h) fun _ _ _ => trivial

theorem persistResult_status (s : RunState) (r : WorkResult) (w : World) :
    (persistResult host s r).Safe (Next host) (fun _ => True)
      (fun s' w' => s' = s.withResult r ∧ w'.dir.status? = some s'.status) (fun _ _ => True) w := by
  apply (saveRun_lands (s.withResult r) w).bind
  intro _ w₁ h₁
  have hd₁ : w₁.dir.status? = some s.status := by
    rw [h₁, status?_snapshotOf]
    rfl
  apply (idle_status (Prog.Only.invoke rfl) hd₁).bind
  intro time w₂ h₂
  apply (idle_status (appendEvent_records _ _).consults.idle h₂).bind
  exact fun _ w₃ h₃ => ⟨rfl, h₃⟩

theorem persistResults_status (hd : w.dir.status? = some s.status) (results : List WorkResult) :
    (results.foldlM (persistResult host) s).Safe (Next host) (fun _ => True)
      (fun s' w' => s' = results.foldl RunState.withResult s ∧ w'.dir.status? = some s'.status)
      (fun _ _ => True) w := by
  induction results generalizing s w with
  | nil => exact ⟨rfl, hd⟩
  | cons r results ih =>
    apply (persistResult_status s r w).bind
    rintro _ w₁ ⟨rfl, h₁⟩
    exact ih h₁

theorem persistBlocked_status (hd : w.dir.status? = some s.status) :
    (persistBlocked host s s.newlyBlocked).Safe (Next host) (fun _ => True)
      (fun s' w' => s' = s.blockAll ∧ w'.dir.status? = some s.status) (fun _ _ => True) w := by
  have h := @persistResults_status host s w hd (s.newlyBlocked.map blockedResult)
  rw [List.foldlM_map] at h
  apply h.mono
  · rintro s' w' ⟨rfl, hs⟩
    have hstatus : s.blockAll.status = s.status := blockAll_status s
    exact ⟨rfl, hstatus ▸ hs⟩
  · exact fun _ _ h => h

theorem ungranted_steady (host : Host) (w₀ : World) : Steady host (Ungranted w₀) :=
  fun _ _ _ _ hc hn hw => hn.ungranted hc hw

theorem Granted.acquired {w₀ : World} (h : Ungranted w₀ w) (path : PurePath) :
    Granted w₀ (w.push (.acquireProject path) (.ok ())) := by
  obtain ⟨since, hl, _⟩ := h
  exact ⟨_ :: since, path, by rw [World.push_log, hl, List.cons_append], List.mem_cons_self⟩

/-- The first item that a failed or blocked run dispatches decides what a refusal leaves behind. -/
theorem runLoop_refused (maxRead : Nat) {n : Nat} {s : RunState}
    (hs : s.status = .failed ∨ s.status = .blocked) {w₀ : World}
    (hd : w₀.dir.status? = some s.status) :
    (runLoop host maxRead n s).Safe (Next host) (fun _ => True) (fun _ _ => True)
      (fun _ w' => w'.Calm ∨
        Busy (fun w₁ => FirstRefused host s w₀ w₁ ∨ LaterRefused host s w₀ w₁) w')
      w₀ := by
  cases n with
  | zero => trivial
  | succ n =>
    have hlater (w : World) (c : Call) (r : Except PyError (Val c)) (w' : World)
        (hn : Next host w c r w') (hw : ¬s.WriterReady host ∨ Granted w₀ w) :
        ¬s.WriterReady host ∨ Granted w₀ w' := hw.imp_right fun hg => hn.granted hg
    have running {s₁ : RunState} {w₁ : World} (hs₁ : s₁.status = .running) (hc₁ : w₁.Calm)
        (hw : ¬s.WriterReady host ∨ Granted w₀ w₁) :
        (runLoop host maxRead n s₁).Safe (Next host) (fun _ => True) (fun _ _ => True)
          (fun _ w' => w'.Calm ∨
            Busy (fun w₁ => FirstRefused host s w₀ w₁ ∨ LaterRefused host s w₀ w₁) w') w₁ := by
      apply (runLoop_running hlater maxRead n hs₁ hc₁ hw).mono
      · exact fun _ _ _ => trivial
      · rintro _ w' (h | ⟨w₂, path, e, rfl, h⟩)
        · exact .inl h
        · exact .inr ⟨w₂, path, e, rfl, .inr h⟩
    apply Prog.Safe.bind
      (Q := fun _ w' => w'.Calm ∧ Ungranted w₀ w' ∧ w'.dir.status? = some s.status)
    · apply Prog.Safe.invoke
      intro r w' hn
      cases hn with
      | raises hc => cases hc
      | note =>
        have hnone : Ungranted w₀ w₀ := ⟨[], rfl, fun _ => List.not_mem_nil⟩
        exact ⟨trivial, w₀.calm_push _ _, @Next.ungranted host _ _ _ _ _ .note rfl hnone, hd⟩
    rintro _ w₁ ⟨hc₁, hu₁, hd₁⟩
    have hblock := (persistBlocked_stores s _).works.offLease.safe (ungranted_steady host w₀)
      hc₁ hu₁ (persistBlocked_status hd₁)
    apply (hblock.mono (fun _ _ h => h) fun _ _ h => .inl h).bind
    rintro _ w₂ ⟨hc₂, hu₂, rfl, hd₂⟩
    simp only
    split
    · trivial
    · have hturns := forM_validated_records s.blockAll (s.blockAll.dispatchable host)
      have hnotes := hturns.stores.works.offLease.safe (ungranted_steady host w₀) hc₂ hu₂
        (idle_status hturns.consults.idle hd₂)
      apply (hnotes.mono (fun _ _ h => h) fun _ _ h => .inl h).bind
      rintro _ w₃ ⟨hc₃, hu₃, hd₃⟩
      split
      · rename_i item hf
        have hready : s.WriterReady host :=
          ⟨item, List.mem_of_find?_eq_some hf, List.find?_some hf⟩
        have hpre : s.blockAll.status.isPreWriter = false := by
          rw [blockAll_status]
          rcases hs with hs | hs <;> rw [hs] <;> rfl
        rw [runWriter, if_neg (by rw [hpre]; exact Bool.false_ne_true)]
        apply Prog.Safe.bind (Q := fun s' w' => w'.Calm ∧ Granted w₀ w' ∧ s'.status = .running)
        · simp only [pure_bind]
          apply Prog.Safe.bind (Q := fun _ w' => w'.Calm ∧ Granted w₀ w')
          · apply Prog.Safe.invoke
            intro r w' hn
            cases hn with
            | raises => exact ⟨trivial, .inr ⟨w₃, _, _, rfl, .inl ⟨hready, hu₃, hd₃⟩⟩⟩
            | acquireProject => exact ⟨trivial, w₃.calm_push _ _, .acquired hu₃ _⟩
          · rintro _ w₄ ⟨hc₄, hg₄⟩
            have hsteady : Steady host (Granted w₀) := fun _ _ _ _ _ hn hw => hn.granted hw
            exact (leased_calm hsteady hc₄ hg₄ _ item _).mono (fun _ _ h => h) fun _ _ h => .inl h
        · exact fun s' w' hw => running hw.2.2 hw.1 (.inr hw.2.1)
      · rename_i hf
        have hnot : ¬s.WriterReady host := by
          rintro ⟨item, hm, hw⟩
          exact List.find?_eq_none.1 hf item hm hw
        have hsteady : Steady host fun _ => ¬s.WriterReady host := fun _ _ _ _ _ _ h => h
        apply ((runReaders_calm hsteady hc₃ hnot _ _).mono (fun _ _ h => h)
          fun _ _ h => .inl h).bind
        exact fun s' w' hw => running hw.2.2 hw.1 (.inl hw.2.1)

theorem conclude_calm (s : RunState) (w : World) :
    (conclude host s).Safe (Next host) (fun _ => True) (fun _ _ => True)
      (fun _ w' => w'.Calm) w := by
  have hsteady : Steady host fun _ => True := fun _ _ _ _ _ _ _ => trivial
  intro r w' hn
  have hrest := (@conclude_stores host s).works.offLease.2 r
  have hsafe := OffLease.safe hrest hsteady (hn.calm rfl) trivial
    ((Prog.Safe.any _ w').mono (fun _ _ h => h) fun _ _ h => h)
  exact ⟨trivial, hsafe.mono (fun _ _ _ => trivial) fun _ _ h => h⟩

theorem runReady_refused (maxRead : Nat) {s : RunState}
    (hs : s.status = .failed ∨ s.status = .blocked) {w₀ : World}
    (hd : w₀.dir.status? = some s.status) :
    (runReady host maxRead s).Safe (Next host) (fun _ => True) (fun _ _ => True)
      (fun _ w' => w'.Calm ∨
        Busy (fun w₁ => FirstRefused host s w₀ w₁ ∨ LaterRefused host s w₀ w₁) w')
      w₀ := by
  apply (runLoop_refused maxRead hs hd).bind
  intro s' w₁ _
  exact (conclude_calm s' w₁).mono (fun _ _ h => h) fun _ _ h => .inl h

end Loop

/-- When a call of `run_ready` for a failed or blocked run, whose state is the stored one, ends
because the project is busy, the stored run is still failed or blocked if and only if a writer could
be dispatched when the call began, and its request for the project lease is the one refused. -/
theorem busy_status_iff {host : Host} {maxRead : Nat} {s : RunState} {w w' : World}
    (hs : s.status = .failed ∨ s.status = .blocked)
    (hd : w.dir = .snapshot (snapshotOf s) ∨ loadSync host w.runId w.dir = .ok s)
    (hr : Prog.Steps (Next host) (runReady host maxRead s) w (.throw e) w')
    (hl : w'.log = .answered (.acquireProject path) (.error e) :: (events ++ w.log)) :
    w'.dir.status? = some .failed ∨ w'.dir.status? = some .blocked ↔
      s.WriterReady host ∧ ∀ path, .answered (.acquireProject path) (.ok ()) ∉ events := by
  have hstored : w.dir.status? = some s.status := by
    rcases hd with hd | hd
    · rw [hd, status?_snapshotOf]
    · exact status?_of_load hd
  rcases ((runReady_refused maxRead hs hstored).steps trivial hr).2 with h | ⟨w₁, path', e', rfl, h⟩
  · exact absurd hl (h path e _)
  · obtain ⟨hlast, hlog⟩ := List.cons.inj hl
    have hdir : (w₁.push (.acquireProject path') (.error e')).dir.status? = w₁.dir.status? := rfl
    rw [hdir]
    rcases h with ⟨hready, ⟨since, hsince, hnone⟩, hstatus⟩ | ⟨hspent, hstatus⟩
    · rw [hsince] at hlog
      rw [← List.append_cancel_right hlog, hstatus]
      simp only [Option.some.injEq]
      exact iff_of_true hs ⟨hready, hnone⟩
    · rw [hstatus]
      refine iff_of_false (by simp) ?_
      rintro ⟨hready, hnone⟩
      rcases hspent with hnot | ⟨since, path'', hsince, hm⟩
      · exact hnot hready
      · rw [hsince] at hlog
        exact hnone path'' (List.append_cancel_right hlog ▸ hm)

/-- The state that took its place in the directory last. -/
def World.last? (w : World) : Option RunState :=
  w.log.findSome? fun
    | .replaced s => some s
    | _ => none

/-- The directory holds the snapshot of the last state that was stored. -/
def World.HoldsLast (w : World) : Prop := ∀ s, w.last? = some s → w.dir = .snapshot (snapshotOf s)

theorem Next.holdsLast {host : Host} (h : Next host w c r w') (hw : w.HoldsLast) :
    w'.HoldsLast := by
  have hland {w : World} (s : RunState) (c : Call) (r : Except PyError (Val c)) :
      ((w.land s).push c r).HoldsLast := by
    intro s' hs
    cases hs
    rfl
  cases h with
  | created | saved => exact hland _ _ _
  | createdPartly _ hd =>
    intro s hs
    rw [hw s hs] at hd
    cases hd
  | _ => exact hw

theorem Reachable.holdsLast {host : Host} (h : Reachable host w) : w.HoldsLast := by
  induction h with
  | initial => exact fun s hs => by cases hs
  | session app op _ hs ih => exact hs.keeps (fun _ _ _ _ hn hw => hn.holdsLast hw) ih

section Sample

/-- An item that fails, a reader that waits for approval, and a writer that depends on it. -/
def busyPlan : Json := .obj [(text "work-items", .arr [
  .obj [
    (text "id", .str (text "a")),
    (text "title", .str (text "Title")),
    (text "instructions", .str (text "Do it")),
    (text "task", .str (text "review")),
    (text "phase", .str (text "one")),
    (text "dependencies", .arr []),
    (text "access", .str (text "read-only")),
    (text "affected-paths", .arr []),
    (text "expected-result", .str (text "Done")),
    (text "verification", .arr [.str (text "Look")]),
    (text "confidence", .int 1),
    (text "risk-flags", .arr [])],
  sampleItem "b" "read-only" [],
  sampleItem "c" "workspace-write" ["b"]])]

def busyHost : Host :=
  { sampleHost with
    loads := fun t =>
      if t = renderJson busyPlan then .ok busyPlan
      else .error (text "Expecting value: line 1 column 1 (char 0)") }

/-- An application where work requires approval and reviews do not. -/
def cautiousApplication : Application busyHost :=
  ⟨⟨sampleConfig .automatic .required .readOnly, samplePath,
    sampleYaml .automatic .required .readOnly, text "digest", by decide +kernel⟩, samplePath⟩

/-- An application under another digest where nothing requires approval. -/
def laxApplication : Application busyHost :=
  ⟨⟨otherConfig .readOnly, samplePath, sampleYaml .automatic .automatic .readOnly, text otherDigest,
    by decide +kernel⟩, samplePath⟩

/-- A run of which one item failed and another waits for approval. -/
def failedWorld : World :=
  (sampleScript busyPlan ["b"]).session cautiousApplication
    (.runObjective samplePath (text "Go") none) sampleWorld

def failedState : RunState where
  schemaVersion := 1
  configurationDigest := text "digest"
  objective := ⟨text "run", text "Go", samplePath, none, samplePath, dyingScript.time⟩
  repository := dyingScript.repository
  workItems := Dict.ofList [
    (text "a", { singleItem with task := text "review" }),
    (text "b", { singleItem with id := text "b" }),
    (text "c", { singleItem with
      id := text "c", dependencies := [text "b"], access := .workspaceWrite })]
  routes := Dict.ofList [
    (text "a", { singleDecision with
      task := text "review", approval := .automatic, reason := text "planner task 'review'" }),
    (text "b", singleDecision),
    (text "c", singleDecision)]
  results := Dict.ofList [
    (text "a", failureResult singleItem .failed (text "SdkError: failed"))]
  approvals := ∅
  status := .failed

theorem failedWorld_last : failedWorld.last? = some failedState := by decide +kernel

theorem failedWorld_reachable : Reachable busyHost failedWorld :=
  (sampleScript busyPlan ["b"]).session_reachable _ _ sampleWorld_reachable

/-- The history up to where a resumed run is about to be loaded. -/
def World.leased (w : World) (config : RouterConfig) : World :=
  (w.begin config).push (.acquireRun w.runId) (.ok ())

theorem Reachable.leased {host : Host} {app : Application host} (h : Reachable host w)
    (hid : isRunId w.runId = true) : Reachable host (w.leased app.config) := by
  obtain ⟨q, hs⟩ := withRunLease_steps (w := w.begin app.config)
    hid .refl
  exact .session app (.resume w.runId true) h (hs.bind _)

theorem leased_adoption {host : Host} {app : Application host} {s s' : RunState} {w : World}
    {time : DateTime} (ht : time.offset ≠ none) (hid : isRunId w.runId = true)
    (hl : loadSync host w.runId w.dir = .ok s) (hd : s.configurationDigest ≠ app.config.digest)
    (ha : s.adoptCurrentConfiguration host app.config = .ok s') (hr : s'.runId = w.runId)
    {available : List Text} (hm : validateModels app.config available = .ok ()) :
    Prog.Steps (Next host) (app.adoption w.runId) (w.leased app.config) (.pure s')
      (((w.leased app.config).adopted s s' time).push .availableModels (.ok available)) := by
  have hvalid : (do validateModels app.config available; return s' : Program RunState) =
      .pure s' := by
    rw [hm]
    rfl
  exact adopted_steps (w := w.leased app.config) ht hid hl hd ha hr
    (validateModelInventory_steps hvalid)

/-- The world answers by the script, but the project is always busy. -/
def Script.busy (host : Host) (script : Script) (w : World) :
    (c : Call) → Option (Except PyError (Val c) × World)
  | .acquireProject path =>
    refuse w (.acquireProject path) ⟨.projectBusyError, text "Target project is already leased"⟩
  | c => script.answer host w c

theorem Script.busy_next {host : Host} {script : Script} {w w' : World} {c : Call}
    {r : Except PyError (Val c)} (h : script.busy host w c = some (r, w')) :
    Next host w c r w' := by
  cases c with
  | acquireProject =>
    cases h
    exact .raises rfl
  | _ => exact script.answer_next host h

theorem failedWorld_runId : failedWorld.runId = text "run" := by decide +kernel

theorem failedWorld_isRunId : isRunId failedWorld.runId = true := by
  rw [failedWorld_runId]
  decide

theorem failedState_load :
    loadSync busyHost failedWorld.runId failedWorld.dir = .ok failedState.persisted := by
  have hplain : ["a", "b", "c"].all (fun k => joinSurrogates (text k) = text k &&
      !isSecretKey (text k)) = true := by decide +kernel
  have hkey (k : String) (hk : k ∈ ["a", "b", "c"]) : PlainKey (text k) := by
    have h := List.all_eq_true.1 hplain k hk
    rw [Bool.and_eq_true, decide_eq_true_eq, Bool.not_eq_true'] at h
    exact h
  have hkeys (k : Text) (hk : k ∈ [text "a", text "b", text "c"]) : PlainKey k := by
    rcases List.mem_cons.1 hk with rfl | hk
    · exact hkey _ (by decide)
    rcases List.mem_cons.1 hk with rfl | hk
    · exact hkey _ (by decide)
    · rw [List.mem_singleton.1 hk]
      exact hkey _ (by decide)
  have hresults (k : Text) (hk : k ∈ [text "a"]) : PlainKey k := by
    rw [List.mem_singleton.1 hk]
    exact hkey _ (by decide)
  rw [failedWorld_reachable.holdsLast _ failedWorld_last]
  exact loadSync_snapshotOf _ _ rfl ⟨nofun, fun _ hm => absurd hm List.not_mem_nil⟩
    ⟨hkeys, hkeys, hresults, fun _ hm => absurd hm List.not_mem_nil⟩

/-- The error that refused the project. -/
def Event.refused? : Event → Option PyError
  | .answered (.acquireProject _) (.error e) => some e
  | _ => none

theorem Event.of_refused {event : Event} (h : event.refused? = some e) :
    ∃ path, event = .answered (.acquireProject path) (.error e) := by
  cases event with
  | began | replaced => cases h
  | answered c r =>
    cases c with
    | acquireProject path =>
      cases r with
      | ok => cases h
      | error => exact ⟨path, by rw [Option.some.inj h]⟩
    | _ => cases h

theorem throw_of_outcome {p : Program α} (h : p.outcome? = some (.error e)) : p = .throw e := by
  cases p <;> cases h
  rfl

/-- The resumed run as it enters `run_ready`. -/
def resumedWorld (s : RunState) : World :=
  ((failedWorld.leased laxApplication.config).adopted failedState.persisted s dyingScript.time).push
    .availableModels (.ok [text "model"])

theorem resumedWorld_dir (s : RunState) : (resumedWorld s).dir = .snapshot (snapshotOf s) := by
  rw [resumedWorld, World.push_dir, World.adopted_dir]

/-- The call of `run_ready`, with the project busy. -/
def busyRun (s : RunState) : Program RunState × World :=
  (runReady busyHost laxApplication.maxReadConcurrency s).exec
    ((sampleScript busyPlan ["b"]).busy busyHost) (resumedWorld s)

theorem busyRun_steps (s : RunState) : Prog.Steps (Next busyHost)
    (runReady busyHost laxApplication.maxReadConcurrency s) (resumedWorld s) (busyRun s).1
    (busyRun s).2 := by
  have ha (w : World) (c : Call) (r : Except PyError (Val c)) (w' : World)
      (h : (sampleScript busyPlan ["b"]).busy busyHost w c = some (r, w')) :
      Next busyHost w c r w' :=
    Script.busy_next h
  exact Prog.exec_steps ha _ _

/-- The error that a program ended with. -/
def thrown? : Except PyError α → Option PyError
  | .ok _ => none
  | .error e => some e

/-- A resumed run that failed before dispatches its reader; then its writer finds the project
busy. -/
theorem busy_run : ∃ s e w path events,
    Prog.Steps (Next busyHost) (laxApplication.adoption failedWorld.runId)
        (failedWorld.leased laxApplication.config) (.pure s) (resumedWorld s) ∧
      s.status = .failed ∧ (resumedWorld s).dir = .snapshot (snapshotOf s) ∧
      Prog.Steps (Next busyHost) (runReady busyHost laxApplication.maxReadConcurrency s)
        (resumedWorld s) (.throw e) w ∧
      w.log = .answered (.acquireProject path) (.error e) :: (events ++ (resumedWorld s).log) ∧
      w.dir.status? = some .planned := by
  have hb : (failedState.persisted.adoptCurrentConfiguration busyHost
      laxApplication.config).toOption.any
      (fun s => s.status = .failed && s.runId = text "run" &&
        ((busyRun s).1.outcome?.any fun r => (thrown? r).isSome &&
          (busyRun s).2.log.head?.bind Event.refused? = thrown? r) &&
        (busyRun s).2.dir.status? = some .planned) = true := by
    decide +kernel
  have hd : failedState.persisted.configurationDigest ≠ text otherDigest := by decide +kernel
  have hm : validateModels (otherConfig .readOnly) [text "model"] = .ok () := by decide +kernel
  cases ha : failedState.persisted.adoptCurrentConfiguration busyHost laxApplication.config with
  | error e =>
    rw [ha] at hb
    cases hb
  | ok s =>
    rw [ha] at hb
    simp only [Except.toOption, Option.any_some, Bool.and_eq_true, decide_eq_true_eq] at hb
    obtain ⟨⟨⟨hstatus, hrun⟩, hend⟩, hplanned⟩ := hb
    have hbusy := busyRun_steps s
    obtain ⟨r, hr, hend⟩ := (Option.any_eq_true _ _).1 hend
    cases r with
    | ok => cases hend
    | error e =>
      rw [throw_of_outcome hr] at hbusy
      obtain ⟨events, hlog⟩ := steps_log hbusy
      have hrefused := of_decide_eq_true ((Bool.and_eq_true _ _).mp hend).2
      rw [hlog] at hrefused
      cases events with
      | nil => cases hrefused
      | cons event events =>
        obtain ⟨path, rfl⟩ := Event.of_refused hrefused
        have hadopted := leased_adoption dyingScript.aware
          failedWorld_isRunId failedState_load hd ha (hrun.trans failedWorld_runId.symm) hm
        exact ⟨s, e, _, path, events, hadopted, hstatus, resumedWorld_dir s, hbusy, hlog,
          hplanned⟩

/-- Contention rewrites a failed run to planned. -/
theorem busy_failed_run_planned :
    ¬∀ (host : Host) (app : Application host) (w w₁ w₂ : World) (rid : Text) (s : RunState)
      (e : PyError), Reachable host w → Prog.Steps (Next host) (app.adoption rid) w (.pure s) w₁ →
      s.status = .failed ∨ s.status = .blocked →
      Prog.Steps (Next host) (runReady host app.maxReadConcurrency s) w₁ (.throw e) w₂ →
      (∃ path earlier, w₂.log = .answered (.acquireProject path) (.error e) :: earlier) →
      w₂.dir.status? = some .failed ∨ w₂.dir.status? = some .blocked := by
  intro h
  obtain ⟨s, e, w, path, events, hadopted, hstatus, _, hbusy, hlog, hplanned⟩ := busy_run
  have hw := @Reachable.leased _ _ laxApplication failedWorld_reachable failedWorld_isRunId
  have hkept := h busyHost laxApplication (failedWorld.leased laxApplication.config)
    (resumedWorld s) w failedWorld.runId s e hw hadopted (.inl hstatus) hbusy ⟨path, _, hlog⟩
  rw [hplanned] at hkept
  rcases hkept with hkept | hkept <;> cases hkept

/-- What the refusal left behind, by the condition. -/
theorem busy_run_status : ∃ (s : RunState) (e : PyError) (w : World) (events : List Event),
    Prog.Steps (Next busyHost) (runReady busyHost laxApplication.maxReadConcurrency s)
      (resumedWorld s) (.throw e) w ∧
      (w.dir.status? = some .failed ∨ w.dir.status? = some .blocked ↔ s.WriterReady busyHost ∧
        ∀ path, Event.answered (.acquireProject path) (.ok ()) ∉ events) := by
  obtain ⟨s, e, w, path, events, _, hstatus, hdir, hbusy, hlog, _⟩ := busy_run
  exact ⟨s, e, w, events, hbusy, busy_status_iff (.inl hstatus) (.inl hdir) hbusy hlog⟩

end Sample

end GoalRouter
