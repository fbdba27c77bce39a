import GoalRouter.InstallTransaction

namespace GoalRouter
open Library
set_option autoImplicit true

/-- What stands under the owned names once the replacements have been made. -/
def replacedEntries (old : Target → Option Entry) (rs : List Replacement) (t : Target) :
    Option Entry :=
  match rs.find? fun r => r.target = t with
  | some r => some r.entry
  | none => old t

section Installing

variable {old new : Target → Option Entry} {w w₀ w' : InstallWorld}

/-- What the transaction takes for an existing target is one for `[ -e ]`. -/
def Present (old : Target → Option Entry) (σ : UndoJournal Target Entry) : Prop :=
  ∀ t, (.existing, t) ∈ σ.journal → entryExists (old t) = true

/-- Where the run may stop: the cleanup undoes what has been done, or the new version is there. -/
def Stoppable (old new : Target → Option Entry) (w : InstallWorld) : Prop :=
  (w.active = true ∧ UndoJournal.Recoverable old new w.files ∧ Present old w.files) ∨
    w.active = false ∧ ∀ t, w.files.current t = new t

/-- The targets that have been replaced so far. -/
structure Replacing (old new : Target → Option Entry) (done : List Target) (w : InstallWorld) :
    Prop where
  active : w.active = true
  files : UndoJournal.Replaced old new w.files
  present : Present old w.files
  keys : w.files.keys = done

/-- A command has touched no target, no backup and no journal. -/
structure SameFiles (w₀ w : InstallWorld) : Prop where
  files : w.files = w₀.files
  active : w.active = w₀.active

theorem SameFiles.refl (w : InstallWorld) : SameFiles w w := ⟨rfl, rfl⟩

theorem SameFiles.trans (h : SameFiles w₀ w) (h' : SameFiles w w') : SameFiles w₀ w' :=
  ⟨h'.files.trans h.files, h'.active.trans h.active⟩

theorem SameFiles.stoppable (h : SameFiles w₀ w) (hw : Stoppable old new w₀) :
    Stoppable old new w := by
  rw [Stoppable, h.files, h.active]
  exact hw

theorem SameFiles.replacing (h : SameFiles w₀ w) (hw : Replacing old new done w₀) :
    Replacing old new done w := by
  obtain ⟨hf, ha⟩ := h
  exact ⟨ha.trans hw.active, hf ▸ hw.files, hf ▸ hw.present, hf ▸ hw.keys⟩

theorem Replacing.stoppable (h : Replacing old new done w) : Stoppable old new w :=
  .inl ⟨h.active, h.files.recoverable, h.present⟩

theorem Present.record {σ : UndoJournal Target Entry} (h : Present old σ) {kind : UndoKind}
    (ht : kind = .existing → entryExists (old t) = true) : Present old (σ.record kind t) := by
  intro t' hm
  rcases UndoJournal.mem_record.1 hm with hm | ⟨hkind, rfl⟩
  · exact h t' hm
  · exact ht hkind.symm

/-- The commands that touch no target, no backup and no journal. -/
def InstallCall.staging : InstallCall → Bool
  | .copy _ (.temp _ _) | .chmod _ (.temp _ _) => true
  | .copy _ _ | .chmod _ _ | .record _ _ | .rename _ _ | .remove _ | .deactivate => false
  | _ => true

theorem InstallNext.sameFiles {r : Except Text (InstallVal c)} (h : InstallNext w c r w')
    (hc : c.staging = true) : SameFiles w w' := by
  cases h with
  | checked => exact .refl _
  | created => exact ⟨rfl, rfl⟩
  | emptied => exact .refl _
  | failed => exact .refl _
  | @miscopied _ _ p =>
    cases p with
    | temp => exact ⟨rfl, rfl⟩
    | _ => cases hc
  | performed h =>
    cases c with
    | copy source p =>
      cases p with
      | temp =>
        simp only [InstallCall.perform] at h
        split at h
        · cases h
          exact ⟨rfl, rfl⟩
        · cases h
      | _ => cases hc
    | chmod mode p =>
      cases p with
      | temp =>
        simp only [InstallCall.perform] at h
        split at h
        · cases h
          exact ⟨rfl, rfl⟩
        · cases h
      | _ => cases hc
    | record => cases hc
    | rename => cases hc
    | remove => cases hc
    | deactivate => cases hc
    | checkDirectory => cases h
    | mktemp => cases h
    | removeDirectories => cases h
    | _ =>
      cases h
      exact ⟨rfl, rfl⟩

/-- Run with nothing touched since `w₀`, the program leaves it so, whatever it comes to. -/
abbrev Stages (old new : Target → Option Entry) (w₀ : InstallWorld) (p : InstallProgram α)
    (Q : α → InstallWorld → Prop) (w : InstallWorld) : Prop :=
  p.Safe InstallNext (Stoppable old new) (fun a w' => SameFiles w₀ w' ∧ Q a w')
    (fun _ => Stoppable old new) w

theorem command_stages (hw₀ : Stoppable old new w₀) (hw : SameFiles w₀ w) (c : InstallCall)
    (hc : c.staging = true) :
    Stages old new w₀ (command c) (fun v w' => InstallNext w c (.ok v) w') w := by
  apply Prog.Safe.invoke
  intro r w' hn
  have hs := hw.trans (hn.sameFiles hc)
  refine ⟨hs.stoppable hw₀, ?_⟩
  cases r with
  | ok v => exact ⟨hs, hn⟩
  | error e => exact hs.stoppable hw₀

theorem require_stages (hw₀ : Stoppable old new w₀) (hw : SameFiles w₀ w) (condition : Bool)
    (message : Text) :
    Stages old new w₀ (require condition message) (fun _ w' => condition = true ∧ w' = w) w := by
  cases condition with
  | true => exact ⟨hw, rfl, rfl⟩
  | false => exact hw.stoppable hw₀

theorem look_answer {v : Option Entry} (h : InstallNext w (.look p) (.ok v) w') :
    v = w.entry p ∧ w' = w := by
  cases h with
  | performed h =>
    cases h
    exact ⟨rfl, rfl⟩

theorem copy_answer (h : InstallNext w (.copy source (.temp t suffix)) (.ok ()) w') :
    ∃ mode, w'.temps t suffix = some (.file ⟨source, mode⟩) := by
  cases h with
  | performed h =>
    simp only [InstallCall.perform] at h
    split at h
    · rename_i f _
      cases h
      exact ⟨f.mode, by simp [InstallWorld.put]⟩
    · cases h

theorem chmod_answer (h : InstallNext w (.chmod mode (.temp t suffix)) (.ok ()) w')
    (hw : w.temps t suffix = some (.file ⟨source, mode'⟩)) :
    w'.temps t suffix = some (.file ⟨source, mode⟩) := by
  cases h with
  | performed h =>
    simp only [InstallCall.perform, InstallWorld.entry, hw] at h
    cases h
    simp [InstallWorld.put]

variable {i : Installation} {r : Replacement}

/-- What is known when the replacement has been staged. -/
structure Staged (w : InstallWorld) (r : Replacement) (suffix : Nat) : Prop where
  temp : w.temps r.target suffix = some r.entry
  backup : w.files.saved r.target = none
  target : isLink (w.files.current r.target) = false

theorem not_entry (h : (!entryExists e && !isLink e) = true) : e = none := by
  cases e with
  | none => rfl
  | some e => cases e <;> simp [entryExists, isLink] at h

theorem regular_some (h : isRegular e = true) : ∃ e', e = some e' := by
  cases e with
  | none => cases h
  | some e' => exact ⟨e', rfl⟩

theorem stageReplacement_stages (hI : Stoppable old new w) :
    Stages old new w (stageReplacement i r) (fun suffix w' => Staged w' r suffix) w := by
  unfold stageReplacement
  apply ((command_stages hI (.refl w) (.mktemp r.target) rfl).orThrow fun _ _ h => h).bind
  intro suffix w₁ ⟨hs₁, _⟩
  apply (command_stages hI hs₁ (.recordTemp r.target suffix) rfl).bind
  intro _ w₂ ⟨hs₂, _⟩
  apply (command_stages hI hs₂ (.look (.temp r.target suffix)) rfl).bind
  intro temp w₃ ⟨hs₃, _⟩
  apply (require_stages hI hs₃ _ _).bind
  intro _ _ ⟨_, _, hw⟩
  cases hw
  apply (command_stages hI hs₃ (.look (.backup r.target)) rfl).bind
  intro backup w₄ ⟨hs₄, hlook₄⟩
  apply (require_stages hI hs₄ _ _).bind
  intro _ _ ⟨_, hbackup, hw⟩
  cases hw
  apply (command_stages hI hs₄ (.look (.target r.target)) rfl).bind
  intro target w₅ ⟨hs₅, hlook₅⟩
  apply (require_stages hI hs₅ _ _).bind
  intro _ _ ⟨_, htarget, hw⟩
  cases hw
  apply ((command_stages hI hs₅ (.copy r.source (.temp r.target suffix)) rfl).orThrow
    fun _ _ h => h).bind
  intro _ w₆ ⟨hs₆, hcopy⟩
  apply ((command_stages hI hs₆ (.chmod r.mode (.temp r.target suffix)) rfl).orThrow
    fun _ _ h => h).bind
  intro _ w₇ ⟨hs₇, hchmod⟩
  obtain ⟨mode, hcopied⟩ := copy_answer hcopy
  obtain ⟨rfl, _⟩ := look_answer hlook₄
  obtain ⟨rfl, _⟩ := look_answer hlook₅
  refine ⟨hs₇, chmod_answer hchmod hcopied, ?_, ?_⟩
  · rw [hs₇.files, ← hs₃.files]
    exact not_entry hbackup
  · rw [hs₇.files, ← hs₄.files]
    simpa [InstallWorld.entry] using htarget

theorem record_safe {Q : Unit → InstallWorld → Prop} (hw : Stoppable old new w)
    (hI : Stoppable old new { w with files := w.files.record kind t })
    (hQ : Q () { w with files := w.files.record kind t }) :
    (command (.record kind t)).Safe InstallNext (Stoppable old new) Q
      (fun _ => Stoppable old new) w := by
  apply Prog.Safe.invoke
  intro r w' hn
  cases hn with
  | performed h =>
    cases h
    exact ⟨hI, hQ⟩
  | failed => exact ⟨hw, hw⟩

theorem rename_safe {Q : Unit → InstallWorld → Prop} {p q : InstallPath}
    (hw : Stoppable old new w) (hp : w.entry p = some e)
    (hI : Stoppable old new ((w.put p none).put q (some e)))
    (hQ : Q () ((w.put p none).put q (some e))) :
    (command (.rename p q)).Safe InstallNext (Stoppable old new) Q
      (fun _ => Stoppable old new) w := by
  apply Prog.Safe.invoke
  intro r w' hn
  cases hn with
  | performed h =>
    simp only [InstallCall.perform, hp] at h
    cases h
    exact ⟨hI, hQ⟩
  | failed => exact ⟨hw, hw⟩

/-- The target has been recorded, and moved aside if it was there. -/
def BackedUp (old new : Target → Option Entry) (t : Target) (w w' : InstallWorld) : Prop :=
  w'.active = true ∧ w'.temps = w.temps ∧ ∃ kind v,
    UndoJournal.Recoverable old new w'.files ∧ Present old (w.files.record kind t) ∧
      w'.files.journal = (w.files.record kind t).journal ∧
      w'.files.put t (new t) = ((w.files.record kind t).keep t v).put t (new t) ∧
      match kind with
      | .existing => v = old t ∧ (old t).isSome = true
      | .new => v = none ∧ old t = none

theorem backUpTarget_safe {t : Target} (h : Replacing old new done w) (hk : t ∉ done)
    (hb : w.files.saved t = none) (hl : isLink (w.files.current t) = false) :
    (backUpTarget i t).Safe InstallNext (Stoppable old new)
      (fun _ w' => BackedUp old new t w w') (fun _ => Stoppable old new) w := by
  have hI := h.stoppable
  have hold : w.files.current t = old t := h.files.untouched t (h.keys ▸ hk)
  unfold backUpTarget
  apply (command_stages hI (.refl w) (.look (.target t)) rfl).bind
  intro target w₁ ⟨_, hlook⟩
  obtain ⟨rfl, rfl⟩ := look_answer hlook
  have hkeys : t ∉ w₁.files.keys := h.keys ▸ hk
  by_cases hexists : entryExists (w₁.entry (.target t)) = true
  · rw [if_pos hexists]
    apply (require_stages hI (.refl w₁) _ _).bind
    intro _ _ ⟨_, hregular, hw⟩
    cases hw
    obtain ⟨e, he⟩ := regular_some hregular
    have ho : old t = some e := hold ▸ he
    have hsome : (old t).isSome = true := by rw [ho]; rfl
    have hrecorded := h.files.record_existing hkeys hsome none (old t) (.inl ⟨rfl, rfl⟩)
    have hcurrent : (w₁.files.record .existing t).current t = old t := hold
    have hsaved : (w₁.files.record .existing t).saved t = none := hb
    rw [UndoJournal.put_eq_self hcurrent, UndoJournal.keep_eq_self hsaved] at hrecorded
    have hpresent : Present old (w₁.files.record .existing t) :=
      h.present.record fun _ => hold ▸ hexists
    have hstop : Stoppable old new { w₁ with files := w₁.files.record .existing t } :=
      .inl ⟨h.active, hrecorded, hpresent⟩
    apply Prog.Safe.bind (Q := fun _ w => w = { w₁ with files := w₁.files.record .existing t })
    · exact record_safe hI hstop rfl
    intro _ w₂ hw
    have hentry : w₂.entry (.target t) = some e := hw ▸ he
    have hmoved := h.files.record_existing hkeys hsome (some e) none (.inr ho.symm)
    have hstop' : Stoppable old new ((w₂.put (.target t) none).put (.backup t) (some e)) := by
      subst hw
      exact .inl ⟨h.active, hmoved, hpresent⟩
    apply Prog.Safe.orThrow (R := fun _ => Stoppable old new)
    · apply rename_safe (hw ▸ hstop) hentry hstop'
      subst hw
      exact ⟨h.active, rfl, .existing, some e, hmoved, hpresent, rfl,
        UndoJournal.put_keep_put _ _ _ _ _, ho.symm, hsome⟩
    · exact fun _ _ h => h
  · rw [if_neg hexists]
    have ho : old t = none := by
      rw [← hold]
      apply not_entry
      simpa [InstallWorld.entry, hl] using hexists
    have hrecorded := h.files.record_new hkeys ho hb
    have hpresent : Present old (w₁.files.record .new t) := h.present.record (by intro hk; cases hk)
    apply record_safe hI (.inl ⟨h.active, hrecorded, hpresent⟩)
    refine ⟨h.active, rfl, .new, none, hrecorded, hpresent, rfl, ?_, rfl, ho⟩
    have hs : (w₁.files.record .new t).saved t = none := hb
    rw [UndoJournal.keep_eq_self hs]

theorem replaceOwned_safe (h : Replacing old new done w) (hk : r.target ∉ done)
    (hn : new r.target = some r.entry) :
    (replaceOwned i r).Safe InstallNext (Stoppable old new)
      (fun _ w' => Replacing old new (done ++ [r.target]) w') (fun _ => Stoppable old new) w := by
  unfold replaceOwned
  apply (stageReplacement_stages h.stoppable).bind
  intro suffix w₁ ⟨hs₁, hstaged⟩
  have h₁ := hs₁.replacing h
  apply (backUpTarget_safe h₁ hk hstaged.backup hstaged.target).bind
  intro _ w₂ ⟨hactive, htemps, kind, v, hrecoverable, hpresent, hjournal, hput, hv⟩
  have htemp : w₂.temps r.target suffix = some r.entry := htemps ▸ hstaged.temp
  have hreplaced := h₁.files.replace (h₁.keys ▸ hk) kind v hv
  have hfiles : ((w₂.put (.temp r.target suffix) none).put (.target r.target)
      (some r.entry)).files =
        ((w₁.files.record kind r.target).keep r.target v).put r.target (new r.target) := by
    rw [← hput, hn]
    rfl
  have hdone : Replacing old new (done ++ [r.target])
      ((w₂.put (.temp r.target suffix) none).put (.target r.target) (some r.entry)) := by
    refine ⟨hactive, ?_, ?_, ?_⟩
    · rw [hfiles]
      exact hreplaced
    · rw [hfiles]
      exact hpresent
    · rw [hfiles, ← h₁.keys]
      exact UndoJournal.keys_record _ _ _
  have hstop : Stoppable old new w₂ := by
    refine .inl ⟨hactive, hrecoverable, ?_⟩
    rw [Present, hjournal]
    exact hpresent
  exact (rename_safe (p := .temp r.target suffix) (q := .target r.target) hstop htemp
    hdone.stoppable hdone).orThrow fun _ _ h => h

theorem replaceAll_safe {rs : List Replacement} (h : Replacing old new done w)
    (hd : (done ++ rs.map Replacement.target).Nodup)
    (hn : ∀ r ∈ rs, new r.target = some r.entry) :
    (replaceAll i rs).Safe InstallNext (Stoppable old new)
      (fun _ w' => Replacing old new (done ++ rs.map Replacement.target) w')
      (fun _ => Stoppable old new) w := by
  induction rs generalizing done w with
  | nil =>
    rw [List.map_nil, List.append_nil]
    exact h
  | cons r rs ih =>
    have he : done ++ (r :: rs).map Replacement.target =
        (done ++ [r.target]) ++ rs.map Replacement.target := by simp
    rw [he] at hd ⊢
    have hk : r.target ∉ done := by
      have hd' := (List.nodup_append.1 hd).1
      intro hm
      exact (List.nodup_append.1 hd').2.2 _ hm _ List.mem_cons_self rfl
    apply (replaceOwned_safe h hk (hn r List.mem_cons_self)).bind
    intro _ w₁ h₁
    exact ih h₁ hd fun r' hr => hn r' (List.mem_cons_of_mem r hr)

theorem checkOwnedDirectory_stages (hI : Stoppable old new w₀) (hw : SameFiles w₀ w)
    (place : Place) :
    Stages old new w₀ (checkOwnedDirectory place) (fun _ _ => True) w := by
  unfold checkOwnedDirectory
  apply (command_stages hI hw (.checkDirectory place) rfl).bind
  intro there w₁ ⟨hs₁, _⟩
  apply (require_stages hI hs₁ _ _).bind
  intro _ _ ⟨hs₁, _, _⟩
  apply (command_stages hI hs₁ (.checkDirectory place) rfl).bind
  intro owned w₂ ⟨hs₂, _⟩
  apply (require_stages hI hs₂ _ _).bind
  intro _ _ ⟨hs₂, _, _⟩
  apply (command_stages hI hs₂ (.checkDirectory place) rfl).bind
  intro closed w₃ ⟨hs₃, _⟩
  apply (require_stages hI hs₃ _ _).mono
  · exact fun _ _ ⟨hs, _⟩ => ⟨hs, trivial⟩
  · exact fun _ _ h => h

theorem prepareDirectories_stages (hI : Stoppable old new w) :
    Stages old new w prepareDirectories (fun _ _ => True) w := by
  unfold prepareDirectories
  apply (command_stages hI (.refl w) .makeDirectories rfl).bind
  intro _ w₁ ⟨hs₁, _⟩
  apply (checkOwnedDirectory_stages hI hs₁ .bin).bind
  intro _ w₂ ⟨hs₂, _⟩
  apply (checkOwnedDirectory_stages hI hs₂ .config).bind
  intro _ w₃ ⟨hs₃, _⟩
  apply (checkOwnedDirectory_stages hI hs₃ .state).bind
  intro _ w₄ ⟨hs₄, _⟩
  exact checkOwnedDirectory_stages hI hs₄ .control

/-- The removal of backups, of which each is a step that may be the last. -/
theorem commitAll_safe {entries : List (UndoKind × Target)} (h : Replacing old new done w)
    (he : ∀ e ∈ entries, e ∈ w.files.journal) :
    (commitAll entries).Safe InstallNext (Stoppable old new)
      (fun _ w' => Replacing old new done w') (fun _ => Stoppable old new) w := by
  induction entries generalizing w with
  | nil => exact h
  | cons e entries ih =>
    obtain ⟨kind, t⟩ := e
    have hdiscard : Replacing old new done { w with files := w.files.discard t } := by
      refine ⟨h.active, h.files.discard (he _ List.mem_cons_self), ?_, ?_⟩
      · rw [Present, UndoJournal.journal_discard]
        exact h.present
      · rw [UndoJournal.keys_discard, h.keys]
    apply Prog.Safe.bind (Q := fun _ w' => Replacing old new done w' ∧
      w'.files.journal = w.files.journal)
    · apply Prog.Safe.invoke
      intro r w' hn
      cases hn with
      | performed hp =>
        cases hp
        exact ⟨hdiscard.stoppable, hdiscard, UndoJournal.journal_discard _ _⟩
      | failed => exact ⟨h.stoppable, h.stoppable⟩
    · intro _ w' ⟨h', hj⟩
      exact ih h' fun e hm => hj ▸ he e (List.mem_cons_of_mem _ hm)

variable {release : Release} {resetConfig skipDoctor : Bool}

theorem runDoctor_stages (hI : Stoppable old new w) :
    Stages old new w (runDoctor skipDoctor) (fun _ _ => True) w := by
  unfold runDoctor
  cases skipDoctor with
  | true => exact ⟨.refl w, trivial⟩
  | false =>
    apply Prog.Safe.orThrow _ fun _ _ h => h
    apply (command_stages hI (.refl w) .doctor rfl).mono
    · exact fun _ _ ⟨hs, _⟩ => ⟨hs, trivial⟩
    · exact fun _ _ h => h

/-- The replacement of the configuration, if there is to be one. -/
def configReplacements (release : Release) (resetConfig : Bool) (config : Option Entry) :
    List Replacement :=
  if !entryExists config || resetConfig then [configReplacement release] else []

theorem replaceConfig_safe (h : Replacing old new done w) (hk : configTarget ∉ done)
    (hn : ∀ r ∈ configReplacements release resetConfig (old configTarget),
      new r.target = some r.entry) :
    (replaceConfig i release resetConfig).Safe InstallNext (Stoppable old new)
      (fun _ w' => Replacing old new (done ++
        (configReplacements release resetConfig (old configTarget)).map Replacement.target) w')
      (fun _ => Stoppable old new) w := by
  unfold replaceConfig
  apply (command_stages h.stoppable (.refl w) (.look (.target configTarget)) rfl).bind
  intro config w₁ ⟨_, hlook⟩
  obtain ⟨rfl, rfl⟩ := look_answer hlook
  have hold : w₁.entry (.target configTarget) = old configTarget :=
    h.files.untouched _ (h.keys ▸ hk)
  rw [hold]
  unfold configReplacements at hn ⊢
  by_cases hc : (!entryExists (old configTarget) || resetConfig) = true
  · rw [if_pos hc] at hn ⊢
    rw [if_pos hc]
    exact replaceOwned_safe h hk (hn _ List.mem_cons_self)
  · rw [if_neg hc, if_neg hc, List.map_nil, List.append_nil]
    exact h

end Installing

def metadataTargets : List Target :=
  (fieldNames ++ [manifestName, text "install.json"]).flatMap fun name =>
    [⟨.control, name⟩, ⟨.state, name⟩]

theorem metadataReplacements_targets (i : Installation) (release : Release) :
    (metadataReplacements i release).map Replacement.target = metadataTargets := by
  rw [metadataTargets, ← i.metadata_names release.sha256, List.flatMap_map, metadataReplacements,
    List.map_flatMap]
  rfl

theorem replacements_nodup (i : Installation) (release : Release) (resetConfig : Bool)
    (config : Option Entry) :
    ((replacements i release resetConfig config).map Replacement.target).Nodup := by
  have hall : ((firstReplacements release).map Replacement.target ++ [configTarget] ++
      metadataTargets).Nodup := by
    have hfirst : (firstReplacements release).map Replacement.target =
        (firstReplacements ⟨[], [], [], [], id⟩).map Replacement.target := rfl
    rw [hfirst]
    decide +kernel
  rw [replacements, List.map_append, List.map_append, metadataReplacements_targets]
  apply List.Nodup.sublist _ hall
  apply List.Sublist.append_right
  apply List.Sublist.append_left
  split
  · exact .refl _
  · exact List.nil_sublist _

theorem replacedEntries_mem {rs : List Replacement} (hn : (rs.map Replacement.target).Nodup)
    (hr : r ∈ rs) (old : Target → Option Entry) :
    replacedEntries old rs r.target = some r.entry := by
  have hf : rs.find? (fun r' => r'.target = r.target) = some r := by
    induction rs with
    | nil => cases hr
    | cons r' rs ih =>
      obtain ⟨hne, hn⟩ := List.nodup_cons.1 hn
      rcases List.mem_cons.1 hr with rfl | hr
      · exact List.find?_cons_of_pos (decide_eq_true rfl)
      · have ht : ¬decide (r'.target = r.target) = true := by
          rw [decide_eq_true_eq]
          exact fun he => hne (he ▸ List.mem_map_of_mem hr)
        exact (List.find?_cons_of_neg (p := fun r' : Replacement => r'.target = r.target) ht).trans
          (ih hn hr)
  rw [replacedEntries, hf]

theorem replacedEntries_not_mem {rs : List Replacement} {t : Target}
    (ht : t ∉ rs.map Replacement.target) (old : Target → Option Entry) :
    replacedEntries old rs t = old t := by
  have hf : rs.find? (fun r' => r'.target = t) = none := by
    apply List.find?_eq_none.2
    intro r hr
    simp only [decide_eq_true_eq]
    exact fun he => ht (he ▸ List.mem_map_of_mem hr)
  rw [replacedEntries, hf]

section Installing

variable {old new : Target → Option Entry} {w w₀ w' : InstallWorld}
  {i : Installation} {release : Release} {resetConfig skipDoctor : Bool}

/-- The rest of the transaction, once everything has been replaced. -/
theorem commit_safe (h : Replacing old new done w) (ho : ∀ t, t ∉ done → old t = new t) :
    (do
      let entries : List (UndoKind × Target) ← command .readJournal
      commitAll entries
      command .deactivate
      command .other : InstallProgram Unit).Safe InstallNext (Stoppable old new)
      (fun _ => Stoppable old new) (fun _ => Stoppable old new) w := by
  apply Prog.Safe.bind (Q := fun v w' => w' = w ∧ v = w.files.journal)
  · apply Prog.Safe.invoke
    intro r w' hn
    cases hn with
    | performed hp =>
      cases hp
      exact ⟨h.stoppable, rfl, rfl⟩
    | failed => exact ⟨h.stoppable, h.stoppable⟩
  intro entries w₁ ⟨hw, he⟩
  subst hw he
  apply (commitAll_safe h fun _ hm => hm).bind
  intro _ w₂ h₂
  have hnew : Stoppable old new { w₂ with active := false } := by
    refine .inr ⟨rfl, fun t => ?_⟩
    by_cases ht : t ∈ w₂.files.keys
    · exact h₂.files.replaced t ht
    · exact (h₂.files.untouched t ht).trans (ho t (h₂.keys ▸ ht))
  apply Prog.Safe.bind (Q := fun _ => Stoppable old new)
  · apply Prog.Safe.invoke
    intro r w' hn
    cases hn with
    | performed hp =>
      cases hp
      exact ⟨hnew, hnew⟩
    | failed => exact ⟨h₂.stoppable, h₂.stoppable⟩
  · intro _ w₃ h₃
    apply (command_stages h₃ (.refl w₃) .other rfl).mono
    · exact fun _ _ ⟨hs, _⟩ => hs.stoppable h₃
    · exact fun _ _ h => h

/-- Wherever the transaction is, it may stop. -/
theorem installTransaction_safe (old backups : Target → Option Entry)
    (temps : Target → Nat → Option Entry) :
    let new := replacedEntries old (replacements i release resetConfig (old configTarget))
    (installTransaction i release resetConfig skipDoctor).Safe InstallNext (Stoppable old new)
      (fun _ => Stoppable old new) (fun _ => Stoppable old new) (.begin old backups temps) := by
  intro new
  have hnodup := replacements_nodup i release resetConfig (old configTarget)
  have hn (r : Replacement) (hr : r ∈ replacements i release resetConfig (old configTarget)) :
      new r.target = some r.entry :=
    replacedEntries_mem hnodup hr old
  have hbegin : Replacing old new [] (.begin old backups temps) :=
    ⟨rfl, UndoJournal.replaced_start old backups, fun _ hm => absurd hm List.not_mem_nil, rfl⟩
  have hsplit : replacements i release resetConfig (old configTarget) =
      firstReplacements release ++ configReplacements release resetConfig (old configTarget) ++
        metadataReplacements i release := rfl
  rw [hsplit, List.map_append, List.map_append] at hnodup
  rw [hsplit] at hn
  unfold installTransaction
  apply (prepareDirectories_stages hbegin.stoppable).bind
  intro _ w₁ ⟨hs₁, _⟩
  have h₁ := hs₁.replacing hbegin
  have hfirst : ([] ++ (firstReplacements release).map Replacement.target).Nodup :=
    (List.nodup_append.1 (List.nodup_append.1 hnodup).1).1
  apply (replaceAll_safe h₁ hfirst fun r hr =>
    hn r (List.mem_append_left _ (List.mem_append_left _ hr))).bind
  intro _ w₂ h₂
  have hconfig : configTarget ∉ (firstReplacements release).map Replacement.target := by
    have hclosed : (firstReplacements release).map Replacement.target =
        (firstReplacements ⟨[], [], [], [], id⟩).map Replacement.target := rfl
    rw [hclosed]
    decide +kernel
  apply (replaceConfig_safe h₂ hconfig fun r hr =>
    hn r (List.mem_append_left _ (List.mem_append_right _ hr))).bind
  intro _ w₃ h₃
  apply (replaceAll_safe h₃ hnodup fun r hr => hn r (List.mem_append_right _ hr)).bind
  intro _ w₄ h₄
  apply (runDoctor_stages h₄.stoppable).bind
  intro _ w₅ ⟨hs₅, _⟩
  apply commit_safe (hs₅.replacing h₄)
  intro t ht
  apply (replacedEntries_not_mem _ old).symm
  rw [hsplit, List.map_append, List.map_append]
  exact ht

end Installing

section Cleanup

variable {old new : Target → Option Entry} {w w' : InstallWorld}

/-- A part of the cleanup that ends without an error, and what it comes to. -/
abbrev Ends (p : InstallProgram α) (Q : α → InstallWorld → Prop) (w : InstallWorld) : Prop :=
  p.Safe Mending (fun _ => True) Q (fun _ _ => False) w

theorem command_ends {Q : InstallVal c → InstallWorld → Prop} (hc : c.dispensable w = false)
    (h : ∀ v w', InstallNext w c (.ok v) w' → Q v w') : Ends (command c) Q w := by
  apply Prog.Safe.invoke
  intro r w' ⟨hn, hr⟩
  obtain ⟨v, rfl⟩ := hr hc
  exact ⟨trivial, h v w' hn⟩

theorem regardless_ends {Q : Unit → InstallWorld → Prop}
    (h : ∀ r w', Mending w c r w' → Q () w') : Ends (regardless c) Q w := by
  have hcommand : (command c).Safe Mending (fun _ => True) (fun _ w' => Q () w')
      (fun _ w' => Q () w') w := by
    apply Prog.Safe.invoke
    intro r w' hm
    refine ⟨trivial, ?_⟩
    cases r <;> exact h _ w' hm
  apply hcommand.attempt_bind
  intro r w' hr
  cases r <;> exact hr

theorem look_ends (w : InstallWorld) (p : InstallPath) :
    Ends (command (.look p)) (fun v w' => v = w.entry p ∧ w' = w) w :=
  command_ends rfl fun _ _ hn => look_answer hn

/-- A file is removed, or the removal fails where that does not matter. -/
theorem remove_ends (w : InstallWorld) (p : InstallPath) :
    Ends (regardless (.remove p)) (fun _ w' => w' = w.remove p ∨
      w' = w ∧ (InstallCall.remove p).dispensable w = true) w := by
  apply regardless_ends
  rintro r w' ⟨hn, hr⟩
  cases hn with
  | performed h =>
    cases h
    exact .inl rfl
  | failed =>
    refine .inr ⟨rfl, ?_⟩
    by_contra hd
    obtain ⟨_, hv⟩ := hr (Bool.not_eq_true _ ▸ hd)
    cases hv

theorem rename_ends {p q : InstallPath} (hp : w.entry p = some e) :
    Ends (regardless (.rename p q)) (fun _ w' => w' = (w.put p none).put q (some e)) w := by
  apply regardless_ends
  rintro r w' ⟨hn, hr⟩
  obtain ⟨v, rfl⟩ := hr rfl
  cases hn with
  | performed h =>
    simp only [InstallCall.perform, hp] at h
    cases h
    rfl

theorem removeTemps_ends (temps : List (Target × Nat)) :
    Ends (removeTemps temps) (fun _ w' => SameFiles w w') w := by
  induction temps generalizing w with
  | nil => exact .refl w
  | cons temp temps ih =>
    obtain ⟨t, suffix⟩ := temp
    apply (remove_ends w (.temp t suffix)).bind
    rintro _ w₁ hw
    have hsame : SameFiles w w₁ := by
      rcases hw with rfl | ⟨rfl, _⟩
      · exact ⟨rfl, rfl⟩
      · exact .refl _
    exact ih.mono (fun _ _ hs => hsame.trans hs) fun _ _ h => h

/-- One entry has been undone, and all other targets are as they were. -/
structure Restored (w : InstallWorld) (kind : UndoKind) (t : Target) (w' : InstallWorld) :
    Prop where
  undone : w'.files.current t = w.files.undone [(kind, t)] t
  current : ∀ t', t' ≠ t → w'.files.current t' = w.files.current t'
  saved : ∀ t', t' ≠ t → w'.files.saved t' = w.files.saved t'

theorem restore_ends {kind : UndoKind} {t : Target}
    (hp : kind = .existing → (w.files.saved t).isSome = true →
      entryExists (w.files.saved t) = true) (hb : kind = .new → w.files.saved t = none) :
    Ends (restore kind t) (fun _ w' => Restored w kind t w') w := by
  unfold restore
  apply (look_ends w (.backup t)).bind
  intro backup w₁ ⟨hb, hw⟩
  subst hb hw
  cases kind with
  | existing =>
    by_cases hexists : entryExists (w₁.entry (.backup t)) = true
    · rw [if_pos ⟨rfl, hexists⟩]
      obtain ⟨e, he⟩ : ∃ e, w₁.files.saved t = some e := by
        cases hs : w₁.files.saved t with
        | none =>
          simp only [InstallWorld.entry, hs] at hexists
          cases hexists
        | some e => exact ⟨e, rfl⟩
      apply (remove_ends w₁ (.target t)).bind
      intro _ w₂ hw
      have hentry : w₂.entry (.backup t) = some e := by
        rcases hw with rfl | ⟨rfl, _⟩ <;> exact he
      apply (rename_ends (q := .target t) hentry).mono
      · rintro _ w₃ rfl
        refine ⟨?_, fun t' hne => ?_, fun t' hne => ?_⟩
        · simp [InstallWorld.put, UndoJournal.put, UndoJournal.keep, UndoJournal.undone, he]
        · rcases hw with rfl | ⟨rfl, _⟩ <;>
            simp [InstallWorld.put, InstallWorld.remove, UndoJournal.put, UndoJournal.keep, hne]
        · rcases hw with rfl | ⟨rfl, _⟩ <;>
            simp [InstallWorld.put, InstallWorld.remove, UndoJournal.put, UndoJournal.keep, hne]
      · exact fun _ _ h => h
    · have hc : ¬(UndoKind.existing = .existing ∧ entryExists (w₁.entry (.backup t)) = true) :=
        fun hc => hexists hc.2
      have hk : ¬UndoKind.existing = .new := by intro hk; cases hk
      rw [if_neg hc, if_neg hk]
      refine ⟨?_, fun _ _ => rfl, fun _ _ => rfl⟩
      have hs : ¬(w₁.files.saved t).isSome = true := fun hs => hexists (hp rfl hs)
      simp [UndoJournal.undone, hs]
  | new =>
    have hc : ¬(UndoKind.new = .existing ∧ entryExists (w₁.entry (.backup t)) = true) := by
      intro hc
      cases hc.1
    rw [if_neg hc, if_pos rfl]
    have hneeded : (InstallCall.remove (.target t)).dispensable w₁ = false := by
      simp only [InstallCall.dispensable, InstallWorld.entry, hb rfl, entryExists]
    apply (remove_ends w₁ (.target t)).mono
    · rintro _ w₂ (rfl | ⟨rfl, hd⟩)
      · refine ⟨?_, fun t' hne => ?_, fun _ _ => rfl⟩
        · simp [InstallWorld.remove, InstallWorld.put, UndoJournal.put, UndoJournal.undone]
        · exact Function.update_of_ne hne _ _
      · rw [hneeded] at hd
        cases hd
    · exact fun _ _ h => h

/-- The loop over the journal comes to what undoing its entries does. -/
theorem restoreAll_ends {entries : List (UndoKind × Target)}
    (hn : (entries.map Prod.snd).Nodup)
    (hp : ∀ t, (.existing, t) ∈ entries → (w.files.saved t).isSome = true →
      entryExists (w.files.saved t) = true)
    (hb : ∀ t, (.new, t) ∈ entries → w.files.saved t = none) :
    Ends (restoreAll entries) (fun _ w' => ∀ t, w'.files.current t = w.files.undone entries t)
      w := by
  induction entries generalizing w with
  | nil => exact fun _ => rfl
  | cons entry entries ih =>
    obtain ⟨kind, t⟩ := entry
    obtain ⟨hne, hn⟩ := List.nodup_cons.1 hn
    have hother {w₁ : InstallWorld} (h₁ : Restored w kind t w₁) {kind' : UndoKind} {t' : Target}
        (hm : (kind', t') ∈ entries) : w₁.files.saved t' = w.files.saved t' := by
      have hkey : t' ∈ entries.map Prod.snd := List.mem_map_of_mem hm
      exact h₁.saved t' fun ht => hne (ht ▸ hkey)
    apply (restore_ends (t := t) (fun hk => hp t (hk ▸ List.mem_cons_self))
      fun hk => hb t (hk ▸ List.mem_cons_self)).bind
    intro _ w₁ h₁
    apply (ih hn (fun t' hm => ?_) fun t' hm => ?_).mono
    · intro _ w₂ h₂ t'
      rw [h₂ t']
      by_cases ht : t' = t
      · subst ht
        rw [UndoJournal.undone_of_not_mem hne, h₁.undone]
        exact (UndoJournal.undone_cons_self _ _ _ _).symm
      · rw [UndoJournal.undone_cons_ne ht]
        exact UndoJournal.undone_congr (h₁.current t' ht) (h₁.saved t' ht) _
    · exact fun _ _ h => h
    · rw [hother h₁ hm]
      exact hp t' (List.mem_cons_of_mem _ hm)
    · rw [hother h₁ hm]
      exact hb t' (List.mem_cons_of_mem _ hm)

theorem rollbackTransaction_ends (hn : w.files.keys.Nodup)
    (hp : ∀ t, (.existing, t) ∈ w.files.journal → (w.files.saved t).isSome = true →
      entryExists (w.files.saved t) = true)
    (hb : ∀ t, (.new, t) ∈ w.files.journal → w.files.saved t = none) :
    Ends rollbackTransaction
      (fun _ w' => ∀ t, w'.files.current t = w.files.undone w.files.journal t) w := by
  unfold rollbackTransaction
  apply Prog.Safe.bind (Q := fun _ w' => SameFiles w w')
  · apply command_ends rfl
    intro v w' hn
    exact hn.sameFiles rfl
  intro temps w₁ hs₁
  apply (removeTemps_ends (w := w₁) temps).bind
  intro _ w₂ hs₂
  have hs := hs₁.trans hs₂
  apply Prog.Safe.bind (Q := fun v w' => v = w.files.journal ∧ SameFiles w w')
  · apply command_ends rfl
    intro v w' hn
    have hs' := hs.trans (hn.sameFiles rfl)
    cases hn with
    | performed h =>
      cases h
      exact ⟨by rw [hs.files], hs'⟩
  intro entries w₃ ⟨he, hs₃⟩
  subst he
  rw [← hs₃.files] at hp hb
  apply (restoreAll_ends hn (hs₃.files ▸ hp) (hs₃.files ▸ hb)).bind
  intro _ w₄ h₄
  apply regardless_ends
  rintro r w' ⟨hn, _⟩ t
  rw [(hn.sameFiles rfl).files, h₄ t, hs₃.files]

/-- What the cleanup leaves under a target. -/
theorem cleanup_ends (h : Stoppable old new w) :
    let left := fun w' : InstallWorld => ∀ t, w'.files.current t =
      if w.active = true ∧ t ∉ w.files.discarded then old t else new t
    cleanup.Safe Mending (fun _ => True) (fun _ => left) (fun _ => left) w := by
  intro left
  unfold cleanup
  have hactive : Ends (command .isActive) (fun v w' => v = w.active ∧ w' = w) w := by
    apply command_ends rfl
    intro v w' hn
    cases hn with
    | performed hp =>
      cases hp
      exact ⟨rfl, rfl⟩
  apply (hactive.mono (fun _ _ h => h) fun _ _ h => h.elim).bind
  rintro active w₁ ⟨rfl, rfl⟩
  have hother {w₂ : InstallWorld} (v : Unit) (h₂ : left w₂) :
      (command .other).Safe Mending (fun _ => True) (fun _ => left) (fun _ => left) w₂ := by
    apply Prog.Safe.invoke
    rintro r w' ⟨hn, _⟩
    have hl : left w' := by
      intro t
      rw [(hn.sameFiles rfl).files]
      exact h₂ t
    cases r <;> exact ⟨trivial, hl⟩
  rcases h with ⟨hactive, hrecoverable, hpresent⟩ | ⟨hactive, hnew⟩
  · rw [if_pos hactive]
    have hbackup (t : Target) (hm : (.existing, t) ∈ w₁.files.journal)
        (hs : (w₁.files.saved t).isSome = true) : entryExists (w₁.files.saved t) = true := by
      -- A backup that is there is the file that was there before.
      by_cases ht : t ∈ w₁.files.discarded
      · rw [(hrecoverable.discarded t ht).2.1] at hs
        cases hs
      · rcases hrecoverable.existing t hm ht with ⟨hsaved, _⟩ | ⟨hsaved, _⟩
        · rw [hsaved]
          exact hpresent t hm
        · rw [hsaved] at hs
          cases hs
    have hrollback := rollbackTransaction_ends hrecoverable.nodup hbackup
      fun t hm => (hrecoverable.fresh t hm).2
    apply (hrollback.mono (fun _ _ h => h) fun _ _ h => h.elim).bind
    intro _ w₂ h₂
    apply hother ()
    intro t
    rw [h₂ t, hrecoverable.undone t]
    by_cases ht : t ∈ w₁.files.discarded
    · rw [if_pos ht, if_neg fun hc => hc.2 ht]
    · rw [if_neg ht, if_pos ⟨hactive, ht⟩]
  · have hfalse : ¬w₁.active = true := by simp [hactive]
    rw [if_neg hfalse]
    apply hother ()
    intro t
    rw [if_neg fun hc => hfalse hc.1]
    exact hnew t

end Cleanup

variable {i : Installation} {release : Release} {resetConfig skipDoctor : Bool}

/-- A run that has stopped has left everything as it was or everything at the new version if and
only if no backup of a target that differs had been removed yet, or all of them. -/
theorem install_atomic_iff {old backups : Target → Option Entry}
    {temps : Target → Nat → Option Entry} {w w' : InstallWorld}
    (hrun : Prog.Steps InstallNext (installTransaction i release resetConfig skipDoctor)
      (.begin old backups temps) p w)
    (hcleanup : Prog.Steps Mending cleanup w q w') (hq : q.outcome?.isSome = true) :
    let new := replacedEntries old (replacements i release resetConfig (old configTarget))
    (∀ t, w'.files.current t = old t) ∨ (∀ t, w'.files.current t = new t) ↔
      (w.active = true → (∀ t, t ∈ w.files.discarded → new t = old t) ∨
        ∀ t, t ∉ w.files.discarded → new t = old t) := by
  intro new
  have hbegin : Stoppable old new (.begin old backups temps) :=
    .inl ⟨rfl, (UndoJournal.replaced_start old backups).recoverable,
      fun _ hm => absurd hm List.not_mem_nil⟩
  have hstop : Stoppable old new w :=
    ((installTransaction_safe old backups temps).steps hbegin hrun).1
  have hend : ∀ t, w'.files.current t =
      if w.active = true ∧ t ∉ w.files.discarded then old t else new t := by
    obtain ⟨x, hx⟩ := Option.isSome_iff_exists.1 hq
    have hx := (cleanup_ends hstop).ends trivial hcleanup hx
    cases x <;> exact hx
  cases hactive : w.active with
  | false =>
    simp only [hactive] at hend
    exact ⟨fun _ h => (by cases h), fun _ => .inr hend⟩
  | true =>
    simp only [hactive, true_and] at hend
    constructor
    · intro h _
      apply h.imp
      · intro hold t ht
        have he := hend t
        rw [if_neg (not_not_intro ht), hold t] at he
        exact he.symm
      · intro hnew t ht
        have he := hend t
        rw [if_pos ht, hnew t] at he
        exact he
    · intro h
      apply (h rfl).imp
      · intro hd t
        rw [hend t]
        split
        · rfl
        · rename_i ht
          exact hd t (not_not.1 ht)
      · intro hd t
        rw [hend t]
        split
        · rename_i ht
          exact (hd t ht).symm
        · rfl

/-- Commands that do what they are for, up to where the run is stopped. The directories hold files
that others have put there, so that `rmdir` fails. -/
def proceed (stop : InstallWorld → Bool) (w : InstallWorld) (c : InstallCall) :
    Option (Except Text (InstallVal c) × InstallWorld) :=
  if stop w then none
  else match c with
    | .mktemp t =>
      if w.temps t 0 = none then some (.ok (0 : Nat), w.put (.temp t 0) (some (.file ⟨[], 0o600⟩)))
      else none
    | .checkDirectory _ => some (.ok true, w)
    | .removeDirectories => some (.error [], w)
    | c => (c.perform w).map fun v => (.ok v.1, v.2)

theorem proceed_mending (stop : InstallWorld → Bool) (w : InstallWorld) (c : InstallCall)
    (r : Except Text (InstallVal c)) (w' : InstallWorld) (h : proceed stop w c = some (r, w')) :
    Mending w c r w' := by
  unfold proceed at h
  split at h
  · cases h
  split at h
  · split at h
    · cases h
      exact ⟨.created ‹_›, fun _ => ⟨_, rfl⟩⟩
    · cases h
  · cases h
    exact ⟨.checked, fun _ => ⟨_, rfl⟩⟩
  · cases h
    exact ⟨.failed, fun hd => by cases hd⟩
  · obtain ⟨v, hv, he⟩ := Option.map_eq_some_iff.1 h
    cases he
    exact ⟨.performed hv, fun _ => ⟨_, rfl⟩⟩

section Sample

def updateRelease : Release :=
  ⟨text "launcher", text "installer", text "uninstaller", text "template", fun _ => text "0"⟩

/-- An installation of another version. -/
def sampleOld : Target → Option Entry := fun _ => some (.file ⟨text "old", 0o600⟩)

/-- An update of it, stopped at some point. -/
def sampleUpdate (stop : InstallWorld → Bool) : InstallProgram Unit × InstallWorld :=
  (installTransaction sampleInstallation updateRelease false true).exec (proceed stop)
    (.begin sampleOld (fun _ => none) fun _ _ => none)

def sampleCleanup (w : InstallWorld) : InstallProgram Unit × InstallWorld :=
  cleanup.exec (proceed fun _ => false) w

theorem sampleUpdate_steps (stop : InstallWorld → Bool) :
    Prog.Steps InstallNext (installTransaction sampleInstallation updateRelease false true)
      (.begin sampleOld (fun _ => none) fun _ _ => none)
      (sampleUpdate stop).1 (sampleUpdate stop).2 :=
  Prog.exec_steps (fun w c r w' h => (proceed_mending stop w c r w' h).1) _ _

theorem sampleCleanup_steps (w : InstallWorld) :
    Prog.Steps Mending cleanup w (sampleCleanup w).1 (sampleCleanup w).2 :=
  Prog.exec_steps (proceed_mending fun _ => false) cleanup w

/-- An update stopped after it has replaced four files leaves one of the two versions. -/
theorem update_stopped_early :
    (∀ t, (sampleCleanup (sampleUpdate fun w => w.files.journal.length == 4).2).2.files.current t =
        sampleOld t) ∨
      ∀ t, (sampleCleanup (sampleUpdate fun w => w.files.journal.length == 4).2).2.files.current t =
        replacedEntries sampleOld (replacements sampleInstallation updateRelease false
          (sampleOld configTarget)) t := by
  have hv :
      (sampleCleanup
        (sampleUpdate fun w => w.files.journal.length == 4).2).1.outcome?.isSome = true := by
    decide +kernel
  have hd : (sampleUpdate fun w => w.files.journal.length == 4).2.files.discarded = [] := by
    decide +kernel
  apply (install_atomic_iff (sampleUpdate_steps _) (sampleCleanup_steps _) hv).2
  intro _
  left
  intro t ht
  rw [hd] at ht
  cases ht

/-- An update stopped when three backups have been removed leaves its launcher beside the
uninstaller of the version before. -/
theorem update_stopped_while_committing :
    ¬∀ (i : Installation) (release : Release) (resetConfig skipDoctor : Bool)
      (old backups : Target → Option Entry) (temps : Target → Nat → Option Entry)
      (p q : InstallProgram Unit) (w w' : InstallWorld),
      Prog.Steps InstallNext (installTransaction i release resetConfig skipDoctor)
        (.begin old backups temps) p w →
      Prog.Steps Mending cleanup w q w' → q.outcome?.isSome = true →
      (∀ t, w'.files.current t = old t) ∨
        ∀ t, w'.files.current t =
          replacedEntries old (replacements i release resetConfig (old configTarget)) t := by
  intro h
  -- One evaluation of the run: its end, and the two files that are not of one version.
  have hend : let e := sampleCleanup (sampleUpdate fun w => w.files.discarded.length == 3).2
      e.1.outcome?.isSome = true ∧
        e.2.files.current ⟨.bin, text "goalrouter"⟩ ≠ sampleOld ⟨.bin, text "goalrouter"⟩ ∧
        e.2.files.current ⟨.bin, text "goalrouter-uninstall"⟩ ≠
          replacedEntries sampleOld (replacements sampleInstallation updateRelease false
            (sampleOld configTarget)) ⟨.bin, text "goalrouter-uninstall"⟩ := by
    decide +kernel
  obtain ⟨hv, hlauncher, huninstaller⟩ := hend
  rcases h _ _ _ _ _ _ _ _ _ _ _ (sampleUpdate_steps _) (sampleCleanup_steps _) hv with hold | hnew
  · exact hlauncher (hold _)
  · exact huninstaller (hnew _)

end Sample

end GoalRouter
