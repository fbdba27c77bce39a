import GoalRouter.StateValidity

namespace GoalRouter
open Library
set_option autoImplicit true

/-- Assuming `K` of the states of a run, every move of its life keeps `P`. -/
structure StateInvariant (host : Host) (K P : List Event → RunState → Prop) : Prop where
  event : ∀ {e log s}, (∀ s', e ≠ .replaced s') → P log s → P (e :: log) s
  landed : ∀ {log s}, K log s → P log s → P (.replaced s :: log) s
  fresh : ∀ {log s} (app : Application host), Fresh app s → (∀ s', .replaced s' ∉ log) → P log s
  loaded : ∀ {log s s' rid}, K log s → P log s →
    loadSync host rid (.snapshot (snapshotOf s)) = .ok s' → P log s'
  approved : ∀ {log s₀ s s' rid workItemId approvedBy approvedAt}, K log s₀ → P log s₀ →
    loadSync host rid (.snapshot (snapshotOf s₀)) = .ok s → K log s → P log s →
      approve host s workItemId approvedBy approvedAt = .ok s' →
        P (.answered (.note (.approved s' workItemId)) (.ok ()) :: log) s'
  adopted : ∀ {log s s'} (app : Application host), currentConfig log = some app.config →
    K log s → P log s → s.adoptCurrentConfiguration host app.config = .ok s' →
      P (.answered (.note (.adopted s')) (.ok ()) :: log) s'
  blocked : ∀ {log s item}, K log s → P log s → s.Blockable item →
    P log (s.withResult (blockedResult item))
  finished : ∀ {log s item r}, K log s → P log s → s.Finishable item r → P log (s.withResult r)
  statusSet : ∀ {log s status}, K log s → P log s → status = .planned ∨ status = .running →
    P log { s with status }
  concluded : ∀ {log s status}, K log s → P log s →
    .answered (.note (.concluding s)) (.ok ()) ∈ log → s.finalStatus host = .ok status →
      P log { s with status }
  appended : ∀ {log s decision} (app : Application host), currentConfig log = some app.config →
    K log s → P log s → s.objective.explicitTask = none → s.baseWorkSucceeded = true →
      completionId ∉ s.workItems.keys →
        route host app.config (completionItem s app.config.completionTask) none = .ok decision →
          P log (s.withCompletion app.config.completionTask decision)

/-- `P` of the state in memory and of the one in the directory. -/
structure Kept (P : List Event → RunState → Prop) (m : Option RunState) (w : World) : Prop where
  memory : ∀ s, m = some s → P w.log s
  stored : ∀ j, w.dir = .snapshot j → ∃ s, j = snapshotOf s ∧ P w.log s
  unsaved : (∀ j, w.dir ≠ .snapshot j) → ∀ s, .replaced s ∉ w.log

namespace Kept

variable {P : List Event → RunState → Prop}

theorem event (h : Kept P m w) (hP : ∀ s, P w.log s → P (e :: w.log) s)
    (he : ∀ s', e ≠ .replaced s') : Kept P m { w with log := e :: w.log } where
  memory s hs := hP s (h.memory s hs)
  stored j hj := by
    obtain ⟨s, hs, hp⟩ := h.stored j hj
    exact ⟨s, hs, hP s hp⟩
  unsaved hd s hs := by
    rcases List.mem_cons.1 hs with hs | hs
    · exact he s hs.symm
    · exact h.unsaved hd s hs

theorem land {w : World} (hp : P (.replaced s :: w.log) s) : Kept P (some s) (w.land s) where
  memory s' hs := by
    cases hs
    exact hp
  stored j hj := by
    cases hj
    exact ⟨s, rfl, hp⟩
  unsaved hd := absurd rfl (hd (snapshotOf s))

theorem move (h : Kept P m w) (hp : P w.log s) : Kept P (some s) w where
  memory s' hs := by
    cases hs
    exact hp
  stored := h.stored
  unsaved := h.unsaved

theorem forget (h : Kept P m w) : Kept P none w where
  memory _ hs := by cases hs
  stored := h.stored
  unsaved := h.unsaved

theorem load {rid : Text} (h : Kept P m w) (hl : loadSync host rid w.dir = .ok s) :
    ∃ s₀, P w.log s₀ ∧ loadSync host rid (.snapshot (snapshotOf s₀)) = .ok s := by
  obtain ⟨raw, hd, _⟩ := loadSync_ok hl
  obtain ⟨s₀, hs, hp⟩ := h.stored _ hd
  rw [hd, hs] at hl
  exact ⟨s₀, hp, hl⟩

end Kept

namespace StateInvariant

variable {host : Host} {K P : List Event → RunState → Prop}

theorem and (hK : StateInvariant host (fun _ _ => True) K) (hP : StateInvariant host K P) :
    StateInvariant host (fun _ _ => True) fun log s => K log s ∧ P log s where
  event he h := ⟨hK.event he h.1, hP.event he h.2⟩
  landed _ h := ⟨hK.landed trivial h.1, hP.landed h.1 h.2⟩
  fresh app hf hn := ⟨hK.fresh app hf hn, hP.fresh app hf hn⟩
  loaded _ h hl := ⟨hK.loaded trivial h.1 hl, hP.loaded h.1 h.2 hl⟩
  approved _ h₀ hl _ h ha :=
    ⟨hK.approved trivial h₀.1 hl trivial h.1 ha, hP.approved h₀.1 h₀.2 hl h.1 h.2 ha⟩
  adopted app hc _ h ha := ⟨hK.adopted app hc trivial h.1 ha, hP.adopted app hc h.1 h.2 ha⟩
  blocked _ h hb := ⟨hK.blocked trivial h.1 hb, hP.blocked h.1 h.2 hb⟩
  finished _ h hf := ⟨hK.finished trivial h.1 hf, hP.finished h.1 h.2 hf⟩
  statusSet _ h hs := ⟨hK.statusSet trivial h.1 hs, hP.statusSet h.1 h.2 hs⟩
  concluded _ h hn hf := ⟨hK.concluded trivial h.1 hn hf, hP.concluded h.1 h.2 hn hf⟩
  appended app hc _ h ho hb hn hr :=
    ⟨hK.appended app hc trivial h.1 ho hb hn hr, hP.appended app hc h.1 h.2 ho hb hn hr⟩

theorem answered (hP : StateInvariant host (fun _ _ => True) P) (h : Kept P m w) (c : Call)
    (r : Except PyError (Val c)) : Kept P m (w.push c r) := by
  have hne (s : RunState) : Event.answered c r ≠ .replaced s := nofun
  exact h.event (fun s => hP.event hne) hne

theorem holds (hP : StateInvariant host (fun _ _ => True) P) (h : Lifecycle host m w) :
    Kept P m w := by
  induction h with
  | initial =>
    exact ⟨(fun _ hs => by cases hs), (fun _ hj => by cases hj), fun _ _ => List.not_mem_nil⟩
  | forget _ ih => exact ih.forget
  | @quiet m w e _ he ih =>
    have hne (s : RunState) : e ≠ .replaced s := by
      rintro rfl
      cases he
    exact ih.event (fun s => hP.event hne) hne
  | create _ _ _ _ ih => exact hP.answered ih _ _
  | created _ app hs _ hd ih =>
    apply Kept.land
    apply hP.landed trivial
    apply hP.fresh app hs
    apply ih.unsaved
    intro j hj
    rw [hd] at hj
    cases hj
  | halfCreated _ hd ih =>
    refine ⟨ih.memory, (fun _ hj => by cases hj), fun _ => ih.unsaved ?_⟩
    intro j hj
    rw [hd] at hj
    cases hj
  | loaded _ hl ih =>
    obtain ⟨s₀, hp, hl⟩ := ih.load hl
    apply (hP.answered ih _ _).move
    exact hP.event (fun _ he => by cases he) (hP.loaded trivial hp hl)
  | save _ _ ih => exact hP.answered ih _ _
  | saved _ _ _ ih => exact Kept.land (hP.landed trivial (ih.memory _ rfl))
  | approved _ hl ha ih =>
    obtain ⟨s₀, hp, hl⟩ := ih.load hl
    have hs := hP.approved trivial hp hl trivial (ih.memory _ rfl) ha
    exact (hP.answered ih _ _).move hs
  | adopted app _ hc ha ih =>
    have hs := hP.adopted app hc trivial (ih.memory _ rfl) ha
    exact (hP.answered ih _ _).move hs
  | passing _ ih => exact hP.answered ih _ _
  | blocked _ hb ih => exact ih.move (hP.blocked trivial (ih.memory _ rfl) hb)
  | validated _ _ ih => exact hP.answered ih _ _
  | dispatching _ _ ih => exact hP.answered ih _ _
  | started _ _ _ _ ih => exact hP.answered ih _ _
  | planning _ _ _ _ _ ih => exact hP.answered ih _ _
  | finished _ hf ih => exact ih.move (hP.finished trivial (ih.memory _ rfl) hf)
  | recorded _ _ _ _ _ _ ih => exact hP.answered ih _ _
  | statusSet _ hs ih => exact ih.move (hP.statusSet trivial (ih.memory _ rfl) hs)
  | concluding _ ih => exact hP.answered ih _ _
  | concluded _ hn hf ih => exact ih.move (hP.concluded trivial (ih.memory _ rfl) hn hf)
  | appended app _ hc ho hb hn hr ih =>
    exact ih.move (hP.appended app hc trivial (ih.memory _ rfl) ho hb hn hr)

end StateInvariant

theorem valid_invariant (host : Host) :
    StateInvariant host (fun _ _ => True) fun _ s => s.Valid where
  event _ h := h
  landed _ h := h
  fresh _ hf _ := hf.valid
  loaded _ h hl := h.load hl ▸ h.persisted
  approved _ _ _ _ h ha := h.approved ha
  adopted _ _ _ h ha := h.adopted ha
  blocked _ h hb := h.blocked hb
  finished _ h hf := h.finished hf
  statusSet _ h _ := h.withStatus _
  concluded _ h _ _ := h.withStatus _
  appended app _ _ h _ _ _ _ := h.appended app.config.completionTask _

/-- An invariant of the valid states of a run. -/
abbrev ValidInvariant (host : Host) (P : List Event → RunState → Prop) : Prop :=
  StateInvariant host (fun _ s => s.Valid) P

theorem StateInvariant.kept {P : List Event → RunState → Prop} (hP : ValidInvariant host P)
    (h : Lifecycle host m w) : Kept (fun log s => s.Valid ∧ P log s) m w :=
  ((valid_invariant host).and hP).holds h

theorem Lifecycle.valid (h : Lifecycle host (some s) w) : s.Valid :=
  ((valid_invariant host).holds h).memory s rfl

/-- How the turn of an item comes to be started. -/
structure ItemTurn (host : Host) (w : World) (t : Turn) (s : RunState) (item : WorkItem) :
    Prop where
  alive : Lifecycle host (some s) w
  dispatchable : item ∈ s.dispatchable host
  turn : dispatchTurn host s item = .ok t
  validated : ∃ s₀ r, .answered (.note (.validated s₀ item.id)) r ∈ w.log ∧ s₀.routes = s.routes

/-- How a turn of the planner comes to be started. -/
structure PlannerTurn (host : Host) (w : World) (t : Turn) (app : Application host)
    (objective : Objective) : Prop where
  began : .began app.config ∈ w.log
  route : route host app.config (plannerWorkItem objective app.config) none = .ok t.route
  subject : t.subject = .planner ∨ t.subject = .correction

/-- What the life of a run tells about the world in which an event happened. -/
def Event.Origin (host : Host) (w : World) : Event → Prop
  | .replaced s => Lifecycle host (some s) w ∨
    w.dir = .absent ∧ (∃ m, Lifecycle host m w) ∧ ∃ app : Application host, Fresh app s
  | .answered (.create s) _ => ∃ app : Application host, Fresh app s
  | .answered (.save s) _ => Lifecycle host (some s) w
  | .answered (.load _) (.ok s) => loadSync host w.runId w.dir = .ok s ∧ ∃ m, Lifecycle host m w
  | .answered (.startTurn t) _ =>
    (∃ s item, ItemTurn host w t s item) ∨ ∃ app objective, PlannerTurn host w t app objective
  | .answered (.appendEvent _ e) _ => e.finishes = true →
    ∃ s r w₀, Lifecycle host (some s) w₀ ∧ Reports s r w₀ w e
  | .answered (.note (.approved s' workItemId)) r => r = .ok () ∧
    ∃ s approvedBy approvedAt, Lifecycle host (some s) w ∧ loadSync host w.runId w.dir = .ok s ∧
      approve host s workItemId approvedBy approvedAt = .ok s'
  | .answered (.note (.adopted s')) r => r = .ok () ∧ ∃ s, ∃ app : Application host,
    Lifecycle host (some s) w ∧ currentConfig w.log = some app.config ∧
      s.adoptCurrentConfiguration host app.config = .ok s'
  | .answered (.note (.passing s)) _ => Lifecycle host (some s) w
  | .answered (.note (.validated s workItemId)) _ =>
    Lifecycle host (some s) w ∧ requireDispatchable host s workItemId = .ok ()
  | .answered (.note (.dispatching s item)) _ =>
    Lifecycle host (some s) w ∧ item ∈ s.dispatchable host
  | .answered (.note (.concluding s)) _ => Lifecycle host (some s) w
  | _ => True

theorem Event.origin_of_quiet {e : Event} (h : e.quiet = true) : e.Origin host w := by
  cases e with
  | began => trivial
  | replaced => cases h
  | answered c r =>
    cases c with
    | load => cases r <;> trivial
    | appendEvent _ e =>
      intro hf
      have hq : (!e.finishes) = true := h
      rw [hf] at hq
      cases hq
    | _ => trivial

/-- Every event of a life goes back to a world of which its origin is known. -/
theorem Lifecycle.origin (h : Lifecycle host m w) (hl : w.log = later ++ e :: earlier) :
    ∃ w₀, w₀.log = earlier ∧ e.Origin host w₀ := by
  have step {e' : Event} {w₁ : World} {later : List Event} (ho : e'.Origin host w₁)
      (ih : ∀ {later : List Event}, w₁.log = later ++ e :: earlier →
        ∃ w₀ : World, w₀.log = earlier ∧ e.Origin host w₀)
      (hl : e' :: w₁.log = later ++ e :: earlier) :
      ∃ w₀ : World, w₀.log = earlier ∧ e.Origin host w₀ := by
    rcases List.cons_eq_append_iff.1 hl with ⟨_, he⟩ | ⟨later', _, he⟩
    · cases he
      exact ⟨w₁, rfl, ho⟩
    · exact ih he
  induction h generalizing later with
  | initial => exact absurd hl (by simp)
  | forget _ ih => exact ih hl
  | quiet _ he ih => exact step (Event.origin_of_quiet he) ih hl
  | create _ app hs _ ih => exact step (by exact ⟨app, hs⟩) ih hl
  | created h app hs _ hd ih => exact step (by exact .inr ⟨hd, ⟨_, h⟩, app, hs⟩) ih hl
  | halfCreated _ _ ih => exact ih hl
  | loaded h hs ih => exact step (by exact ⟨hs, _, h⟩) ih hl
  | save h _ ih => exact step (by exact h) ih hl
  | saved h _ _ ih => exact step (by exact .inl h) ih hl
  | approved h hs ha ih => exact step (by exact ⟨rfl, _, _, _, h, hs, ha⟩) ih hl
  | adopted app h hc ha ih => exact step (by exact ⟨rfl, _, app, h, hc, ha⟩) ih hl
  | passing h ih => exact step (by exact h) ih hl
  | blocked _ _ ih => exact ih hl
  | validated h hd ih => exact step (by exact ⟨h, hd⟩) ih hl
  | dispatching h hd ih => exact step (by exact ⟨h, hd⟩) ih hl
  | started h hd ht hv ih => exact step (by exact .inl ⟨_, _, h, hd, ht, hv⟩) ih hl
  | planning app _ hc hr ht ih => exact step (by exact .inr ⟨app, _, hc, hr, ht⟩) ih hl
  | finished _ _ ih => exact ih hl
  | recorded h₀ _ he _ _ _ ih => exact step (by exact fun _ => ⟨_, _, _, h₀, he⟩) ih hl
  | statusSet _ _ ih => exact ih hl
  | concluding h ih => exact step (by exact h) ih hl
  | concluded _ _ _ ih => exact ih hl
  | appended _ _ _ _ _ _ _ ih => exact ih hl

/-- The state that an event is about. -/
def Event.state? : Event → Option RunState
  | .replaced s | .answered (.create s) _ | .answered (.save s) _
  | .answered (.load _) (.ok s) => some s
  | .answered (.note (.approved s _)) _ | .answered (.note (.adopted s)) _
  | .answered (.note (.validated s _)) _ | .answered (.note (.dispatching s _)) _
  | .answered (.note (.passing s)) _ | .answered (.note (.concluding s)) _ => some s
  | _ => none

/-- An invariant holds of every state that a history is about, as of a point no later than the
event. -/
theorem StateInvariant.at_event {P : List Event → RunState → Prop} (hP : ValidInvariant host P)
    (h : Lifecycle host m w) (hl : w.log = later ++ e :: earlier) (hs : e.state? = some s) :
    s.Valid ∧ ∃ log, log <:+ e :: earlier ∧ P log s := by
  have hboth := (valid_invariant host).and hP
  obtain ⟨w₀, rfl, ho⟩ := h.origin hl
  have before {s : RunState} (hp : s.Valid ∧ P w₀.log s) :
      s.Valid ∧ ∃ log, log <:+ e :: w₀.log ∧ P log s :=
    ⟨hp.1, w₀.log, List.suffix_cons e w₀.log, hp.2⟩
  have memory {s : RunState} (hw : Lifecycle host (some s) w₀) :
      s.Valid ∧ ∃ log, log <:+ e :: w₀.log ∧ P log s := before ((hboth.holds hw).memory s rfl)
  have fresh {s : RunState} {app : Application host} (hf : Fresh app s) :
      s.Valid ∧ ∃ log, log <:+ e :: w₀.log ∧ P log s := by
    have hn (s' : RunState) : Event.replaced s' ∉ [] := List.not_mem_nil
    have hp := hboth.fresh app hf hn
    exact ⟨hp.1, [], List.nil_suffix, hp.2⟩
  have after {s : RunState} {n : Note} (he : e = .answered (.note n) (.ok ()))
      (hw : Lifecycle host (some s) (w₀.push (.note n) (.ok ()))) :
      s.Valid ∧ ∃ log, log <:+ e :: w₀.log ∧ P log s := by
    have hp := (hboth.holds hw).memory s rfl
    exact ⟨hp.1, _, he ▸ List.suffix_refl _, hp.2⟩
  cases e with
  | began => cases hs
  | replaced =>
    cases hs
    rcases ho with ho | ⟨_, _, app, hf⟩
    · exact memory ho
    · exact fresh hf
  | answered c r =>
    cases c with
    | create =>
      cases hs
      exact fresh ho.choose_spec
    | save =>
      cases hs
      exact memory ho
    | load =>
      cases r with
      | error => cases hs
      | ok =>
        cases hs
        obtain ⟨hload, m₀, hw⟩ := ho
        obtain ⟨s₀, hp, hload⟩ := (hboth.holds hw).load hload
        exact before (hboth.loaded trivial hp hload)
    | note n =>
      cases n with
      | approved =>
        cases hs
        obtain ⟨rfl, s₀, _, _, hw, hload, ha⟩ := ho
        exact after rfl (hw.approved hload ha)
      | adopted =>
        cases hs
        obtain ⟨rfl, s₀, app, hw, hc, ha⟩ := ho
        exact after rfl (hw.adopted app hc ha)
      | validated | dispatching =>
        cases hs
        exact memory ho.1
      | passing | concluding =>
        cases hs
        exact memory ho
    | _ => cases hs

/-- An invariant of states alone holds of every state that a history is about. -/
theorem StateInvariant.of_event {Q : RunState → Prop} (hQ : ValidInvariant host fun _ s => Q s)
    (h : Lifecycle host m w) (hm : e ∈ w.log) (hs : e.state? = some s) : s.Valid ∧ Q s := by
  obtain ⟨later, earlier, hl⟩ := List.append_of_mem hm
  obtain ⟨hv, _, _, hq⟩ := hQ.at_event h hl hs
  exact ⟨hv, hq⟩

end GoalRouter
